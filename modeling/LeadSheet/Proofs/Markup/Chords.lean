import LeadSheet.Proofs.Chord.Mentions
import LeadSheet.Proofs.Chord.Names
import LeadSheet.Proofs.Markup.Safety

/-!
# The chords that a rendered body shows

What a rendered body shows as a chord is a name that the database knows and that stands between brackets
in the body. Whether it is also one of the chords that the body mentions depends on the brackets before
it: a mention may run over the end of a line, through code and through the address of a link, where the
rules inside a line do not look, so a bracket that is still open takes the closing one of the chord
(`chord_shown`).

* `ShownChord` : a chord among the tokens of a body, with what is known of its name;
* `bodyTokens_chords` : every chord that begins in a body is one;
* `print_tag_inv` : a tag in a printed document was printed from a tag.
-/

namespace LeadSheet.Markup

open Text
open Chord (Mentioned)

/-! ## Chords among the tokens -/

def chordStart : Token := .tag (.opening .chord)

/-- A chord with its name, which stands between brackets in the body. -/
def ShownChord (db : Chord.Database) (body : List Char) (ts : List Token) : Prop :=
  ∃ name, ts = chordStart :: Token.ofChars name ++ [.tag (.closing .chord)] ∧ db.isChord name = true ∧
    ']' ∉ name ∧ '[' :: name ++ [']'] <:+: body

/-- No chord begins in the line yet, and the characters that stand together in it stand together in the body. -/
structure PartOf (body : List Char) (l : Line) : Prop where
  no_chord : ∀ p ∈ l, chordStart ∉ p.tokens
  stretch : ∀ u, Line.ofChars u <:+: l → u <:+: body

namespace PartOf

variable {body : List Char}

theorem infixClosed : InfixClosed (PartOf body) := fun _ _ hl' hl =>
  ⟨fun p hp => hl.no_chord p (hl'.subset hp), fun u hu => hl.stretch u (hu.trans hl')⟩

theorem rewrites {R : List Char → Piece → Prop} (hR : Opaque R) (hchord : ∀ u p, R u p → chordStart ∉ p.tokens)
    {s t : Line} (h : Rewrites R s t) (hs : PartOf body s) : PartOf body t where
  no_chord p hp := by
    rcases h.mem hp with hp | ⟨u, hu⟩
    · exact hs.no_chord p hp
    · exact hchord u p hu
  stretch u hu := hs.stretch u (h.stretch hR hu)

theorem setInline {l : Line} (h : PartOf body l) (n : Nat) : PartOf body (setInline n l) := by
  refine h.rewrites opaque_inlineMark ?_ (rewrites_setInline n l)
  have hemphasis : ∀ e ∈ emphases, e.element ≠ .chord := by decide
  intro u p hp
  cases hp with
  | image n description address => simp [Piece.tokens, chordStart]
  | linkStart n address => simp [Piece.tokens, chordStart]
  | linkEnd address => simp [Piece.tokens, chordStart]
  | emphasisStart he => simpa [Piece.tokens, chordStart] using Ne.symm (hemphasis _ he)
  | emphasisEnd he => simp [Piece.tokens, chordStart]

theorem setSpans {l : List Char} (h : l <:+: body) (n : Nat) : PartOf body (setSpans n l).1 := by
  have hl : PartOf body (Line.ofChars l) := by
    refine ⟨fun p hp => ?_, fun u hu => (Line.infix_ofChars_iff.mp hu).trans h⟩
    obtain ⟨c, -, rfl⟩ := List.mem_map.mp hp
    simp [Piece.tokens, chordStart]
  refine hl.rewrites opaque_codeMark ?_ (rewrites_setSpans n l)
  intro u p hp
  cases hp with
  | span n code => simp [Piece.tokens, chordStart, codeSpan, Token.element, Token.ofChars]

theorem tokens {l : Line} (h : PartOf body l) : chordStart ∉ Line.tokens l := by
  intro hmem
  obtain ⟨p, hp, hchord⟩ := List.mem_flatMap.mp hmem
  exact h.no_chord p hp hchord

end PartOf

/-! ## From a line to the body -/

section Body

variable {db : Chord.Database} {body : List Char}

/-- A name whose source text is plain consists of characters. -/
theorem eq_ofChars_of_plain {name : Line} (h : (Line.source name).all isPlain = true) :
    name = Line.ofChars (Line.source name) := by
  have hopen : isPlain '<' = false := by decide
  induction name with
  | nil => rfl
  | cons p name ih =>
      rw [Line.source, List.flatMap_cons] at h ⊢
      rw [List.all_append, Bool.and_eq_true] at h
      have hmem : '<' ∉ p.source := fun hmem => by simp [List.all_eq_true.mp h.1 _ hmem] at hopen
      match p with
      | .char c =>
          have hc : Piece.source (.char c) = [c] := escapeChar_of_isPlain (isPlain_of_escapeChar h.1)
          rw [hc, List.singleton_append, Line.ofChars_cons]
          exact congrArg (Piece.char c :: ·) (ih h.2)
      | .tag t =>
          have htext : '<' ∈ t.text := by simp [Tag.text]
          exact absurd htext hmem
      | .literal n content =>
          exact absurd (List.mem_append_left _ (List.mem_append_left _ (by decide))) hmem

theorem setChords_shows (hdb : db.IsPlain) {l : Line} (h : PartOf body l) :
    Begins chordStart (ShownChord db body) (Line.tokens (setChords db l)) := by
  fun_induction setChords db l with
  | case1 => exact .of_not_mem (by simp [Line.tokens])
  | case2 piece rest name after hname _ hchord ih =>
      obtain ⟨hpiece, hrest, hclose⟩ := setChords_eq_some hname
      subst hpiece hrest
      have hu := eq_ofChars_of_plain (Chord.isChord_plain hdb hchord)
      generalize Line.source name = u at hu hchord
      subst hu
      have hu : ']' ∉ u := fun hmem => by simpa [Piece.is, Piece.sat] using hclose _ (List.mem_map_of_mem hmem)
      have hafter := PartOf.infixClosed _ after ⟨.char '[' :: Line.ofChars u ++ [.char ']'], [], by simp⟩ h
      have hbody : '[' :: u ++ [']'] <:+: body := h.stretch _ ⟨[], after, by simp⟩
      have hinside : chordStart ∉ Token.ofChars u ++ [.tag (.closing .chord)] := by
        simp [chordStart, Token.ofChars]
      have hshown : Begins chordStart (ShownChord db body) _ := .of_cons ⟨u, rfl, hchord, hu, hbody⟩ hinside
      have htokens := hshown.append (ih hafter)
      simpa [chordStart, Piece.tokens] using htokens
  | case3 piece rest name after hname _ hchord ih =>
      obtain ⟨hpiece, hrest, -⟩ := setChords_eq_some hname
      subst hpiece hrest
      have hname := PartOf.infixClosed _ (.char '[' :: name ++ [.char ']']) ⟨[], after, by simp⟩ h
      have hafter := PartOf.infixClosed _ after ⟨.char '[' :: name ++ [.char ']'], [], by simp⟩ h
      have htokens := (Begins.of_not_mem hname.tokens).append (ih hafter)
      rwa [← Line.tokens_append, List.append_assoc] at htokens
  | case4 piece rest hname ih =>
      have hpiece := PartOf.infixClosed _ [piece] (List.prefix_append [piece] rest).isInfix h
      have hrest := PartOf.infixClosed _ rest (List.suffix_cons piece rest).isInfix h
      have htokens := (Begins.of_not_mem hpiece.tokens).append (ih hrest)
      rwa [← Line.tokens_append] at htokens

/-- Every chord that begins in a body is a known name between brackets. -/
theorem bodyTokens_chords (hdb : db.IsPlain) (body : List Char) :
    Begins chordStart (ShownChord db body) (bodyTokens db body) := by
  have hjoin : Additive (Begins chordStart (ShownChord db body)) := by
    refine ⟨.of_not_mem List.not_mem_nil, fun hs ht => hs.append ht, fun t ht => .of_not_mem ?_⟩
    rw [List.mem_singleton]
    rintro rfl
    exact ht
  have hpart : ∀ l ∈ markedLines db body, PartOf body l :=
    markedLines_holds PartOf.infixClosed db (setCode_holds fun l hl n => PartOf.setSpans (infix_of_mem_lines hl) n)
  have hfence := hjoin.fences (.of_not_mem (by simp [chordStart])) (.of_not_mem (by simp [chordStart]))
  exact hjoin.compositional.bodyTokens hfence fun l hl n => setChords_shows hdb ((hpart l hl).setInline n)

end Body

/-! ## The chords of a printed document -/

/-- What begins in the text of a token like a tag is the whole tag. -/
theorem eq_tag_of_append {t : Token} (ht : t.Own) {before m : List Char} (h : t.text = before ++ '<' :: m) :
    ∃ t', t = .tag t' ∧ before = [] := by
  cases t with
  | char c =>
      have hmem : '<' ∈ escapeChar c := by
        rw [show escapeChar c = before ++ '<' :: m from h]
        exact List.mem_append_right before List.mem_cons_self
      exact absurd hmem (markless_escapeChar c).no_open
  | tag t' =>
      obtain ⟨s, hs, hinside⟩ := (Tag.own_text ht).eq_markless
      cases before with
      | nil => exact ⟨t', rfl, rfl⟩
      | cons c before =>
          rw [show t'.text = c :: before ++ '<' :: m from h, List.cons_append, List.cons_append] at hs
          have hmem : '<' ∈ s ++ ['>'] :=
            (List.cons.inj hs).2 ▸ List.mem_append_right before List.mem_cons_self
          simp [hinside.no_open] at hmem

/-- A tag in a printed document was printed from a tag. -/
theorem print_tag_inv {ts : List Token} (hts : ∀ t ∈ ts, t.Own) {tag before after : List Char} (htag : OwnTag tag)
    (h : Token.print ts = before ++ (tag ++ after)) :
    ∃ t ts₁ ts₂, ts = ts₁ ++ .tag t :: ts₂ ∧ t.text = tag ∧ after = Token.print ts₂ := by
  obtain ⟨s, hs, hinside⟩ := htag.eq_markless
  induction ts generalizing before with
  | nil => simp [Token.print, hs] at h
  | cons t ts ih =>
      obtain ⟨ht, hts⟩ := List.forall_mem_cons.mp hts
      rw [Token.print, List.flatMap_cons] at h
      have hlater : ∀ m, Token.print ts = m ++ (tag ++ after) →
          ∃ t' ts₁ ts₂, t :: ts = ts₁ ++ .tag t' :: ts₂ ∧ t'.text = tag ∧ after = Token.print ts₂ := by
        intro m hm
        obtain ⟨t', ts₁, ts₂, rfl, htext, hafter⟩ := ih hts hm
        exact ⟨t', t :: ts₁, ts₂, rfl, htext, hafter⟩
      rcases List.append_eq_append_iff.mp h with ⟨m, -, hm⟩ | ⟨m, htext, hm⟩
      · exact hlater m hm
      · cases m with
        | nil => exact hlater [] hm.symm
        | cons c m =>
            rw [hs, List.cons_append, List.cons_append, List.cons_append, List.cons.injEq] at hm
            obtain ⟨hc, hm⟩ := hm
            subst hc
            obtain ⟨t', rfl, rfl⟩ := eq_tag_of_append ht htext
            obtain ⟨s', hs', hinside'⟩ := (Tag.own_text ht).eq_markless
            have hmark : m = s' ++ ['>'] := (List.cons.inj (htext.symm.trans hs')).2
            rw [hmark, List.append_assoc, List.append_assoc] at hm
            obtain ⟨hss, hafter⟩ := append_mark_inj hinside.no_close hinside'.no_close hm
            exact ⟨t', [], ts, rfl, by rw [hs', hs, hss], hafter⟩

theorem eq_opening_chord {t : Tag} (h : t.text = (Tag.opening .chord).text) : t = .opening .chord := by
  have hsecond : t.text[1]? = some 's' := by
    rw [h]
    decide
  cases t with
  | lineBreak => exact absurd hsecond (by decide)
  | rule => exact absurd hsecond (by decide)
  | image address description => exact absurd hsecond (by simp [Tag.text, Tag.name])
  | closing e => exact absurd hsecond (by simp [Tag.text, Tag.name])
  | opening e =>
      cases e with
      | heading level =>
          have hname : (Tag.opening (.heading level)).text[1]? = some 'h' := rfl
          exact absurd (hname.symm.trans hsecond) (by decide)
      | code language =>
          have hname : (Tag.opening (.code language)).text[1]? = some 'c' := rfl
          exact absurd (hname.symm.trans hsecond) (by decide)
      | anchor address =>
          have hname : (Tag.opening (.anchor address)).text[1]? = some 'a' := rfl
          exact absurd (hname.symm.trans hsecond) (by decide)
      | chord => rfl
      | _ => exact absurd h (by decide)

/-- What a rendered body shows as a chord is a name that the database knows and that stands between brackets
in the body. It is one of the chords of the body exactly when it stands there after a part in which every
bracket is closed. -/
theorem chord_shown (db : Chord.Database) (hdb : db.IsPlain) (body : String) {before after : List Char}
    (h : (render db body).toList = before ++ "<span class=\"chord-inline\">".toList ++ after) :
    ∃ name rest, after = name ++ "</span>".toList ++ rest ∧ '<' ∉ name ∧ db.isChord name = true ∧
      '[' :: name ++ [']'] <:+: body.toList ∧
      (name ∈ db.chordsIn body.toList ↔ Mentioned name body.toList) := by
  have hchord : "<span class=\"chord-inline\">".toList = (Tag.opening .chord).text := by decide
  have hown := bodyTokens_own db body.toList
  rw [render, String.toList_ofList, hchord, List.append_assoc] at h
  have htag : OwnTag (Tag.opening .chord).text := Tag.own_text trivial
  obtain ⟨t, ts₁, ts₂, hts, htext, hafter⟩ := print_tag_inv hown htag h
  obtain rfl := eq_opening_chord htext
  obtain ⟨_, ⟨name, rfl, hname, hclose, hbody⟩, rest, hrest⟩ := bodyTokens_chords hdb body.toList ts₁ ts₂ hts
  have hplain := Chord.isChord_plain hdb hname
  have hts₂ : ts₂ = Token.ofChars name ++ ([.tag (.closing .chord)] ++ rest) := by
    simpa [chordStart] using hrest.symm
  refine ⟨name, Token.print rest, ?_, ?_, hname, hbody, ?_⟩
  · have hclosing : Token.print [.tag (.closing .chord)] = "</span>".toList := by decide
    rw [hafter, hts₂, print_append, print_append, print_ofChars, escape_of_plain hplain, hclosing, List.append_assoc]
  · exact fun hmem => absurd (List.all_eq_true.mp hplain _ hmem) (by decide)
  · rw [Chord.mem_chordsIn]
    exact ⟨fun h => h.2.2, fun h => ⟨hname, hclose, h⟩⟩

theorem chord_shown_in_verse :
    ∃ name rest, "C</span> my</p>".toList = name ++ "</span>".toList ++ rest ∧ '<' ∉ name ∧
      Chord.Database.cMajor.isChord name = true ∧ '[' :: name ++ [']'] <:+: "Oh [C] my".toList ∧
      (name ∈ Chord.Database.cMajor.chordsIn "Oh [C] my".toList ↔
        Mentioned name "Oh [C] my".toList) :=
  chord_shown .cMajor (by decide) "Oh [C] my"
    (by decide +kernel : (render .cMajor "Oh [C] my").toList =
      "<p>Oh ".toList ++ "<span class=\"chord-inline\">".toList ++ "C</span> my</p>".toList)

/-- A bracket that is still open on an earlier line takes the closing one of a chord, so that the chord is
shown but is none of the chords of the body. -/
theorem chord_shown_not_listed :
    Chord.Database.cMajor.IsPlain ∧
      (render .cMajor "[\nfoo [C] bar").toList =
        "<p>[<br>foo ".toList ++ "<span class=\"chord-inline\">".toList ++ "C</span> bar</p>".toList ∧
      "C".toList ∉ Chord.Database.cMajor.chordsIn "[\nfoo [C] bar".toList := by
  decide +kernel

end LeadSheet.Markup
