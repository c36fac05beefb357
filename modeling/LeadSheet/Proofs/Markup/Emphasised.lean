import LeadSheet.Proofs.Markup.Tables

/-!
# Emphasised text

A line is put together from segments with a space between neighbours. A segment is a plain text, or one between two
marks of an accent. The accents are set one after another, each over the whole line, and two of them share a
character; still, each mark finds its own partner (`render_accentedLine`).

* `AccentedLine.text`, `AccentedLine.html` : the line as it is written, and what it reads like in a document;
* `Emphasis.set_append` : a rule leaves alone what does not hold its mark;
* `Emphasis.match?_marked` : a text between two marks is read up to the second one;
* `Accent.set_spaced` : each rule sets the segments of its own accent and no others.
-/

namespace LeadSheet.Markup

open Text

/-! ## Lines and their meaning -/

/-- A text without markup, with something in it and without white space at either end. -/
structure PlainText where
  text : List Char
  isLyric_text : IsLyric text
  trim_text : Text.trim text = text
  ne_nil : text ≠ []

/-- A way to emphasise a text: what is written before and after it. -/
inductive Accent
  | tildes
  | stars
  | underscores
  | star
  | underscore
  deriving DecidableEq

namespace Accent

/-- The mark on either side of the text. -/
def mark : Accent → List Char
  | tildes => "~~".toList
  | stars => "**".toList
  | underscores => "__".toList
  | star => "*".toList
  | underscore => "_".toList

def elementName : Accent → String
  | tildes => "del"
  | stars | underscores => "strong"
  | star | underscore => "em"

end Accent

inductive Segment
  | plain (t : PlainText)
  | accented (a : Accent) (t : PlainText)

namespace Segment

def text : Segment → List Char
  | plain t => t.text
  | accented a t => a.mark ++ (t.text ++ a.mark)

def html : Segment → List Char
  | plain t => t.text
  | accented a t => elementHtml a.elementName t.text

end Segment

/-- A line of segments, the first of which is plain and begins with a letter. -/
structure AccentedLine where
  first : PlainText
  rest : List Segment
  startsWithLetter : first.text.head?.any isAsciiLetter = true

namespace AccentedLine

def text (l : AccentedLine) : List Char := List.intercalate [' '] (l.first.text :: l.rest.map Segment.text)

def html (l : AccentedLine) : List Char :=
  elementHtml "p" (List.intercalate [' '] (l.first.text :: l.rest.map Segment.html))

end AccentedLine

/-! ## One rule -/

namespace Emphasis

variable {e : Emphasis}

/-- What does not hold the mark of a rule is left as it is, if the mark cannot begin in it and go on after it. -/
theorem set_append {u rest : Line} (hu : ¬ Line.ofChars e.mark <:+: u)
    (hrest : ∀ c ∈ e.mark, rest.head? ≠ some (.char c)) (afterWord : Bool) :
    ∃ afterWord', e.set afterWord (u ++ rest) = u ++ e.set afterWord' rest := by
  induction u generalizing afterWord with
  | nil => exact ⟨afterWord, rfl⟩
  | cons p u ih =>
      have hnone : e.begin? afterWord (p :: (u ++ rest)) = none := by
        rw [Option.eq_none_iff_forall_ne_some]
        rintro ⟨content, after⟩ hbegin
        rw [begin?] at hbegin
        split at hbegin
        · simp at hbegin
        · have hprefix : Line.ofChars e.mark <+: (p :: u) ++ rest := ⟨_, (match?_eq_some hbegin).symm⟩
          rcases prefix_append_cases hprefix with hmark | ⟨v, ⟨t, ht⟩, hmark⟩
          · exact hu hmark.isInfix
          · cases v with
            | nil =>
                rw [List.append_nil] at hmark
                exact hu (hmark ▸ List.infix_rfl)
            | cons q v =>
                have hq : q ∈ Line.ofChars e.mark := hmark ▸ List.mem_append_right _ List.mem_cons_self
                obtain ⟨c, hc, rfl⟩ := List.mem_map.mp hq
                exact hrest c hc (by rw [← ht]; rfl)
      obtain ⟨afterWord', ih⟩ := ih (fun h => hu (h.trans (List.suffix_cons p u).isInfix)) (p.sat isWord)
      exact ⟨afterWord', by rw [List.cons_append, set_of_none hnone, ih, List.cons_append]⟩

theorem dropMark?_ofChars (mark : List Char) (rest : Line) :
    Line.dropMark? mark (Line.ofChars mark ++ rest) = some rest := by
  induction mark with
  | nil => rfl
  | cons c mark ih => rw [Line.ofChars_cons, List.cons_append, Line.dropMark?_char, ih]

/-- A text is read up to the closing mark, which must stand after a piece that may end it. -/
theorem findClosing_ofChars {c : Char} {mark t : List Char} (hmark : e.mark = c :: mark) (hc : c ∉ t) {last : Piece}
    (hlast : ∀ p, (last :: Line.ofChars t).getLast? = some p → p.opaqueOr e.edge = true) {rest : Line}
    (hrest : rest.head?.any (Piece.sat isWord) = false) :
    e.findClosing last (Line.ofChars t ++ (Line.ofChars e.mark ++ rest)) = some (Line.ofChars t, rest) := by
  induction t generalizing last with
  | nil =>
      have hcloses : e.closing? last (Line.ofChars e.mark ++ rest) = some rest := by
        rw [closing?, if_pos (hlast last rfl), dropMark?_ofChars, Option.filter_some, hrest, Bool.and_false]
        rfl
      rw [hmark, Line.ofChars_cons] at hcloses
      rw [hmark, Line.ofChars_nil, List.nil_append, Line.ofChars_cons, List.cons_append, findClosing_cons,
        ← List.cons_append, hcloses]
  | cons d t ih =>
      rw [List.mem_cons, not_or] at hc
      have hopen : e.closing? last (.char d :: (Line.ofChars t ++ (Line.ofChars e.mark ++ rest))) = none := by
        rw [closing?, hmark, Line.dropMark?_of_ne fun _ heq => hc.1 (Piece.char.inj (List.cons.inj heq).1).symm]
        exact ite_self _
      rw [Line.ofChars_cons, List.getLast?_cons_cons] at hlast
      rw [Line.ofChars_cons, List.cons_append, findClosing_cons, hopen, ih hc.2 hlast]
      rfl

/-- A text between two marks is what the rule takes. -/
theorem match?_marked {c d : Char} {mark t : List Char} (hmark : e.mark = c :: mark) (hc : c ∉ d :: t)
    (hfirst : e.edge d = true) (hlast : ∀ d', (d :: t).getLast? = some d' → e.edge d' = true) {rest : Line}
    (hrest : rest.head?.any (Piece.sat isWord) = false) :
    e.match? (Line.ofChars e.mark ++ (Line.ofChars (d :: t) ++ (Line.ofChars e.mark ++ rest))) =
      some (Line.ofChars (d :: t), rest) := by
  have hends : ∀ p, (.char d :: Line.ofChars t : Line).getLast? = some p → p.opaqueOr e.edge = true := by
    intro p hp
    rw [← Line.ofChars_cons, Line.ofChars, List.getLast?_map, Option.map_eq_some_iff] at hp
    obtain ⟨d', hd', rfl⟩ := hp
    exact hlast d' hd'
  have hopens : (Piece.char d).opaqueOr e.edge = true := hfirst
  have hclosing := findClosing_ofChars hmark (fun hmem => hc (List.mem_cons_of_mem d hmem)) hends hrest
  rw [match?, dropMark?_ofChars, Line.ofChars_cons, List.cons_append]
  simp only [hopens, if_true, hclosing, Option.map_some]

end Emphasis

/-! ## The accents as rules -/

namespace Accent

def emphasis : Accent → Emphasis
  | tildes => emphases.get ⟨0, by decide⟩
  | stars => emphases.get ⟨1, by decide⟩
  | underscores => emphases.get ⟨2, by decide⟩
  | star => emphases.get ⟨3, by decide⟩
  | underscore => emphases.get ⟨4, by decide⟩

theorem emphases_eq : emphases = [tildes, stars, underscores, star, underscore].map emphasis := rfl

variable (a : Accent)

theorem mark_emphasis : a.emphasis.mark = a.mark := by cases a <;> rfl

/-- The character that the mark is made of. -/
def char : Accent → Char
  | tildes => '~'
  | stars | star => '*'
  | underscores | underscore => '_'

theorem mark_eq : a.mark = [a.char] ∨ a.mark = [a.char, a.char] := by
  cases a with
  | tildes | stars | underscores => exact Or.inr rfl
  | star | underscore => exact Or.inl rfl

theorem char_ne_space : a.char ≠ ' ' := by cases a <;> decide

theorem not_isLyricChar_char : isLyricChar a.char = false := by cases a <;> decide

theorem exists_mark_eq_cons : ∃ mark, a.mark = a.char :: mark := by
  rcases a.mark_eq with h | h
  · exact ⟨_, h⟩
  · exact ⟨_, h⟩

theorem eq_char_of_mem_mark {a : Accent} {c : Char} (h : c ∈ a.mark) : c = a.char := by
  rcases a.mark_eq with hmark | hmark
  · simpa [hmark] using h
  · simpa [hmark] using h

/-- Either end of a plain text may stand beside the mark. -/
theorem edge_emphasis {c : Char} (hspace : isSpace c = false) (hlyric : isLyricChar c = true) :
    a.emphasis.edge c = true := by
  have hstar : c ≠ '*' := by
    rintro rfl
    exact absurd hlyric (by decide)
  have hunderscore : c ≠ '_' := by
    rintro rfl
    exact absurd hlyric (by decide)
  have hedge : (!isSpace c) = true := by rw [hspace]; rfl
  cases a with
  | tildes | stars | underscores => exact hedge
  | star => exact (Bool.and_eq_true _ _).mpr ⟨hedge, bne_iff_ne.mpr hstar⟩
  | underscore => exact (Bool.and_eq_true _ _).mpr ⟨hedge, bne_iff_ne.mpr hunderscore⟩

/-- The mark of one accent is not found in the marks of another, if they are made of other characters or are shorter. -/
def Skips (a b : Accent) : Prop := a.char ≠ b.char ∨ b.mark.length < a.mark.length

instance (a b : Accent) : Decidable (a.Skips b) := inferInstanceAs (Decidable (_ ∨ _))

variable {a}

theorem not_infix_of_not_mem {u : Line} (h : .char a.char ∉ u) : ¬ Line.ofChars a.mark <:+: u := by
  obtain ⟨mark, hmark⟩ := a.exists_mark_eq_cons
  rw [hmark]
  exact fun hmarks => h (hmarks.subset List.mem_cons_self)

theorem not_infix_marked {b : Accent} (h : a.Skips b) (t : PlainText) : ¬ a.mark <:+: b.mark ++ (t.text ++ b.mark) := by
  have hplain : a.char ∉ t.text := t.isLyric_text.not_mem a.not_isLyricChar_char
  obtain ⟨mark, hmark⟩ := a.exists_mark_eq_cons
  by_cases hchar : a.char = b.char
  · -- the marks of both are made of one character, twice here and once there
    obtain ⟨ha, hb⟩ : a.mark = [a.char, a.char] ∧ b.mark = [a.char] := by
      have hlength := h.resolve_left (not_not.mpr hchar)
      rcases a.mark_eq with ha | ha <;> rcases b.mark_eq with hb | hb <;> simp_all
    rw [ha, hb]
    intro hinfix
    rcases List.infix_cons_iff.mp hinfix with hinfix | hinfix
    · obtain ⟨d, s, hd⟩ := List.exists_cons_of_ne_nil t.ne_nil
      rw [hd, List.cons_append] at hinfix
      obtain ⟨heq, -⟩ := List.cons_prefix_cons.mp (List.cons_prefix_cons.mp hinfix).2
      exact hplain (hd ▸ heq ▸ List.mem_cons_self)
    · exact absurd (infix_of_infix_append hplain hinfix).length_le (by simp)
  · have hmarks : a.char ∉ b.mark := fun hmem => hchar (eq_char_of_mem_mark hmem)
    rw [hmark]
    intro hmarked
    have hmem := hmarked.subset List.mem_cons_self
    simp [hmarks, hplain] at hmem

end Accent

/-! ## Lines with some accents set -/

/-- The segment in a line where some accents have been set. -/
def Segment.pieces (done : List Accent) : Segment → Line
  | plain t => Line.ofChars t.text
  | accented a t =>
    if a ∈ done then
      .tag (.opening a.emphasis.element) :: (Line.ofChars t.text ++ [.tag (.closing a.emphasis.element)])
    else Line.ofChars (a.mark ++ (t.text ++ a.mark))

/-- The segments with a space before each. -/
def spaced (done : List Accent) (segments : List Segment) : Line :=
  segments.flatMap fun s => .char ' ' :: s.pieces done

theorem spaced_cons (done : List Accent) (s : Segment) (segments : List Segment) :
    spaced done (s :: segments) = .char ' ' :: (s.pieces done ++ spaced done segments) := rfl

theorem head_spaced (done : List Accent) (segments : List Segment) :
    ∀ p ∈ (spaced done segments).head?, p = .char ' ' := by
  cases segments with
  | nil => simp [spaced]
  | cons s segments => simp [spaced_cons]

section Rule

variable {a : Accent} {done : List Accent}

theorem head_spaced_ne_mark (segments : List Segment) :
    ∀ c ∈ a.emphasis.mark, (spaced done segments).head? ≠ some (.char c) := by
  intro c hc hhead
  rw [a.mark_emphasis] at hc
  have hspace : c = ' ' := Piece.char.inj (head_spaced done segments _ hhead)
  exact a.char_ne_space (by rw [← Accent.eq_char_of_mem_mark hc, hspace])

theorem head_spaced_word (segments : List Segment) : (spaced done segments).head?.any (Piece.sat isWord) = false := by
  have hword : Piece.sat isWord (.char ' ') = false := by decide
  cases hhead : (spaced done segments).head? with
  | none => rfl
  | some p => rw [head_spaced done segments p hhead, Option.any_some, hword]

theorem PlainText.not_mem_pieces (t : PlainText) : .char a.char ∉ Line.ofChars t.text :=
  fun hmem => t.isLyric_text.not_mem a.not_isLyricChar_char (char_mem_ofChars.mp hmem)

/-- The rule of an accent finds its mark in the segments of this accent only. -/
theorem Segment.not_infix_pieces (h : ∀ b, b ∈ done ∨ b = a ∨ a.Skips b) {s : Segment} (hs : ∀ t, s ≠ .accented a t) :
    ¬ Line.ofChars a.mark <:+: s.pieces done := by
  cases s with
  | plain t => exact Accent.not_infix_of_not_mem t.not_mem_pieces
  | accented b t =>
      rw [pieces]
      split
      · exact Accent.not_infix_of_not_mem (by simp [t.not_mem_pieces])
      · rename_i hdone
        have hskips : a.Skips b := ((h b).resolve_left hdone).resolve_left fun heq => hs t (heq ▸ rfl)
        rw [Line.infix_ofChars_iff]
        exact Accent.not_infix_marked hskips t

theorem Accent.set_space (a : Accent) (afterWord : Bool) (l : Line) :
    a.emphasis.set afterWord (.char ' ' :: l) = .char ' ' :: a.emphasis.set false l := by
  obtain ⟨mark, hmark⟩ := a.exists_mark_eq_cons
  have hmatch : a.emphasis.match? (.char ' ' :: l) = none := by
    rw [Emphasis.match?, a.mark_emphasis, hmark,
      Line.dropMark?_of_ne fun _ heq => a.char_ne_space (Piece.char.inj (List.cons.inj heq).1).symm]
  have hword : Piece.sat isWord (.char ' ') = false := by decide
  rw [Emphasis.set_of_none (by rw [Emphasis.begin?, hmatch, ite_self]), hword]

/-- The rule of an accent takes a segment of it. -/
theorem PlainText.begin?_marked (t : PlainText) {rest : Line} (hrest : rest.head?.any (Piece.sat isWord) = false) :
    a.emphasis.begin? false (Line.ofChars (a.mark ++ (t.text ++ a.mark)) ++ rest) =
      some (Line.ofChars t.text, rest) := by
  obtain ⟨mark, hmark⟩ := a.exists_mark_eq_cons
  obtain ⟨d, s, hd⟩ := List.exists_cons_of_ne_nil t.ne_nil
  have hplain : a.char ∉ t.text := t.isLyric_text.not_mem a.not_isLyricChar_char
  have hlyric : ∀ c ∈ t.text, isLyricChar c = true := t.isLyric_text
  have htrim := t.trim_text
  rw [hd] at hplain hlyric htrim ⊢
  have hfirst : a.emphasis.edge d = true :=
    a.edge_emphasis (isSpace_head_of_trim htrim) (hlyric d List.mem_cons_self)
  have hlast : ∀ d', (d :: s).getLast? = some d' → a.emphasis.edge d' = true := fun d' hd' =>
    a.edge_emphasis (isSpace_getLast_of_trim htrim hd') (hlyric d' (List.mem_of_getLast? hd'))
  have hmatch := Emphasis.match?_marked (a.mark_emphasis.trans hmark) hplain hfirst hlast hrest
  rw [a.mark_emphasis] at hmatch
  rw [Emphasis.begin?, Bool.and_false, if_neg Bool.false_ne_true, Line.ofChars_append, Line.ofChars_append,
    List.append_assoc, List.append_assoc, hmatch]

/-- The rule of an accent sets the segments of this accent. -/
theorem Accent.set_spaced (ha : a ∉ done) (h : ∀ b, b ∈ done ∨ b = a ∨ a.Skips b) (segments : List Segment)
    (afterWord : Bool) : a.emphasis.set afterWord (spaced done segments) = spaced (a :: done) segments := by
  induction segments generalizing afterWord with
  | nil => rw [spaced, List.flatMap_nil, Emphasis.set]; rfl
  | cons s segments ih =>
      rw [spaced_cons, set_space, spaced_cons]
      refine congrArg (Piece.char ' ' :: ·) ?_
      by_cases hs : ∃ t, s = .accented a t
      · obtain ⟨t, rfl⟩ := hs
        have hpieces : (Segment.accented a t).pieces done = Line.ofChars (a.mark ++ (t.text ++ a.mark)) := if_neg ha
        have hrest : (spaced done segments).head?.any (Piece.sat isWord) = false := head_spaced_word segments
        have hbegin := t.begin?_marked (a := a) hrest
        obtain ⟨mark, hmark⟩ := a.exists_mark_eq_cons
        rw [hmark, List.cons_append, Line.ofChars_cons, List.cons_append] at hbegin
        rw [hpieces, hmark, List.cons_append, Line.ofChars_cons, List.cons_append, Emphasis.set_of_some hbegin, ih,
          Segment.pieces, if_pos List.mem_cons_self]
        simp only [List.cons_append, List.append_assoc, List.nil_append]
      · have hinfix := Segment.not_infix_pieces h (not_exists.mp hs)
        rw [← a.mark_emphasis] at hinfix
        obtain ⟨afterWord', hset⟩ := Emphasis.set_append hinfix (head_spaced_ne_mark segments) false
        have hpieces : s.pieces (a :: done) = s.pieces done := by
          cases s with
          | plain t => rfl
          | accented b t =>
              have hne : b ≠ a := fun heq => hs ⟨t, heq ▸ rfl⟩
              simp only [Segment.pieces, List.mem_cons, hne, false_or]
        rw [hset, ih, hpieces]

theorem Accent.set_line (ha : a ∉ done) (h : ∀ b, b ∈ done ∨ b = a ∨ a.Skips b) (t : PlainText)
    (segments : List Segment) :
    a.emphasis.set false (Line.ofChars t.text ++ spaced done segments) =
      Line.ofChars t.text ++ spaced (a :: done) segments := by
  have hinfix : ¬ Line.ofChars a.emphasis.mark <:+: Line.ofChars t.text := by
    rw [a.mark_emphasis]
    exact Accent.not_infix_of_not_mem t.not_mem_pieces
  obtain ⟨afterWord, hset⟩ := Emphasis.set_append hinfix (head_spaced_ne_mark segments) false
  rw [hset, Accent.set_spaced ha h]

end Rule

/-! ## All rules -/

/-- Every accent is set when all rules have been applied. -/
theorem setEmphases_spaced (t : PlainText) (segments : List Segment) :
    setEmphases (Line.ofChars t.text ++ spaced [] segments) =
      Line.ofChars t.text ++ spaced [.underscore, .star, .underscores, .stars, .tildes] segments := by
  have hset : ∀ (a : Accent) (done : List Accent), a ∉ done → (∀ b, b ∈ done ∨ b = a ∨ a.Skips b) →
      a.emphasis.set false (Line.ofChars t.text ++ spaced done segments) =
        Line.ofChars t.text ++ spaced (a :: done) segments :=
    fun a done ha h => Accent.set_line ha h t segments
  have hskips : ∀ {p : Accent → Prop}, (∀ a ∈ [Accent.tildes, .stars, .underscores, .star, .underscore], p a) →
      ∀ a, p a := fun h a => h a (by cases a <;> decide)
  simp only [setEmphases, Accent.emphases_eq, List.map_cons, List.map_nil, List.foldl_cons, List.foldl_nil]
  rw [hset .tildes _ (by decide) (hskips (by decide)), hset .stars _ (by decide) (hskips (by decide)),
    hset .underscores _ (by decide) (hskips (by decide)), hset .star _ (by decide) (hskips (by decide)),
    hset .underscore _ (by decide) (hskips (by decide))]

/-! ## The document of a line -/

theorem intercalate_singleton_cons {α : Type} (a : α) (part : List α) (parts : List (List α)) :
    List.intercalate [a] (part :: parts) = part ++ parts.flatMap (a :: ·) := by
  induction parts generalizing part with
  | nil => rw [List.intercalate_singleton, List.flatMap_nil, List.append_nil]
  | cons part' parts ih =>
      rw [List.intercalate_cons_cons, ih, List.flatMap_cons, List.append_assoc, List.singleton_append, List.cons_append]

/-- A line without a bracket has no chords. -/
theorem setChords_of_not_mem (db : Chord.Database) {l : Line} (h : .char '[' ∉ l) : setChords db l = l := by
  induction l with
  | nil => rw [setChords]
  | cons p l ih =>
      rw [List.mem_cons, not_or] at h
      have hnone : name? (p :: l) = none := by
        rw [name?_cons, if_neg fun hp => h.1 (Piece.eq_char_of_is hp).symm]
      rw [setChords_of_none hnone, ih h.2]

theorem Segment.not_mem_text (s : Segment) {c : Char} (hc : isLyricChar c = false) (hmarks : ∀ a : Accent, c ≠ a.char) :
    c ∉ s.text := by
  have hmark : ∀ a : Accent, c ∉ a.mark := fun a hmem => hmarks a (Accent.eq_char_of_mem_mark hmem)
  cases s with
  | plain t => exact t.isLyric_text.not_mem hc
  | accented a t => simp [text, hmark a, t.isLyric_text.not_mem hc]

/-- An accent becomes its element. -/
theorem Segment.print_pieces {done : List Accent} (h : ∀ a, a ∈ done) (s : Segment) :
    Token.print (Line.tokens (s.pieces done)) = s.html := by
  cases s with
  | plain t => exact t.isLyric_text.print_line
  | accented a t =>
      have hname : a.emphasis.element.name = a.elementName.toList := by cases a <;> rfl
      have hrole : (Tag.opening a.emphasis.element).attributes = [] := by cases a <;> rfl
      have htokens : Line.tokens ((Segment.accented a t).pieces done) =
          Token.element a.emphasis.element (Line.tokens (Line.ofChars t.text)) := by
        rw [pieces, if_pos (h a), Line.tokens_cons, Line.tokens_append]
        rfl
      rw [htokens, print_element_name hname hrole, t.isLyric_text.print_line, html]

theorem print_spaced {done : List Accent} (h : ∀ a, a ∈ done) (segments : List Segment) :
    Token.print (Line.tokens (spaced done segments)) = (segments.map Segment.html).flatMap (' ' :: ·) := by
  induction segments with
  | nil => rfl
  | cons s segments ih =>
      rw [spaced_cons, Line.tokens_cons, Line.tokens_append, print_append, print_append, s.print_pieces h, ih,
        List.map_cons, List.flatMap_cons]
      rfl

namespace AccentedLine

variable (l : AccentedLine)

/-- No segment holds what has a meaning beyond the accents. -/
theorem not_mem_text : ∀ c ∈ ['[', ']', '|', '\r', '\n', '`'], c ∉ l.text := by
  have hforeign : ∀ c ∈ ['[', ']', '|', '\r', '\n', '`'], isLyricChar c = false ∧ c ∉ [' ', '~', '*', '_'] := by
    simp [isLyricChar]
  intro c hc
  obtain ⟨hlyric, hother⟩ := hforeign c hc
  have hmarks : ∀ a : Accent, c ≠ a.char := by
    rintro a rfl
    exact hother (by cases a <;> decide)
  have hspace : c ≠ ' ' := fun heq => hother (heq ▸ List.mem_cons_self)
  refine not_mem_intercalate hspace (List.forall_mem_cons.mpr ⟨l.first.isLyric_text.not_mem hlyric, ?_⟩)
  exact List.forall_mem_map.mpr fun s _ => s.not_mem_text hlyric hmarks

theorem ofChars_text : Line.ofChars l.text = Line.ofChars l.first.text ++ spaced [] l.rest := by
  have hpieces : ∀ s : Segment, s.pieces [] = Line.ofChars s.text := by
    intro s
    cases s <;> rfl
  have hrest : Line.ofChars ((l.rest.map Segment.text).flatMap (' ' :: ·)) = spaced [] l.rest := by
    rw [spaced, Line.ofChars, List.map_flatMap, List.flatMap_map]
    simp only [hpieces]
    rfl
  rw [text, intercalate_singleton_cons, Line.ofChars_append, hrest]

theorem renderLine_text (db : Chord.Database) (n : Nat) :
    ∃ ts, renderLine db n (Line.ofChars l.text) = (ts, n) ∧
      Token.print ts = List.intercalate [' '] (l.first.text :: l.rest.map Segment.html) := by
  have hlinkless : Linkless (Line.ofChars l.text) := fun hinfix =>
    l.not_mem_text ']' (by decide) ((Line.infix_ofChars_iff.mp hinfix).subset List.mem_cons_self)
  have hset := setEmphases_spaced l.first l.rest
  have hchordless : .char '[' ∉ setEmphases (Line.ofChars l.text) := by
    intro hmem
    have hrewrites := rewrites_setEmphases (Line.ofChars l.text)
    rcases hrewrites.mem hmem with h | ⟨u, hu⟩
    · exact l.not_mem_text '[' (by decide) (char_mem_ofChars.mp h)
    · exact opaque_inlineMark u _ hu '[' rfl
  refine ⟨Line.tokens (setEmphases (Line.ofChars l.text)), ?_, ?_⟩
  · simp only [renderLine, setImages_of_linkless hlinkless, setLinks_of_linkless hlinkless,
      setChords_of_not_mem db hchordless]
  · have hall : ∀ a, a ∈ [Accent.underscore, .star, .underscores, .stars, .tildes] := by
      intro a
      cases a <;> decide
    rw [l.ofChars_text, hset, Line.tokens_append, print_append, l.first.isLyric_text.print_line, print_spaced hall,
      intercalate_singleton_cons]

end AccentedLine

/-- A line of plain and emphasised segments is a paragraph in which each segment is an element of its own, and nothing
else has changed. -/
theorem render_accentedLine (db : Chord.Database) (l : AccentedLine) :
    render db (String.ofList l.text) = String.ofList l.html := by
  have hcode : setCode l.text = ([.line (Line.ofChars l.text)], 0) := by
    have hchars : ∀ line ∈ [l.text], ∀ c ∈ ['\r', '\n', '`'], c ∉ line :=
      List.forall_mem_singleton.mpr fun c hc => l.not_mem_text c (List.mem_append_right ['[', ']', '|'] hc)
    have hlines := setCode_joinLines (List.cons_ne_nil _ _) hchars
    rwa [joinLines, List.intercalate_singleton, List.map_singleton] at hlines
  have hhead : l.text.head?.any isAsciiLetter = true := by
    have hletter := l.startsWithLetter
    obtain ⟨c, s, hc⟩ := List.exists_cons_of_ne_nil l.first.ne_nil
    rw [hc] at hletter
    rw [AccentedLine.text, intercalate_singleton_cons, hc]
    exact hletter
  have hblocks : readBlocks db [.line (Line.ofChars l.text)] = [.paragraph [Line.ofChars l.text]] := by
    rw [readBlocks, kind_letter hhead (l.not_mem_text '|' (by decide)), readBlocks]
    rfl
  obtain ⟨ts, hts, hprint⟩ := l.renderLine_text db 0
  have htokens : bodyTokens db l.text = Token.element .paragraph ts := by
    simp only [bodyTokens, hcode, hblocks, renderBlocks, renderBlock, renderParagraph, renderLines, hts, joinBreaks,
      List.intercalate_singleton]
  rw [render, String.toList_ofList, htokens, @print_element_name .paragraph "p" rfl rfl, hprint, AccentedLine.html]

/-- Marks of one character side by side, single and double, around texts with spaces. -/
example :
    (AccentedLine.html ⟨⟨"So".toList, by decide, by decide, by decide⟩,
      [.accented .star ⟨"it is".toList, by decide, by decide, by decide⟩,
        .accented .stars ⟨"so".toList, by decide, by decide, by decide⟩,
        .accented .star ⟨"it".toList, by decide, by decide, by decide⟩], by decide⟩) =
      "<p>So <em>it is</em> <strong>so</strong> <em>it</em></p>".toList := by
  decide

end LeadSheet.Markup
