import LeadSheet.Proofs.Markup.Raw.Restore
import LeadSheet.Proofs.Markup.Raw.Source
import LeadSheet.Proofs.Markup.Rewriting

/-!
# The rules inside a line on its text and on its pieces

Each rule on the source text of a line gives the source text of what the rule on pieces gives: nothing that
a rule looks for begins inside an entity, a tag or a placeholder (`Passes`), and what it takes in begins and
ends where pieces do.

* `Agree R t x r` : what `x` does on text, with the table `t`, and the result `r` on pieces or tokens agree:
  the table grows by as many spans as are counted, and the results are in relation;
* `renderLine_agree` : so a line is marked up alike on its text and on its pieces.
-/

namespace LeadSheet.Markup

open Text
open Raw (LiteralKind LiteralTable Marking)

/-! ## Agreement -/

/-- What `x` does with the table `t` agrees with `r`, a result and the number of the next literal. -/
structure Agree {α β : Type} (R : LiteralTable → α → β → Prop) (t : LiteralTable) (x : Marking α) (r : β × Nat) :
    Prop where
  grows : t ≤ (x t).2
  count : (x t).2.inlines.length = r.2
  result : R (x t).2 (x t).1 r.1

namespace Agree

variable {α β γ δ : Type} {R : LiteralTable → α → β → Prop} {R' : LiteralTable → γ → δ → Prop} {t : LiteralTable}

theorem pure {a : α} {b : β} (h : R t a b) : Agree R t (pure a) (b, t.inlines.length) :=
  ⟨LiteralTable.le_refl t, rfl, h⟩

theorem bind {x : Marking α} {f : α → Marking γ} {r : β × Nat} {r' : δ × Nat} (hx : Agree R t x r)
    (hf : Agree R' (x t).2 (f (x t).1) r') : Agree R' t (x >>= f) r' :=
  ⟨LiteralTable.le_trans hx.grows hf.grows, hf.count, hf.result⟩

theorem map {x : Marking α} {r : β × Nat} {f : α → γ} {b : δ} (hx : Agree R t x r)
    (h : R' (x t).2 (f (x t).1) b) : Agree R' t (do return f (← x)) (b, r.2) :=
  ⟨hx.grows, hx.count, h⟩

end Agree

/-! ## Passing over a piece -/

/-- The pattern finds nothing where a filler comes first, unless an image begins there. -/
def Passes {α : Type} (p : Pattern α) : Prop :=
  ∀ before s, (∀ c ∈ s.head?, isFiller c = true) → (∀ rest, s ≠ '!' :: '[' :: rest) → p.find? before s = none

theorem passes_of_mark {α : Type} {p : Pattern α} {c : Char} (hc : isFiller c = false)
    (h : ∀ before s, s.head? ≠ some c → p.find? before s = none) : Passes p := by
  intro before s hs _
  exact h before s fun hhead => by simp [hs c hhead] at hc

/-- Inside the source text of a piece, fillers come first, and no image begins. -/
theorem inner_source {t : LiteralTable} {p : Piece} (hp : p.Fits t) {u v : List Char} (h : p.source = u ++ v)
    (hu : u ≠ []) (hv : v ≠ []) (s : List Char) :
    (∀ c ∈ (v ++ s).head?, isFiller c = true) ∧ ∀ rest, v ++ s ≠ '!' :: '[' :: rest := by
  rcases source_cases p with ⟨c, -, -, hsource⟩ | ⟨first, middle, last, hsource, hfirst, hlast, hchar⟩
  · have hlength := congrArg List.length (hsource.symm.trans h)
    have := List.length_pos_iff.mpr hu
    have := List.length_pos_iff.mpr hv
    simp only [List.length_append, List.length_singleton] at hlength
    omega
  · have hfiller : ∀ c ∈ p.source, isFiller c = true := by
      intro c hc
      rcases mem_source hp hc with rfl | hfiller
      · rcases hchar c rfl with rfl | rfl | rfl <;> decide
      · exact hfiller
    obtain ⟨d, v, rfl⟩ := List.exists_cons_of_ne_nil hv
    refine ⟨?_, fun rest heq => ?_⟩
    · rintro c hc
      rw [List.cons_append, List.head?_cons, Option.mem_some_iff] at hc
      exact hc ▸ hfiller d (h ▸ List.mem_append_right u List.mem_cons_self)
    · obtain ⟨hd, hrest⟩ := List.cons.inj heq
      cases v with
      | nil =>
          have hend := hsource.symm.trans h
          rw [← List.cons_append] at hend
          have hlast' := (List.append_inj' hend rfl).2
          rcases hlast with rfl | rfl
          · exact absurd (hd ▸ hlast') (by decide)
          · exact absurd (hd ▸ hlast') (by decide)
      | cons e v =>
          have he := hfiller e (h ▸ List.mem_append_right u (List.mem_cons_of_mem d List.mem_cons_self))
          rw [(List.cons.inj hrest).1] at he
          exact absurd he (by decide)

/-- A piece where nothing begins that the pattern finds is passed over. -/
theorem sub_piece {α : Type} {m : Type → Type} [Monad m] [LawfulMonad m] {p : Pattern α} {put : α → m (List Char)}
    {t : LiteralTable} {piece : Piece} {before : Option Char} {s : List Char} (hp : Passes p)
    (hpiece : piece.Fits t) (h : p.find? before (piece.source ++ s) = none) :
    p.sub put before (piece.source ++ s) =
      do return piece.source ++ (← p.sub put piece.source.getLast? s) := by
  obtain ⟨last, hlast⟩ : ∃ last, piece.source.getLast? = some last :=
    Option.isSome_iff_exists.mp (by simpa using source_ne_nil piece)
  rw [Pattern.sub_append, hlast, Option.some_or]
  intro u v huv hv
  cases u with
  | nil =>
      rw [List.nil_append] at huv
      rwa [← huv]
  | cons c u =>
      obtain ⟨hfiller, himage⟩ := inner_source hpiece huv (List.cons_ne_nil c u) hv s
      exact hp _ _ hfiller himage

/-! ## Images and links -/

theorem Line.Fits.mono {t t' : LiteralTable} (ht : t ≤ t') {l : Line} (hl : l.Fits t) : l.Fits t' := by
  intro p hp
  cases p with
  | char c => exact hl _ hp
  | tag inner => exact hl _ hp
  | literal n content => exact LiteralTable.getElem?_of_le ht .inline (hl _ hp)

/-- A reader that goes on at the characters of entities goes on over an escaped character. -/
theorem escapeChar_goes {q : Char → Bool} {c : Char}
    (hq : ['&', 'a', 'm', 'p', 'l', 't', 'g', ';'].all q = true) (hc : isPlain c = true → q c = true) :
    ∀ d ∈ escapeChar c, q d = true := by
  intro d hd
  cases hplain : isPlain c with
  | true =>
      rw [escapeChar_of_isPlain hplain, List.mem_singleton] at hd
      exact hd ▸ hc hplain
  | false =>
      have hentity : escapeChar c ⊆ ['&', 'a', 'm', 'p', 'l', 't', 'g', ';'] := by
        rcases eq_of_not_isPlain hplain with rfl | rfl | rfl <;> decide
      exact List.all_eq_true.mp hq d (hentity hd)

theorem escape_eq_nil {s : List Char} : escape s = [] ↔ s = [] := by
  rw [← Line.source_ofChars, Line.source_eq_nil, Line.ofChars, List.map_eq_nil_iff]

section Readers

variable {t : LiteralTable} {l : Line} (hl : l.Fits t)

include hl

theorem fits_of_dropMark? {mark : List Char} {rest : Line} (h : Line.dropMark? mark l = some rest) : rest.Fits t := by
  rw [Line.dropMark?_eq_some h] at hl
  exact hl.subset (List.subset_append_right _ _)

theorem address?_source : Raw.address? (Line.source l) = (address? l).map (Prod.map escape Line.source) := by
  rw [Raw.address?, dropMark?_source (by decide), address?_eq]
  cases hopen : Line.dropMark? ['('] l with
  | none => rfl
  | some rest =>
      have hgo : ∀ c, c ≠ '\n' → (c != ')' && !isSpace c) = true → ∀ d ∈ escapeChar c, Raw.isAddressChar d = true := by
        intro c _ hc
        refine escapeChar_goes (by decide) fun hplain => ?_
        simp only [isPlain, Bool.and_eq_true] at hplain
        rw [Raw.isAddressChar, hc, hplain.1.1]
        rfl
      have hstop : ∀ c, (c != ')' && !isSpace c) = false → (escapeChar c).head?.any Raw.isAddressChar = false := by
        intro c hc
        have hplain : isPlain c = true := isPlain_of_class (p := fun c => !(c != ')' && !isSpace c)) (by decide) (by simp [hc])
        rw [escapeChar_of_isPlain hplain, List.head?_cons, Option.any_some, Raw.isAddressChar, hc, Bool.false_and]
      obtain ⟨htake, hdrop⟩ := spanChars_source (by decide) hgo hstop (fits_of_dropMark? hl hopen)
      rw [Option.map_some, Option.bind_some, Option.bind_some, htake, hdrop, dropMark?_source (by decide)]
      simp only [escape_eq_nil]
      split
      · rfl
      · cases Line.dropMark? [')'] (Line.spanChars (fun c => c != ')' && !isSpace c) rest).2 with
        | none => rfl
        | some after => rfl

theorem find?_image (before : Option Char) : Raw.image.find? before (Line.source l) =
    (image? l).map fun (description, address, after) => ((escape description, escape address), Line.source after) := by
  have hfind : Raw.image.find? before (Line.source l) = Raw.image? (Line.source l) := rfl
  rw [hfind, Raw.image?, dropMark?_source (by decide), image?_eq]
  cases hopen : Line.dropMark? ['!', '['] l with
  | none => rfl
  | some rest =>
      have hgo : ∀ c, c ≠ '\n' → (c != ']') = true → ∀ d ∈ escapeChar c, Raw.isDescriptionChar d = true := by
        intro c hline hc
        refine escapeChar_goes (by decide) fun hplain => ?_
        simp only [isPlain, Bool.and_eq_true] at hplain
        rw [Raw.isDescriptionChar, hc, hplain.1.1, bne_iff_ne.mpr hline]
        rfl
      have hstop : ∀ c, (c != ']') = false → (escapeChar c).head?.any Raw.isDescriptionChar = false := by
        intro c hc
        rw [bne_eq_false_iff_eq.mp hc]
        decide
      have hrest := fits_of_dropMark? hl hopen
      obtain ⟨htake, hdrop⟩ := spanChars_source (by decide) hgo hstop hrest
      rw [Option.map_some, Option.bind_some, Option.bind_some, htake, hdrop, dropMark?_source (by decide)]
      cases hclose : Line.dropMark? [']'] (Line.spanChars (· != ']') rest).2 with
      | none => simp [hclose]
      | some more =>
          have hmore : more.Fits t := by
            refine fits_of_dropMark? ?_ hclose
            rw [Line.spanChars_eq (· != ']') rest] at hrest
            exact hrest.subset (List.subset_append_right _ _)
          simp only [hclose, Option.map_some, Option.bind_some, address?_source hmore]
          cases address? more with
          | none => rfl
          | some found => rfl

theorem bracketed?_source : Raw.bracketed? (Line.source l) = (bracketed? l).map (Prod.map Line.source Line.source) := by
  have hreads : ∀ p ∈ l, ReadsAlike (!Piece.is ']' ·) Raw.isLabelChar p := fun p hp =>
    readsAlike_until (by decide) (by decide) (fun d hd hline => by simp [Raw.isLabelChar, hd, hline]) (hl p hp)
  obtain ⟨htake, hdrop⟩ := takeWhile_source hreads
  rw [Raw.bracketed?, htake, hdrop, dropMark?_source (by decide), bracketed?_eq]
  simp only [Line.source_eq_nil]
  split
  · rfl
  · cases Line.dropMark? [']'] (l.dropWhile (!Piece.is ']' ·)) with
    | none => rfl
    | some after => rfl

theorem find?_link (before : Option Char) : Raw.link.find? before (Line.source l) =
    (link? l).map fun (label, address, after) => ((Line.source label, escape address), Line.source after) := by
  have hfind : Raw.link.find? before (Line.source l) = Raw.link? (Line.source l) := rfl
  rw [hfind, Raw.link?, dropMark?_source (by decide), link?_eq]
  cases hopen : Line.dropMark? ['['] l with
  | none => rfl
  | some rest =>
      have hrest := fits_of_dropMark? hl hopen
      rw [Option.map_some, Option.bind_some, Option.bind_some, bracketed?_source hrest]
      cases hlabel : bracketed? rest with
      | none => rfl
      | some found =>
          have hmore : found.2.Fits t := by
            rw [(bracketed?_eq_some hlabel).1] at hrest
            exact hrest.subset fun p hp => List.mem_append_right _ (List.mem_cons_of_mem _ hp)
          rw [Option.map_some, Option.bind_some, Option.bind_some]
          simp only [Prod.map, address?_source hmore]
          cases address? found.2 with
          | none => rfl
          | some found => rfl

theorem find?_chord (before : Option Char) : Raw.chord.find? before (Line.source l) =
    (name? l).map (Prod.map Line.source Line.source) := by
  have hfind : Raw.chord.find? before (Line.source l) = Raw.chord? (Line.source l) := rfl
  rw [hfind, Raw.chord?, dropMark?_source (by decide), name?]
  cases hopen : Line.dropMark? ['['] l with
  | none => rfl
  | some rest => exact bracketed?_source (fits_of_dropMark? hl hopen)

end Readers

/-! ## Literals -/

theorem escapeQuotes_escape (s : List Char) : Raw.escapeQuotes (escape s) = escapeAttribute s := by
  have hchar : ∀ c, Raw.escapeQuotes (escapeChar c) = escapeAttributeChar c := by
    intro c
    by_cases hquote : c = '"'
    · rw [hquote]
      decide
    · rw [escapeAttributeChar, if_neg hquote]
      cases hplain : isPlain c with
      | true => simp [escapeChar_of_isPlain hplain, Raw.escapeQuotes, hquote]
      | false => rcases eq_of_not_isPlain hplain with rfl | rfl | rfl <;> decide
  rw [Raw.escapeQuotes, escape, List.flatMap_assoc]
  exact List.flatMap_congr fun c _ => hchar c

theorem print_image (address description : List Char) :
    Token.print [.tag (.image address description)] = "<img src=\"".toList ++ (escapeAttribute address ++
      ("\" alt=\"".toList ++ (escapeAttribute description ++ "\">".toList))) := by
  have hname : (Tag.image address description).name = "img".toList := rfl
  have hattributes : (Tag.image address description).attributes = [("src", address), ("alt", description)] := rfl
  simp [Token.print, Token.text, Tag.text, hname, hattributes, attributeText]

theorem print_anchor (address : List Char) :
    Token.print [.tag (.opening (.anchor address))] =
      "<a href=\"".toList ++ (escapeAttribute address ++ "\">".toList) := by
  have hname : (Tag.opening (.anchor address)).name = "a".toList := rfl
  have hattributes : (Tag.opening (.anchor address)).attributes = [("href", address)] := rfl
  simp [Token.print, Token.text, Tag.text, hname, hattributes, attributeText]

/-- A line as text and as pieces. -/
def SourceOf (t : LiteralTable) (s : List Char) (l : Line) : Prop := s = Line.source l ∧ l.Fits t

theorem SourceOf.append {t : LiteralTable} {s s' : List Char} {l l' : Line} (h : SourceOf t s l)
    (h' : SourceOf t s' l') : SourceOf t (s ++ s') (l ++ l') :=
  ⟨by rw [h.1, h'.1, Line.source_append], fun p hp => (List.mem_append.mp hp).elim (h.2 p) (h'.2 p)⟩

theorem SourceOf.mono {t t' : LiteralTable} (ht : t ≤ t') {s : List Char} {l : Line} (h : SourceOf t s l) :
    SourceOf t' s l := ⟨h.1, Line.Fits.mono ht h.2⟩

theorem SourceOf.of_fits {t : LiteralTable} {l : Line} (h : l.Fits t) : SourceOf t (Line.source l) l := ⟨rfl, h⟩

theorem add_agree (t : LiteralTable) (content : List Token) :
    Agree SourceOf t (LiteralTable.add .inline (Token.print content))
      ([.literal t.inlines.length content], t.inlines.length + 1) where
  grows := ⟨List.prefix_rfl, List.prefix_append _ _⟩
  count := by simp [LiteralTable.add]
  result := by
    refine ⟨?_, fun p hp => ?_⟩
    · rw [Line.source_cons, Line.source_nil, List.append_nil, Piece.source_literal]
      simp [LiteralTable.add, Raw.Placeholder.text, Raw.LiteralKind.name]
    · rw [List.mem_singleton.mp hp]
      exact List.getElem?_concat_length

theorem putImage_agree (t : LiteralTable) (address description : List Char) :
    Agree SourceOf t (Raw.putImage (escape description, escape address))
      ([.literal t.inlines.length [.tag (.image address description)]], t.inlines.length + 1) := by
  have hadd := add_agree t [.tag (.image address description)]
  rwa [print_image, ← escapeQuotes_escape, ← escapeQuotes_escape] at hadd

theorem putLink_agree {t : LiteralTable} {label : Line} (hlabel : label.Fits t) (address : List Char) :
    Agree SourceOf t (Raw.putLink (Line.source label, escape address))
      ([.literal t.inlines.length [.tag (.opening (.anchor address))]] ++
        (label ++ [.tag (.closing (.anchor address))]), t.inlines.length + 1) := by
  have hadd := add_agree t [.tag (.opening (.anchor address))]
  rw [print_anchor, ← escapeQuotes_escape] at hadd
  have hname : (Tag.closing (.anchor address)).name = '/' :: "a".toList := rfl
  have hend : SourceOf t "</a>".toList [.tag (.closing (.anchor address))] := by
    refine ⟨?_, fun p hp => ?_⟩
    · rw [Line.source_cons, Piece.source_tag, Line.source_nil, List.append_nil]
      simp [Tag.text, hname, Tag.attributes]
    · rw [List.mem_singleton.mp hp]
      exact .linkEnd address
  exact hadd.map (hadd.result.append (((SourceOf.of_fits hlabel).append hend).mono hadd.grows))

/-! ## Images and links on text -/

theorem passes_image : Passes Raw.image := by
  intro before s _ himage
  have hfind : Raw.image.find? before s = Raw.image? s := rfl
  have hmark : Text.dropMark? ['!', '['] s = none := by
    cases s with
    | nil => rfl
    | cons c s =>
        rw [Text.dropMark?]
        split
        · rename_i hc
          refine dropMark?_of_head fun hs => ?_
          obtain ⟨rest, hrest⟩ := List.head?_eq_some_iff.mp hs
          exact himage rest (by rw [← hc, hrest])
        · rfl
  rw [hfind, Raw.image?, hmark]
  rfl

theorem passes_link : Passes Raw.link := by
  refine passes_of_mark (c := '[') (by decide) fun before s hs => ?_
  have hfind : Raw.link.find? before s = Raw.link? s := rfl
  rw [hfind, Raw.link?, dropMark?_of_head hs]
  rfl

theorem passes_chord : Passes Raw.chord := by
  refine passes_of_mark (c := '[') (by decide) fun before s hs => ?_
  have hfind : Raw.chord.find? before s = Raw.chord? s := rfl
  rw [hfind, Raw.chord?, dropMark?_of_head hs]
  rfl

/-- A piece that a rule leaves as it is. -/
theorem Agree.cons_piece {t : LiteralTable} {piece : Piece} (hpiece : piece.Fits t) {x : Marking (List Char)}
    {r : Line × Nat} (h : Agree SourceOf t x r) :
    Agree SourceOf t (do return piece.source ++ (← x)) (piece :: r.1, r.2) := by
  have hhead : SourceOf t piece.source [piece] :=
    ⟨by simp, fun p hp => List.mem_singleton.mp hp ▸ hpiece⟩
  exact h.map ((hhead.mono h.grows).append h.result)

theorem sub_image {t : LiteralTable} {l : Line} (hl : l.Fits t) (before : Option Char) :
    Agree SourceOf t (Raw.image.sub Raw.putImage before (Line.source l)) (setImages t.inlines.length l) := by
  generalize hn : t.inlines.length = n
  fun_induction setImages n l generalizing t before with
  | case1 n =>
      rw [Line.source_nil, Pattern.sub_nil, ← hn]
      exact .pure ⟨rfl, hl⟩
  | case2 n piece rest description address after h _ pieces m heq ih =>
      have hfind := find?_image hl before
      rw [h, Option.map_some] at hfind
      have hput := putImage_agree t address description
      have hafter : after.Fits t := by
        rw [image?_eq_some h] at hl
        exact hl.subset (List.subset_append_right _ _)
      have hrest := ih (hafter.mono hput.grows) (Pattern.lastBefore (Line.source (piece :: rest)) (Line.source after))
        (by rw [hput.count, hn])
      rw [heq] at hrest
      rw [Pattern.sub_of_some hfind]
      exact hput.bind (hrest.map (hn ▸ (hput.result.mono hrest.grows).append hrest.result))
  | case3 n piece rest h pieces m heq ih =>
      obtain ⟨hpiece, hrest⟩ := List.forall_mem_cons.mp hl
      have hfind := find?_image hl before
      rw [h, Option.map_none, Line.source_cons] at hfind
      have hagree := ih hrest piece.source.getLast? hn
      rw [heq] at hagree
      rw [Line.source_cons, sub_piece (t := t) passes_image hpiece hfind]
      exact hagree.cons_piece hpiece

theorem sub_link {t : LiteralTable} {l : Line} (hl : l.Fits t) (before : Option Char) :
    Agree SourceOf t (Raw.link.sub Raw.putLink before (Line.source l)) (setLinks t.inlines.length l) := by
  generalize hn : t.inlines.length = n
  fun_induction setLinks n l generalizing t before with
  | case1 n =>
      rw [Line.source_nil, Pattern.sub_nil, ← hn]
      exact .pure ⟨rfl, hl⟩
  | case2 n piece rest label address after h _ pieces m heq ih =>
      have hfind := find?_link hl before
      rw [h, Option.map_some] at hfind
      rw [link?_eq_some h] at hl
      have hlabel : label.Fits t := hl.subset fun p hp => by simp [hp]
      have hafter : after.Fits t := hl.subset fun p hp => by simp [hp]
      have hput := putLink_agree hlabel address
      have hrest := ih (hafter.mono hput.grows) (Pattern.lastBefore (Line.source (piece :: rest)) (Line.source after))
        (by rw [hput.count, hn])
      rw [heq] at hrest
      have hpieces : Piece.literal n [.tag (.opening (.anchor address))] :: label ++
            .tag (.closing (.anchor address)) :: pieces =
          [.literal n [.tag (.opening (.anchor address))]] ++ (label ++ [.tag (.closing (.anchor address))]) ++
            pieces := by simp
      rw [Pattern.sub_of_some hfind, hpieces, ← hn]
      exact hput.bind (hrest.map ((hput.result.mono hrest.grows).append hrest.result))
  | case3 n piece rest h pieces m heq ih =>
      obtain ⟨hpiece, hrest⟩ := List.forall_mem_cons.mp hl
      have hfind := find?_link hl before
      rw [h, Option.map_none, Line.source_cons] at hfind
      have hagree := ih hrest piece.source.getLast? hn
      rw [heq] at hagree
      rw [Line.source_cons, sub_piece passes_link hpiece hfind]
      exact hagree.cons_piece hpiece

end LeadSheet.Markup
