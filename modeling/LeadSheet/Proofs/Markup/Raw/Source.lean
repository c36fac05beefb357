import LeadSheet.Markup.Raw.Body
import LeadSheet.Proofs.Escape
import LeadSheet.Proofs.Markup.Readers
import LeadSheet.Proofs.Scan
import Mathlib.Data.List.Induction

/-!
# The source text of a line

A rule on text sees the source of a line: entities, tags and placeholders character by character. It reads
the text as a rule on pieces reads the line, because none of these three is ever cut in two.

* `Piece.Fits t p` : `p` is what a line holds while it is marked up: a character, one of the tags that the
  rules inside a line set, or a literal that the table `t` holds under its number;
* `isFiller` : the characters that entities, these tags and placeholders are made of;
* `Ordinary q` : `q` holds of no character at either end of one of them;
* `ReadsAlike P q p` : a reader of pieces that goes on at `P` and a reader of text that goes on at `q` treat the
  piece alike, from either side.
-/

namespace LeadSheet.Markup

open Text

/-! ## Pieces -/

/-- The tags that the rules inside a line set. -/
inductive IsInner : Tag → Prop
  | linkEnd (address : List Char) : IsInner (.closing (.anchor address))
  | opening {e : Emphasis} (he : e ∈ emphases) : IsInner (.opening e.element)
  | closing {e : Emphasis} (he : e ∈ emphases) : IsInner (.closing e.element)

def Piece.Fits (t : Raw.LiteralTable) : Piece → Prop
  | .char c => c ≠ '\n'
  | .tag inner => IsInner inner
  | .literal n content => t.inlines[n]? = some (Token.print content)

def Line.Fits (t : Raw.LiteralTable) (l : Line) : Prop := ∀ p ∈ l, p.Fits t

theorem Line.Fits.subset {t : Raw.LiteralTable} {l l' : Line} (h : l.Fits t) (hsub : l' ⊆ l) : l'.Fits t :=
  fun p hp => h p (hsub hp)

/-- The characters that entities, inner tags and placeholders are made of. -/
def isFiller (c : Char) : Bool :=
  ('a' ≤ c && c ≤ 'z') || c.isDigit || ['<', '>', '/', '!', '-', ':', '&', ';'].contains c

theorem isFiller_inner {tag : Tag} (h : IsInner tag) : ∀ c ∈ tag.text, isFiller c = true := by
  cases h with
  | linkEnd address =>
      have hname : (Tag.closing (.anchor address)).name = '/' :: "a".toList := rfl
      have htext : (Tag.closing (.anchor address)).text = ['<', '/', 'a', '>'] := by
        simp [Tag.text, hname, Tag.attributes]
      rw [htext]
      exact List.all_eq_true.mp (by decide)
  | opening he =>
      have hall : ((emphases.map Emphasis.element).all fun e => (Tag.opening e).text.all isFiller) = true := by
        decide +kernel
      exact List.all_eq_true.mp (List.all_eq_true.mp hall _ (List.mem_map_of_mem he))
  | closing he =>
      have hall : ((emphases.map Emphasis.element).all fun e => (Tag.closing e).text.all isFiller) = true := by
        decide +kernel
      exact List.all_eq_true.mp (List.all_eq_true.mp hall _ (List.mem_map_of_mem he))

theorem Piece.source_char (c : Char) : (Piece.char c).source = escapeChar c := rfl

theorem Piece.source_tag (inner : Tag) : (Piece.tag inner).source = inner.text := rfl

theorem Piece.source_literal (n : Nat) (content : List Token) :
    (Piece.literal n content).source =
      ['<', '!', '-', '-', 'i', 'n', 'l', 'i', 'n', 'e', ':'] ++ (Nat.toDigits 10 n ++ ['-', '-', '>']) := by
  have hsource : (Piece.literal n content).source = "<!--inline:".toList ++ Nat.toDigits 10 n ++ "-->".toList := rfl
  simp [hsource]

theorem mem_source {t : Raw.LiteralTable} {p : Piece} (hp : p.Fits t) {c : Char} (hc : c ∈ p.source) :
    p = .char c ∨ isFiller c = true := by
  cases p with
  | char d =>
      rw [Piece.source_char, escapeChar] at hc
      split at hc
      · exact Or.inr (List.all_eq_true.mp (by decide : ['&', 'a', 'm', 'p', ';'].all isFiller = true) c hc)
      · split at hc
        · exact Or.inr (List.all_eq_true.mp (by decide : ['&', 'l', 't', ';'].all isFiller = true) c hc)
        · split at hc
          · exact Or.inr (List.all_eq_true.mp (by decide : ['&', 'g', 't', ';'].all isFiller = true) c hc)
          · exact Or.inl (by rw [List.mem_singleton.mp hc])
  | tag inner => exact Or.inr (isFiller_inner hp c hc)
  | literal n content =>
      right
      rw [Piece.source_literal] at hc
      rcases List.mem_append.mp hc with hc | hc
      · exact List.all_eq_true.mp (by decide : ['<', '!', '-', '-', 'i', 'n', 'l', 'i', 'n', 'e', ':'].all isFiller = true) c hc
      · rcases List.mem_append.mp hc with hc | hc
        · simp [isFiller, Nat.isDigit_of_mem_toDigits (by decide) (by decide) hc]
        · exact List.all_eq_true.mp (by decide : ['-', '-', '>'].all isFiller = true) c hc

/-! ## Ends of pieces -/

/-- The class holds no character that an entity, a tag or a placeholder begins or ends with. -/
def Ordinary (q : Char → Bool) : Prop := q '&' = false ∧ q '<' = false ∧ q '>' = false ∧ q ';' = false

instance (q : Char → Bool) : Decidable (Ordinary q) := inferInstanceAs (Decidable (_ ∧ _))

/-- A piece is a plain character, or its source text is delimited and no class of ordinary characters
knows it. -/
theorem source_cases (p : Piece) :
    (∃ c, p = .char c ∧ isPlain c = true ∧ p.source = [c]) ∨
      ∃ first middle last, p.source = first :: (middle ++ [last]) ∧ (first = '&' ∨ first = '<') ∧
        (last = ';' ∨ last = '>') ∧ ∀ c, p = .char c → c = '&' ∨ c = '<' ∨ c = '>' := by
  cases p with
  | char c =>
      cases hplain : isPlain c with
      | true => exact Or.inl ⟨c, rfl, hplain, escapeChar_of_isPlain hplain⟩
      | false =>
          rcases eq_of_not_isPlain hplain with rfl | rfl | rfl
          · exact Or.inr ⟨'&', ['l', 't'], ';', rfl, by simp, by simp, by simp⟩
          · exact Or.inr ⟨'&', ['g', 't'], ';', rfl, by simp, by simp, by simp⟩
          · exact Or.inr ⟨'&', ['a', 'm', 'p'], ';', rfl, by simp, by simp, by simp⟩
  | tag inner =>
      refine Or.inr ⟨'<', inner.name ++ inner.attributes.flatMap fun a => attributeText a.1 a.2, '>', ?_, by simp,
        by simp, by simp⟩
      simp [Piece.source_tag, Tag.text]
  | literal n content =>
      refine Or.inr ⟨'<', ['!', '-', '-', 'i', 'n', 'l', 'i', 'n', 'e', ':'] ++ (Nat.toDigits 10 n ++ ['-', '-']), '>',
        ?_, by simp, by simp, by simp⟩
      simp [Piece.source_literal]

theorem head?_append {s : List Char} (hs : s ≠ []) (t : List Char) : (s ++ t).head? = s.head? := by
  obtain ⟨c, s, rfl⟩ := List.exists_cons_of_ne_nil hs
  rfl

theorem source_ne_nil (p : Piece) : p.source ≠ [] := by
  rcases source_cases p with ⟨c, -, -, hsource⟩ | ⟨first, middle, last, hsource, -⟩
  · rw [hsource]
    exact List.cons_ne_nil c []
  · rw [hsource]
    exact List.cons_ne_nil first _

/-- A reader of pieces and a reader of text treat the piece alike, from either side. -/
def ReadsAlike (P : Piece → Bool) (q : Char → Bool) (p : Piece) : Prop :=
  (P p = true ∧ ∀ c ∈ p.source, q c = true) ∨
    (P p = false ∧ p.source.head?.any q = false ∧ p.source.getLast?.any q = false)

theorem readsAlike_sat {q : Char → Bool} (hq : Ordinary q) (p : Piece) : ReadsAlike (Piece.sat q) q p := by
  obtain ⟨hand, hopen, hclose, hend⟩ := hq
  rcases source_cases p with ⟨c, rfl, -, hsource⟩ | ⟨first, middle, last, hsource, hfirst, hlast, hchar⟩
  · rw [ReadsAlike, hsource]
    cases hc : q c with
    | true => exact Or.inl ⟨hc, by simp [hc]⟩
    | false => exact Or.inr ⟨hc, by simp [hc], by simp [hc]⟩
  · right
    rw [hsource]
    refine ⟨?_, ?_, ?_⟩
    · cases p with
      | char c => rcases hchar c rfl with rfl | rfl | rfl <;> assumption
      | tag inner => rfl
      | literal n content => rfl
    · rcases hfirst with rfl | rfl <;> assumption
    · rw [← List.cons_append, List.getLast?_concat]
      rcases hlast with rfl | rfl <;> assumption

/-- A reader that goes on up to a mark, which is no filler, reads on over every other piece. -/
theorem readsAlike_until {t : Raw.LiteralTable} {c : Char} {q : Char → Bool} (hc : isFiller c = false)
    (hstop : q c = false) (hgo : ∀ d, d ≠ c → d ≠ '\n' → q d = true) {p : Piece} (hp : p.Fits t) :
    ReadsAlike (!Piece.is c ·) q p := by
  by_cases hpc : p = .char c
  · have hsource : p.source = [c] := by
      rw [hpc, Piece.source_char, escapeChar_of_isPlain]
      rw [isPlain]
      simp only [Bool.and_eq_true, bne_iff_ne]
      refine ⟨⟨?_, ?_⟩, ?_⟩ <;> (rintro rfl; exact absurd hc (by decide))
    exact Or.inr ⟨by simp [hpc, Piece.is, Piece.sat], by simp [hsource, hstop], by simp [hsource, hstop]⟩
  · refine Or.inl ⟨?_, fun d hd => ?_⟩
    · cases his : p.is c with
      | true => exact absurd (Piece.eq_char_of_is his) hpc
      | false => simp [his]
    · rcases mem_source hp hd with rfl | hfiller
      · exact hgo d (fun h => hpc (by rw [h])) hp
      · refine hgo d ?_ ?_
        · rintro rfl
          simp [hfiller] at hc
        · rintro rfl
          exact absurd hfiller (by decide)

/-! ## Readers -/

namespace Line

@[simp] theorem source_nil : source [] = [] := rfl

@[simp] theorem source_cons (p : Piece) (l : Line) : source (p :: l) = p.source ++ source l := rfl

@[simp] theorem source_append (l l' : Line) : source (l ++ l') = source l ++ source l' := List.flatMap_append

theorem source_ofChars (s : List Char) : source (ofChars s) = escape s := by
  rw [source, ofChars, List.flatMap_map]
  rfl

@[simp] theorem source_eq_nil {l : Line} : source l = [] ↔ l = [] := by
  cases l with
  | nil => simp
  | cons p l => simp [source_ne_nil p]

end Line

section ReadsAlike

variable {P : Piece → Bool} {q : Char → Bool} {l : Line} (h : ∀ p ∈ l, ReadsAlike P q p)

include h

theorem takeWhile_source : (Line.source l).takeWhile q = Line.source (l.takeWhile P) ∧
    (Line.source l).dropWhile q = Line.source (l.dropWhile P) := by
  induction l with
  | nil => exact ⟨rfl, rfl⟩
  | cons p l ih =>
      obtain ⟨hp, hl⟩ := List.forall_mem_cons.mp h
      obtain ⟨htake, hdrop⟩ := ih hl
      rw [Line.source_cons, List.takeWhile_cons, List.dropWhile_cons]
      rcases hp with ⟨hP, hq⟩ | ⟨hP, hhead, -⟩
      · rw [if_pos hP, if_pos hP, List.takeWhile_append_of_pos hq, List.dropWhile_append_of_pos hq, htake, hdrop,
          Line.source_cons]
        exact ⟨rfl, rfl⟩
      · have hstop : (p.source ++ Line.source l).head?.any q = false := by
          rwa [head?_append (source_ne_nil p)]
        rw [hP, takeWhile_of_head hstop, dropWhile_of_head hstop]
        exact ⟨rfl, rfl⟩

theorem dropEndWhile_source : dropEndWhile q (Line.source l) = Line.source (dropEndWhile P l) ∧
    ((Line.source l).reverse.takeWhile q).reverse = Line.source (l.reverse.takeWhile P).reverse := by
  induction l using List.reverseRecOn with
  | nil => exact ⟨rfl, rfl⟩
  | append_singleton l p ih =>
      obtain ⟨htrim, htake⟩ := ih fun p' hp' => h p' (List.mem_append_left _ hp')
      have hsource : Line.source (l ++ [p]) = Line.source l ++ p.source := by simp
      rw [hsource, dropEndWhile, dropEndWhile, List.reverse_append, List.reverse_append, List.reverse_singleton,
        List.singleton_append, List.takeWhile_cons, List.dropWhile_cons]
      rcases h p (by simp) with ⟨hP, hq⟩ | ⟨hP, -, hlast⟩
      · have hq' : ∀ c ∈ p.source.reverse, q c = true := fun c hc => hq c (List.mem_reverse.mp hc)
        rw [if_pos hP, if_pos hP, List.takeWhile_append_of_pos hq', List.dropWhile_append_of_pos hq',
          List.reverse_append, List.reverse_reverse, List.reverse_cons, Line.source_append, ← htake]
        exact ⟨htrim, by simp⟩
      · have hstop : (p.source.reverse ++ (Line.source l).reverse).head?.any q = false := by
          rwa [head?_append (by simpa using source_ne_nil p), List.head?_reverse]
        rw [hP, takeWhile_of_head hstop, dropWhile_of_head hstop]
        simp

theorem all_source : (Line.source l).all q = l.all P := by
  induction l with
  | nil => rfl
  | cons p l ih =>
      obtain ⟨hp, hl⟩ := List.forall_mem_cons.mp h
      rw [Line.source_cons, List.all_append, List.all_cons, ih hl]
      rcases hp with ⟨hP, hq⟩ | ⟨hP, hhead, -⟩
      · rw [hP, List.all_eq_true.mpr hq]
      · obtain ⟨c, s, hsource⟩ := List.exists_cons_of_ne_nil (source_ne_nil p)
        rw [hsource] at hhead
        rw [hP, hsource, List.all_cons, show q c = false from hhead, Bool.false_and]

theorem head?_any_source : (Line.source l).head?.any q = l.head?.any P := by
  cases l with
  | nil => rfl
  | cons p l =>
      obtain ⟨hp, -⟩ := List.forall_mem_cons.mp h
      rw [Line.source_cons, head?_append (source_ne_nil p)]
      rcases hp with ⟨hP, hq⟩ | ⟨hP, hhead, -⟩
      · obtain ⟨c, s, hsource⟩ := List.exists_cons_of_ne_nil (source_ne_nil p)
        rw [hsource]
        exact (hq c (hsource ▸ List.mem_cons_self)).trans hP.symm
      · exact hhead.trans hP.symm

end ReadsAlike

/-- A mark at the head of a text is a mark at the head of the line. -/
theorem dropMark?_source {mark : List Char} (hmark : mark.all isPlain = true) (l : Line) :
    Text.dropMark? mark (Line.source l) = (Line.dropMark? mark l).map Line.source := by
  induction mark generalizing l with
  | nil => rfl
  | cons c mark ih =>
      obtain ⟨hc, hmark⟩ := Bool.and_eq_true_iff.mp hmark
      cases l with
      | nil => rfl
      | cons p l =>
          rw [Line.source_cons]
          rcases source_cases p with ⟨d, rfl, -, hsource⟩ | ⟨first, middle, last, hsource, hfirst, -, hchar⟩
          · rw [hsource, List.singleton_append, Text.dropMark?, Line.dropMark?]
            split
            · exact ih hmark l
            · rfl
          · have hne : ∀ {d : Char}, d = '&' ∨ d = '<' ∨ d = '>' → c ≠ d := by
              rintro d (rfl | rfl | rfl) rfl
              · exact absurd hc (by decide)
              · exact absurd hc (by decide)
              · exact absurd hc (by decide)
            have hnone : Line.dropMark? (c :: mark) (p :: l) = none := by
              refine Line.dropMark?_of_ne fun rest heq => ?_
              exact hne (hchar c (List.cons.inj heq).1) rfl
            rw [hsource, List.cons_append, Text.dropMark?, if_neg (hne (hfirst.imp_right Or.inl)), hnone]
            rfl

/-- The characters at the head of a line that a rule takes for an address or a description. -/
theorem spanChars_source {t : Raw.LiteralTable} {r q : Char → Bool} (hopen : q '<' = false)
    (hgo : ∀ c, c ≠ '\n' → r c = true → ∀ d ∈ escapeChar c, q d = true)
    (hstop : ∀ c, r c = false → (escapeChar c).head?.any q = false) {l : Line} (hl : l.Fits t) :
    (Line.source l).takeWhile q = escape (Line.spanChars r l).1 ∧
      (Line.source l).dropWhile q = Line.source (Line.spanChars r l).2 := by
  have hopaque : ∀ {p : Piece} {l : Line}, (∀ c, p ≠ .char c) →
      (Line.source (p :: l)).takeWhile q = [] ∧ (Line.source (p :: l)).dropWhile q = Line.source (p :: l) := by
    intro p l hp
    have hhead : (Line.source (p :: l)).head?.any q = false := by
      cases p with
      | char c => exact absurd rfl (hp c)
      | tag inner =>
          rw [Line.source_cons, Piece.source_tag, Tag.text]
          exact hopen
      | literal n content =>
          rw [Line.source_cons, Piece.source_literal]
          exact hopen
    exact ⟨takeWhile_of_head hhead, dropWhile_of_head hhead⟩
  fun_induction Line.spanChars r l with
  | case1 c rest hc run after hspan ih =>
      obtain ⟨hchar, hrest⟩ := List.forall_mem_cons.mp hl
      obtain ⟨htake, hdrop⟩ := ih hrest
      have hall := hgo c hchar hc
      rw [hspan] at htake hdrop
      rw [Line.source_cons, Piece.source_char, List.takeWhile_append_of_pos hall, List.dropWhile_append_of_pos hall, htake, hdrop]
      exact ⟨rfl, rfl⟩
  | case2 c rest hc =>
      have hhead : (Line.source (.char c :: rest)).head?.any q = false := by
        rw [Line.source_cons, head?_append (source_ne_nil _)]
        exact hstop c (by simpa using hc)
      exact ⟨takeWhile_of_head hhead, dropWhile_of_head hhead⟩
  | case3 l hne =>
      cases l with
      | nil => exact ⟨rfl, rfl⟩
      | cons p l => exact hopaque fun c hp => hne c l (by rw [hp])

end LeadSheet.Markup
