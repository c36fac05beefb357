import LeadSheet.Markup.Code
import LeadSheet.Proofs.Markup.Readers

/-!
# The rules inside a line as one relation

`Rewrites R s t` : the line `t` is the line `s` with some stretches of characters replaced by one piece
each, `R stretch piece`, and every other piece kept in its place. What stands in for characters is a tag or
a literal, so that whatever characters stand together in `t` stood together in `s` (`Rewrites.stretch`):
no rule brings characters together that the song has apart.

* `CodeMark` : a code span;
* `InlineMark` : an image, either end of a link, either mark of an emphasis;
* `ChordMark` : either bracket of a chord.
-/

namespace LeadSheet.Markup

open Text

/-- Every stretch that `R` replaces is replaced by a tag or a literal. -/
def Opaque (R : List Char → Piece → Prop) : Prop := ∀ u p, R u p → ∀ c, p ≠ .char c

/-- `t` is `s` with some stretches of characters replaced. -/
inductive Rewrites (R : List Char → Piece → Prop) : Line → Line → Prop
  | nil : Rewrites R [] []
  | keep (p : Piece) {s t : Line} : Rewrites R s t → Rewrites R (p :: s) (p :: t)
  | set {u : List Char} {p : Piece} {s t : Line} :
      R u p → Rewrites R s t → Rewrites R (Line.ofChars u ++ s) (p :: t)

namespace Rewrites

variable {R : List Char → Piece → Prop}

theorem refl (s : Line) : Rewrites R s s := by
  induction s with
  | nil => exact nil
  | cons p s ih => exact keep p ih

theorem append {s t s' t' : Line} (h : Rewrites R s t) (h' : Rewrites R s' t') :
    Rewrites R (s ++ s') (t ++ t') := by
  induction h with
  | nil => exact h'
  | keep p _ ih => exact keep p ih
  | set hu _ ih =>
      rw [List.append_assoc]
      exact set hu ih

theorem mem {s t : Line} (h : Rewrites R s t) {p : Piece} (hp : p ∈ t) : p ∈ s ∨ ∃ u, R u p := by
  induction h with
  | nil => exact Or.inl hp
  | keep q _ ih =>
      rcases List.mem_cons.mp hp with rfl | hp
      · exact Or.inl List.mem_cons_self
      · exact (ih hp).imp_left (List.mem_cons_of_mem q)
  | set hu _ ih =>
      rcases List.mem_cons.mp hp with rfl | hp
      · exact Or.inr ⟨_, hu⟩
      · exact (ih hp).imp_left (List.mem_append_right _)

/-- Characters at the head of the result were at the head of the source. -/
theorem ofChars_append (hR : Opaque R) {u : List Char} {s t : Line}
    (h : Rewrites R s (Line.ofChars u ++ t)) : ∃ s', s = Line.ofChars u ++ s' ∧ Rewrites R s' t := by
  induction u generalizing s with
  | nil => exact ⟨s, rfl, h⟩
  | cons c u ih =>
      rw [Line.ofChars_cons, List.cons_append] at h
      cases h with
      | keep _ h =>
          obtain ⟨s', rfl, hs'⟩ := ih h
          exact ⟨s', rfl, hs'⟩
      | set hu _ => exact absurd rfl (hR _ _ hu c)

/-- Characters that stand together in the result stood together in the source. -/
theorem stretch (hR : Opaque R) {u : List Char} {s t : Line} (h : Rewrites R s t)
    (hu : Line.ofChars u <:+: t) : Line.ofChars u <:+: s := by
  obtain ⟨a, b, rfl⟩ := hu
  rw [List.append_assoc] at h
  generalize hv : a ++ (Line.ofChars u ++ b) = v at h
  induction h generalizing a with
  | nil =>
      have hnil : Line.ofChars u = [] := by
        rw [List.append_eq_nil_iff, List.append_eq_nil_iff] at hv
        exact hv.2.1
      exact hnil ▸ List.nil_infix
  | keep p h ih =>
      cases a with
      | nil =>
          obtain ⟨s', hs', -⟩ := ofChars_append hR (hv ▸ keep p h : Rewrites R _ (Line.ofChars u ++ b))
          exact ⟨[], s', by rw [List.nil_append, hs']⟩
      | cons q a =>
          rw [List.cons_append, List.cons.injEq] at hv
          exact (ih a hv.2).trans (List.suffix_cons p _).isInfix
  | set hw h ih =>
      cases a with
      | nil =>
          obtain ⟨s', hs', -⟩ := ofChars_append hR (hv ▸ set hw h : Rewrites R _ (Line.ofChars u ++ b))
          exact ⟨[], s', by rw [List.nil_append, hs']⟩
      | cons q a =>
          rw [List.cons_append, List.cons.injEq] at hv
          exact (ih a hv.2).trans (List.suffix_append _ _).isInfix

theorem trans (hR : Opaque R) {s t v : Line} (h : Rewrites R s t) (h' : Rewrites R t v) :
    Rewrites R s v := by
  induction h' generalizing s with
  | nil => exact h
  | keep p _ ih =>
      cases h with
      | keep _ h => exact keep p (ih h)
      | set hu h => exact set hu (ih h)
  | set hu _ ih =>
      obtain ⟨s', rfl, hs'⟩ := ofChars_append hR h
      exact set hu (ih hs')

end Rewrites

/-! ## Code -/

/-- A code span with its backticks. -/
inductive CodeMark : List Char → Piece → Prop
  | span (n : Nat) (code : List Char) : CodeMark ('`' :: code ++ ['`']) (.literal n (codeSpan code))

theorem opaque_codeMark : Opaque CodeMark := by
  rintro u p hp c rfl
  cases hp

theorem rewrites_setSpans (n : Nat) (s : List Char) :
    Rewrites CodeMark (Line.ofChars s) (setSpans n s).1 := by
  fun_induction setSpans n s with
  | case1 => exact .nil
  | case2 => exact .refl _
  | case3 n c rest hc mark after hdrop _ pieces m heq ih =>
      obtain ⟨hmark, hrest⟩ := eq_takeWhile_append hdrop
      simp only [Bool.and_eq_true, beq_iff_eq, bne_eq_false_iff_eq] at hc hmark
      rw [hmark] at hrest
      have hsplit : Line.ofChars (c :: rest) =
          Line.ofChars ('`' :: rest.takeWhile (· != '`') ++ ['`']) ++ Line.ofChars after := by
        rw [← Line.ofChars_append, hc.1, List.append_assoc, List.cons_append, List.singleton_append, ← hrest]
      rw [heq] at ih
      rw [hsplit]
      exact .set (.span n _) ih
  | case4 n c rest hc pieces m heq ih =>
      rw [heq] at ih
      exact .keep _ ih

/-! ## Images, links and emphasis -/

/-- What stands for an image, for either end of a link, or for either mark of an emphasis. -/
inductive InlineMark : List Char → Piece → Prop
  | image (n : Nat) (description address : List Char) :
      InlineMark ('!' :: '[' :: description ++ ']' :: '(' :: address ++ [')'])
        (.literal n [.tag (.image address description)])
  | linkStart (n : Nat) (address : List Char) :
      InlineMark ['['] (.literal n [.tag (.opening (.anchor address))])
  | linkEnd (address : List Char) :
      InlineMark (']' :: '(' :: address ++ [')']) (.tag (.closing (.anchor address)))
  | emphasisStart {e : Emphasis} (he : e ∈ emphases) : InlineMark e.mark (.tag (.opening e.element))
  | emphasisEnd {e : Emphasis} (he : e ∈ emphases) : InlineMark e.mark (.tag (.closing e.element))

theorem rewrites_setImages (n : Nat) (line : Line) : Rewrites InlineMark line (setImages n line).1 := by
  fun_induction setImages n line with
  | case1 => exact .nil
  | case2 n piece rest description address after h _ pieces m heq ih =>
      rw [heq] at ih
      rw [image?_eq_some h]
      exact .set (.image n description address) ih
  | case3 n piece rest h pieces m heq ih =>
      rw [heq] at ih
      exact .keep piece ih

theorem rewrites_setLinks (n : Nat) (line : Line) : Rewrites InlineMark line (setLinks n line).1 := by
  fun_induction setLinks n line with
  | case1 => exact .nil
  | case2 n piece rest label address after h _ pieces m heq ih =>
      rw [heq] at ih
      have hlabel := (Rewrites.refl label).append (.set (.linkEnd address) ih)
      rw [link?_eq_some h]
      exact .set (.linkStart n address) hlabel
  | case3 n piece rest h pieces m heq ih =>
      rw [heq] at ih
      exact .keep piece ih

theorem Emphasis.rewrites_set {e : Emphasis} (he : e ∈ emphases) (afterWord : Bool) (line : Line) :
    Rewrites InlineMark line (e.set afterWord line) := by
  fun_induction e.set afterWord line with
  | case1 => exact .nil
  | case2 afterWord piece rest content after h _ ih =>
      have hmatch : e.match? (piece :: rest) = some (content, after) := by
        split at h
        · simp at h
        · exact h
      have hcontent := (Rewrites.refl content).append (.set (.emphasisEnd he) ih)
      rw [Emphasis.match?_eq_some hmatch]
      exact .set (.emphasisStart he) hcontent
  | case3 afterWord piece rest h ih => exact .keep piece ih

theorem opaque_inlineMark : Opaque InlineMark := by
  rintro u p hp c rfl
  cases hp

theorem rewrites_setEmphases (line : Line) : Rewrites InlineMark line (setEmphases line) := by
  have hfold : ∀ es : List Emphasis, (∀ e ∈ es, e ∈ emphases) → ∀ line : Line,
      Rewrites InlineMark line (es.foldl (fun line e => e.set false line) line) := by
    intro es
    induction es with
    | nil => exact fun _ line => .refl line
    | cons e es ih =>
        intro hes line
        have hset := Emphasis.rewrites_set (hes e List.mem_cons_self) false line
        exact hset.trans opaque_inlineMark (ih (fun e' he' => hes e' (List.mem_cons_of_mem e he')) _)
  exact hfold emphases (fun e he => he) line

/-- A line before its chords are set. -/
def setInline (n : Nat) (line : Line) : Line :=
  setEmphases (setLinks (setImages n line).2 (setImages n line).1).1

theorem rewrites_setInline (n : Nat) (line : Line) : Rewrites InlineMark line (setInline n line) := by
  have himages := rewrites_setImages n line
  have hlinks := rewrites_setLinks (setImages n line).2 (setImages n line).1
  exact (himages.trans opaque_inlineMark hlinks).trans opaque_inlineMark (rewrites_setEmphases _)

/-! ## Chords -/

/-- What stands for either bracket of a chord. -/
inductive ChordMark : List Char → Piece → Prop
  | start : ChordMark ['['] (.tag (.opening .chord))
  | stop : ChordMark [']'] (.tag (.closing .chord))

theorem setChords_eq_some {piece : Piece} {rest name after : Line}
    (h : (if piece.is '[' then bracketed? rest else none) = some (name, after)) :
    piece = .char '[' ∧ rest = name ++ .char ']' :: after ∧ ∀ p ∈ name, p.is ']' = false := by
  split at h
  · rename_i hpiece
    obtain ⟨hrest, -, hname⟩ := bracketed?_eq_some h
    exact ⟨Piece.eq_char_of_is hpiece, hrest, hname⟩
  · simp at h

theorem rewrites_setChords (db : Chord.Database) (line : Line) :
    Rewrites ChordMark line (setChords db line) := by
  fun_induction setChords db line with
  | case1 => exact .nil
  | case2 piece rest name after h _ hchord ih =>
      obtain ⟨rfl, hrest, -⟩ := setChords_eq_some h
      have hname := (Rewrites.refl name).append (.set .stop ih)
      rw [hrest]
      exact .set .start hname
  | case3 piece rest name after h _ hchord ih =>
      obtain ⟨rfl, hrest, -⟩ := setChords_eq_some h
      have hname := (Rewrites.refl name).append (.keep (.char ']') ih)
      rw [hrest]
      exact .keep (.char '[') hname
  | case4 piece rest h ih => exact .keep piece ih

theorem renderLine_fst (db : Chord.Database) (n : Nat) (line : Line) :
    (renderLine db n line).1 = Line.tokens (setChords db (setInline n line)) := rfl

end LeadSheet.Markup
