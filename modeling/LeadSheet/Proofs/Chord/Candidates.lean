import LeadSheet.Proofs.Chord.Mentions

/-!
# Mentions by cutting, and their order

The mentions of a text are found without regard to nesting, so they can be had piece by piece: the text is cut at each
closing bracket, and a piece that one of them ends is a mention from behind its first opening bracket on.

* `candidates` : the mentions by cutting (`mentions_eq_candidates`). Both ways of looking are determined by what they
  do with one piece and the rest of the text, `mentions_append` and `candidates_append`;
* `pairwise_chordsIn` : the chords of a text ascend in code-point order.
-/

namespace LeadSheet.Chord

open Text

/-! ## Cutting -/

/-- What follows the first opening bracket of a piece, if there is one and something follows it. -/
def candidate? (piece : List Char) : Option (List Char) :=
  match piece.dropWhile (· != '[') with
  | [] => none
  | _ :: name => if name.isEmpty then none else some name

/-- What the pieces of a text hold that are ended by a closing bracket: all pieces but the last. -/
def candidates (s : List Char) : List (List Char) := ((cutAt (· == ']') s).dropLast).filterMap candidate?

theorem candidate?_bracket (name : List Char) :
    candidate? ('[' :: name) = if name.isEmpty then none else some name := rfl

theorem candidate?_of_ne {c : Char} (hc : c ≠ '[') (piece : List Char) :
    candidate? (c :: piece) = candidate? piece := by
  rw [candidate?, List.dropWhile_cons, if_pos (by simpa using hc), candidate?]

theorem cutAt_bracket_of_not_mem {piece : List Char} (h : ']' ∉ piece) : cutAt (· == ']') piece = [piece] :=
  cutAt_of_uncut fun _ hc => beq_eq_false_iff_ne.mpr fun heq => h (heq ▸ hc)

theorem candidates_of_not_mem {s : List Char} (h : ']' ∉ s) : candidates s = [] := by
  rw [candidates, cutAt_bracket_of_not_mem h]
  rfl

theorem candidates_append {piece : List Char} (h : ']' ∉ piece) (s : List Char) :
    candidates (piece ++ ']' :: s) = (candidate? piece).toList ++ candidates s := by
  rw [candidates, cutAt_append_mark rfl, cutAt_bracket_of_not_mem h,
    List.dropLast_append_of_ne_nil (cutAt_ne_nil _ s), List.filterMap_append, candidates]
  cases hpiece : candidate? piece with
  | none => rw [List.filterMap_cons_none hpiece]; rfl
  | some name => rw [List.filterMap_cons_some hpiece]; rfl

theorem mentions_of_not_mem {s : List Char} (h : ']' ∉ s) : mentions s = [] := by
  induction s with
  | nil => rw [mentions]
  | cons c s ih =>
      rw [List.mem_cons, not_or] at h
      by_cases hc : c = '['
      · rw [hc, mentions_of_unclosed (List.dropWhile_eq_nil_iff.mpr fun d hd => ?_)]
        exact bne_iff_ne.mpr fun heq => h.2 (heq ▸ hd)
      · rw [mentions_of_ne hc, ih h.2]

theorem mentions_append {piece : List Char} (h : ']' ∉ piece) (s : List Char) :
    mentions (piece ++ ']' :: s) = (candidate? piece).toList ++ mentions s := by
  induction piece with
  | nil => rw [List.nil_append, mentions_of_ne (by decide)]; rfl
  | cons c piece ih =>
      rw [List.mem_cons, not_or] at h
      rw [List.cons_append]
      by_cases hc : c = '['
      · -- the bracket opened here takes the one that ends the piece
        have hpiece : ∀ d ∈ piece, (d != ']') = true := fun d hd => bne_iff_ne.mpr fun heq => h.2 (heq ▸ hd)
        have hdrop : (piece ++ ']' :: s).dropWhile (· != ']') = ']' :: s := by
          rw [dropWhile_append_mark rfl, List.dropWhile_eq_nil_iff.mpr hpiece, List.nil_append]
        have htake : (piece ++ ']' :: s).takeWhile (· != ']') = piece := by
          rw [takeWhile_append_mark rfl, List.takeWhile_eq_self_iff.mpr hpiece]
        rw [hc, mentions_of_bracket hdrop, htake, candidate?_bracket]
        split
        · rfl
        · rfl
      · rw [mentions_of_ne hc, ih h.2, candidate?_of_ne hc]

/-- Cutting a text at its closing brackets gives its mentions, in order. -/
theorem mentions_eq_candidates (s : List Char) : mentions s = candidates s := by
  by_cases h : ']' ∈ s
  · obtain ⟨piece, rest, hs, hpiece⟩ := List.eq_append_cons_of_mem h
    have : rest.length < s.length := by
      rw [hs, List.length_append, List.length_cons]
      omega
    rw [hs, mentions_append hpiece, candidates_append hpiece, mentions_eq_candidates rest]
  · rw [mentions_of_not_mem h, candidates_of_not_mem h]
termination_by s.length

/-! ## Order -/

theorem precedes_iff_lt {s t : List Char} : precedes s t = true ↔ s < t := by
  induction s generalizing t with
  | nil =>
      cases t with
      | nil => simp [precedes]
      | cons d t => simp [precedes]
  | cons c s ih =>
      cases t with
      | nil => simp [precedes]
      | cons d t =>
          rw [precedes, Bool.or_eq_true, Bool.and_eq_true, decide_eq_true_eq, beq_iff_eq, ih, List.cons_lt_cons_iff]

theorem pairwise_insertSorted {name : List Char} {names : List (List Char)} (h : names.Pairwise (· < ·)) :
    (insertSorted name names).Pairwise (· < ·) := by
  induction names with
  | nil => exact List.pairwise_singleton _ _
  | cons first names ih =>
      obtain ⟨hfirst, hnames⟩ := List.pairwise_cons.mp h
      unfold insertSorted
      split
      · rename_i hlt
        rw [precedes_iff_lt] at hlt
        refine List.pairwise_cons.mpr ⟨fun other hother => ?_, h⟩
        rcases List.mem_cons.mp hother with rfl | hother
        · exact hlt
        · exact List.lt_trans hlt (hfirst other hother)
      · split
        · rename_i hlt
          refine List.pairwise_cons.mpr ⟨fun other hother => ?_, ih hnames⟩
          rcases mem_insertSorted.mp hother with rfl | hother
          · exact precedes_iff_lt.mp hlt
          · exact hfirst other hother
        · exact h

theorem pairwise_sortDistinct (names : List (List Char)) : (sortDistinct names).Pairwise (· < ·) :=
  List.foldlRecOn names _ List.Pairwise.nil fun _ hsorted _ _ => pairwise_insertSorted hsorted

/-- The chords of a text ascend, so that none is there twice. -/
theorem pairwise_chordsIn (db : Database) (s : List Char) : (db.chordsIn s).Pairwise (· < ·) :=
  pairwise_sortDistinct _

/-- The chords of a text are the candidates that the database knows. -/
theorem mem_chordsIn_iff_candidates {db : Database} {name s : List Char} :
    name ∈ db.chordsIn s ↔ name ∈ candidates s ∧ db.isChord name = true := by
  rw [Database.chordsIn, mem_sortDistinct, List.mem_filter, mentions_eq_candidates]

end LeadSheet.Chord
