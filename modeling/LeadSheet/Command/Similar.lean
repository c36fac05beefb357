import LeadSheet.Command.SystemText

/-!
# Similar names

Two names are as similar as the characters that they share: the longest text that occurs in both, and
likewise what is before it in both and what is after it in both. A name is close to a typed one when
these characters are at least three fifths of all.
-/

namespace LeadSheet.Command

section

variable {α : Type} [DecidableEq α]

/-- The length of the longest common start of two texts. -/
def commonLength : List α → List α → Nat
  | c :: s, d :: t => if c = d then commonLength s t + 1 else 0
  | _, _ => 0

/-- A text that occurs in two others. -/
structure Overlap where
  /-- The number of characters before it in the first text. -/
  left : Nat
  /-- The number of characters before it in the second text. -/
  right : Nat
  length : Nat
  deriving DecidableEq

/-- The longest overlap of two texts. Of several it is the one that starts first in the first text, and
of these the one that starts first in the second. -/
def longestOverlap (s t : List α) : Overlap :=
  (List.range s.length).foldl (fun best i =>
    (List.range t.length).foldl (fun best j =>
      let k := commonLength (s.drop i) (t.drop j)
      if best.length < k then ⟨i, j, k⟩ else best) best) ⟨0, 0, 0⟩

/-- The number of characters that two texts share. -/
def sharedCount (s t : List α) : Nat :=
  match longestOverlap s t with
  | ⟨i, j, k⟩ =>
    if _h : 0 < k ∧ i < s.length then
      sharedCount (s.take i) (t.take j) + k + sharedCount (s.drop (i + k)) (t.drop (j + k))
    else 0
termination_by s.length
decreasing_by
  · simp only [List.length_take]
    omega
  · simp only [List.length_drop]
    omega

end

/-- How similar a name is to a typed one: shared characters against the characters of both. -/
structure Similarity where
  shared : Nat
  total : Nat
  deriving DecidableEq

namespace Similarity

def of (name : String) (typed : SystemText) : Similarity where
  shared := sharedCount (SystemText.ofString name) typed
  total := name.length + typed.length

def isClose (r : Similarity) : Bool := 3 * r.total ≤ 5 * (2 * r.shared)

/-- The first pair shares a larger part than the second. -/
def exceeds (r₁ r₂ : Similarity) : Bool := r₂.shared * r₁.total < r₁.shared * r₂.total

end Similarity

/-- The greatest number of names that are offered for a typed one. -/
def offerLimit : Nat := 3

/-- The names that are close to a typed one, the closest ones only, and in code-point order. -/
def closeNames (typed : SystemText) (names : List String) : List String :=
  let rated := (names.map fun name => (name, Similarity.of name typed)).filter fun (_, r) => r.isClose
  let ranked := rated.mergeSort fun (name₁, r₁) (name₂, r₂) =>
    r₁.exceeds r₂ || (!r₂.exceeds r₁ && name₂ ≤ name₁)
  ((ranked.take offerLimit).map Prod.fst).mergeSort

end LeadSheet.Command
