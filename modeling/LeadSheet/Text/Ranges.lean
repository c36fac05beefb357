/-!
# Sets of characters given by intervals

A class of characters is written as a list of closed intervals of code points, in ascending order.
-/

namespace LeadSheet.Text

/-- Closed intervals of code points. -/
abbrev Ranges := List (Nat × Nat)

namespace Ranges

def contains (ranges : Ranges) (c : Char) : Bool :=
  ranges.any fun r => decide (r.1 ≤ c.toNat) && decide (c.toNat ≤ r.2)

def interval? (ranges : Ranges) (c : Char) : Option (Nat × Nat) :=
  List.find? (fun r => decide (r.1 ≤ c.toNat) && decide (c.toNat ≤ r.2)) ranges

theorem contains_iff {ranges : Ranges} {c : Char} :
    ranges.contains c = true ↔ ∃ r ∈ ranges, r.1 ≤ c.toNat ∧ c.toNat ≤ r.2 := by
  simp [contains]

end Ranges

end LeadSheet.Text
