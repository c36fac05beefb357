/-!
# Scanning ahead

Many readers skip to a mark and go on behind it. What is left then is shorter than what was read, so
they come to an end.
-/

namespace LeadSheet.Text

theorem length_dropWhile_le {α : Type} (p : α → Bool) (s : List α) :
    (s.dropWhile p).length ≤ s.length :=
  (List.dropWhile_sublist p).length_le

theorem length_lt_of_dropWhile {α : Type} {s front rest : List α} {p : α → Bool} (hf : front ≠ [])
    (h : s.dropWhile p = front ++ rest) : rest.length < s.length := by
  have hle := length_dropWhile_le p s
  rw [h, List.length_append] at hle
  have := List.length_pos_iff.mpr hf
  omega

theorem length_lt_of_dropWhile_cons {α : Type} {s rest : List α} {a : α} {p : α → Bool}
    (h : s.dropWhile p = a :: rest) : rest.length < s.length :=
  length_lt_of_dropWhile (List.cons_ne_nil a []) h

end LeadSheet.Text
