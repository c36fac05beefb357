/-!
# Dictionaries in order of first appearance

Fields of a song, objects of a JSON text and the keys of a chord database are shown in the order in
which they were first written. A dictionary is therefore a list of pairs with distinct keys; writing a
key again keeps its place and changes its value. Looking up is `List.lookup`.
-/

namespace LeadSheet.Dictionary

variable {α : Type}

/-- Writes a value under a key: in place where the key is present, at the end otherwise. -/
def put (key : String) (value : α) : List (String × α) → List (String × α)
  | [] => [(key, value)]
  | (k, v) :: rest => if k = key then (k, value) :: rest else (k, v) :: put key value rest

/-- Writes the pairs one after another. -/
def ofPairs (pairs : List (String × α)) : List (String × α) :=
  pairs.foldl (fun d p => put p.1 p.2 d) []

def keys (d : List (String × α)) : List String := d.map Prod.fst

theorem lookup_put (key k : String) (value : α) (d : List (String × α)) :
    (put key value d).lookup k = if k = key then some value else d.lookup k := by
  induction d with
  | nil =>
    by_cases h : k = key
    · simp [put, h]
    · simp [put, List.lookup_cons, h, beq_eq_false_iff_ne.mpr h]
  | cons p rest ih =>
    obtain ⟨k', v⟩ := p
    by_cases hk : k' = key
    · subst hk
      by_cases h : k = k'
      · simp [put, h]
      · simp [put, List.lookup_cons, h, beq_eq_false_iff_ne.mpr h]
    · by_cases h : k = k'
      · subst h
        simp [put, hk]
      · simp [put, List.lookup_cons, hk, beq_eq_false_iff_ne.mpr h, ih]

theorem keys_put (key : String) (value : α) (d : List (String × α)) :
    keys (put key value d) = if key ∈ keys d then keys d else keys d ++ [key] := by
  unfold keys
  induction d with
  | nil => simp [put]
  | cons p rest ih =>
    obtain ⟨k', v⟩ := p
    by_cases hk : k' = key
    · subst hk; simp [put]
    · simp only [put, hk, if_false, List.map_cons, ih, List.mem_cons]
      by_cases hm : key ∈ rest.map Prod.fst <;> simp [hm, Ne.symm hk]

end LeadSheet.Dictionary
