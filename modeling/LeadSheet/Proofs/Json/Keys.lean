import LeadSheet.Json.Reader
import Mathlib.Data.List.Basic
import Mathlib.Data.List.Induction

/-!
# Objects with distinct keys

`decode_distinctKeys` : however often a text writes a key of an object, the decoded object has it once. So a mapping
can be looked up by its keys (`Dictionary.lookup_eq_some_iff_mem`).
-/

namespace LeadSheet

namespace Dictionary

variable {α : Type}

theorem nodup_keys_put {d : List (String × α)} (h : (keys d).Nodup) (key : String) (value : α) :
    (keys (put key value d)).Nodup := by
  rw [keys_put]
  split
  · exact h
  · rename_i hkey
    refine List.nodup_append.mpr ⟨h, List.pairwise_singleton _ key, ?_⟩
    rintro a ha b hb rfl
    exact hkey (List.mem_singleton.mp hb ▸ ha)

theorem mem_put {d : List (String × α)} {key : String} {value : α} {p : String × α} (h : p ∈ put key value d) :
    p = (key, value) ∨ p ∈ d := by
  induction d with
  | nil => exact Or.inl (List.mem_singleton.mp h)
  | cons q d ih =>
      unfold put at h
      split at h
      · rename_i hkey
        rcases List.mem_cons.mp h with rfl | h
        · exact Or.inl (by rw [hkey])
        · exact Or.inr (List.mem_cons_of_mem q h)
      · rcases List.mem_cons.mp h with rfl | h
        · exact Or.inr List.mem_cons_self
        · exact (ih h).imp_right (List.mem_cons_of_mem q)

/-- Writing pairs one after another leaves the keys distinct, and every value is one of those written. -/
theorem ofPairs_spec (pairs : List (String × α)) :
    (keys (ofPairs pairs)).Nodup ∧ ∀ p ∈ ofPairs pairs, p ∈ pairs := by
  have hfold : ∀ (pairs d : List (String × α)), (keys d).Nodup →
      (keys (pairs.foldl (fun d p => put p.1 p.2 d) d)).Nodup ∧
        ∀ p ∈ pairs.foldl (fun d p => put p.1 p.2 d) d, p ∈ pairs ∨ p ∈ d := by
    intro pairs
    induction pairs with
    | nil => exact fun d hd => ⟨hd, fun p hp => Or.inr hp⟩
    | cons q pairs ih =>
        intro d hd
        obtain ⟨hnodup, hmem⟩ := ih (put q.1 q.2 d) (nodup_keys_put hd q.1 q.2)
        refine ⟨hnodup, fun p hp => ?_⟩
        rcases hmem p hp with hp | hp
        · exact Or.inl (List.mem_cons_of_mem q hp)
        · rcases mem_put hp with rfl | hp
          · exact Or.inl List.mem_cons_self
          · exact Or.inr hp
  obtain ⟨hnodup, hmem⟩ := hfold pairs [] List.nodup_nil
  exact ⟨hnodup, fun p hp => (hmem p hp).resolve_right List.not_mem_nil⟩

theorem put_of_not_mem {d : List (String × α)} {key : String} (h : key ∉ keys d) (value : α) :
    put key value d = d ++ [(key, value)] := by
  induction d with
  | nil => rfl
  | cons p d ih =>
      rw [keys, List.map_cons, List.mem_cons, not_or] at h
      rw [put, if_neg (Ne.symm h.1), ih h.2, List.cons_append]

/-- Pairs with distinct keys are a dictionary as they stand. -/
theorem ofPairs_of_nodup {pairs : List (String × α)} (h : (keys pairs).Nodup) : ofPairs pairs = pairs := by
  induction pairs using List.reverseRecOn with
  | nil => rfl
  | append_singleton pairs p ih =>
      rw [keys, List.map_append, List.nodup_append] at h
      obtain ⟨hpairs, -, hnew⟩ := h
      have hkey : p.1 ∉ keys pairs := fun hmem => hnew p.1 hmem p.1 (List.mem_singleton_self _) rfl
      rw [ofPairs, List.foldl_append, List.foldl_cons, List.foldl_nil, ← ofPairs, ih hpairs, put_of_not_mem hkey]

/-- With distinct keys, each pair is the one that its key is looked up by. -/
theorem lookup_eq_some_iff_mem {d : List (String × α)} (h : (keys d).Nodup) {key : String} {value : α} :
    d.lookup key = some value ↔ (key, value) ∈ d := by
  induction d with
  | nil => simp
  | cons p d ih =>
      obtain ⟨k, stored⟩ := p
      obtain ⟨hnew, hnodup⟩ := List.nodup_cons.mp h
      rw [List.lookup_cons, List.mem_cons, Prod.mk.injEq]
      by_cases hkey : key = k
      · subst hkey
        have hother : (key, value) ∉ d := fun hmem => hnew (List.mem_map.mpr ⟨_, hmem, rfl⟩)
        simp [hother, eq_comm]
      · have hne : (key == k) = false := beq_eq_false_iff_ne.mpr hkey
        simp [hne, hkey, ih hnodup]

theorem lookup_isSome_iff {d : List (String × α)} {key : String} :
    (d.lookup key).isSome = true ↔ key ∈ keys d := by
  rw [List.lookup_isSome_iff, keys, List.mem_map]
  simp only [beq_iff_eq, @eq_comm _ key]

end Dictionary

namespace Json

/-- No object in the value has a key twice. -/
inductive DistinctKeys : Json → Prop
  | null : DistinctKeys .null
  | bool (value : Bool) : DistinctKeys (.bool value)
  | int (value : Int) : DistinctKeys (.int value)
  | float (value : Float) : DistinctKeys (.float value)
  | text (value : String) : DistinctKeys (.text value)
  | array {items : List Json} : (∀ item ∈ items, DistinctKeys item) → DistinctKeys (.array items)
  | object {fields : List (String × Json)} : (Dictionary.keys fields).Nodup →
      (∀ field ∈ fields, DistinctKeys field.2) → DistinctKeys (.object fields)

attribute [simp] DistinctKeys.null DistinctKeys.bool DistinctKeys.int DistinctKeys.float DistinctKeys.text

@[simp] theorem distinctKeys_array_iff {items : List Json} :
    (Json.array items).DistinctKeys ↔ ∀ item ∈ items, item.DistinctKeys := by
  constructor
  · intro h
    cases h with
    | array hitems => exact hitems
  · exact .array

@[simp] theorem distinctKeys_object_iff {fields : List (String × Json)} :
    (Json.object fields).DistinctKeys ↔
      (Dictionary.keys fields).Nodup ∧ ∀ field ∈ fields, field.2.DistinctKeys := by
  constructor
  · intro h
    cases h with
    | object hkeys hfields => exact ⟨hkeys, hfields⟩
  · rintro ⟨hkeys, hfields⟩
    exact .object hkeys hfields

theorem bind_eq_ok {ε α β : Type} {x : Except ε α} {f : α → Except ε β} {b : β} :
    (x >>= f) = .ok b ↔ ∃ a, x = .ok a ∧ f a = .ok b := by
  cases x with
  | error e => simp [bind, Except.bind]
  | ok a => simp [bind, Except.bind]

theorem distinctKeys_words {w : String × Json} (h : w ∈ words) : w.2.DistinctKeys := by
  simp only [words, List.mem_cons, List.not_mem_nil, or_false] at h
  rcases h with rfl | rfl | rfl | rfl | rfl | rfl
  · exact .null
  · exact .bool true
  · exact .bool false
  · exact .float _
  · exact .float _
  · exact .float _

theorem distinctKeys_readNumber {c c' : Cursor} {j : Json} (h : readNumber c = .ok (j, c')) : j.DistinctKeys := by
  unfold readNumber at h
  extract_lets negative signed body whole places size at h
  split at h
  · simp [Cursor.refuse] at h
  · split at h
    · obtain ⟨rfl, -⟩ := Prod.mk.inj (Except.ok.inj h)
      exact .float _
    · split at h
      · split at h
        · simp at h
        · obtain ⟨rfl, -⟩ := Prod.mk.inj (Except.ok.inj h)
          exact .int _
      · obtain ⟨rfl, -⟩ := Prod.mk.inj (Except.ok.inj h)
        exact .float _

/-- The fields of an object are written into a dictionary one after another. -/
theorem distinctKeys_object {pairs : List (String × Json)} (h : ∀ p ∈ pairs, p.2.DistinctKeys) :
    (Json.object (Dictionary.ofPairs pairs)).DistinctKeys := by
  obtain ⟨hnodup, hmem⟩ := Dictionary.ofPairs_spec pairs
  exact .object hnodup fun field hfield => h field (hmem field hfield)

/-- What each of the readers gives, by induction on the number of steps. -/
theorem distinctKeys_read (steps : Nat) :
    (∀ c j c', readValue steps c = .ok (j, c') → j.DistinctKeys) ∧
      (∀ c items c', readItems steps c = .ok (items, c') → ∀ item ∈ items, item.DistinctKeys) ∧
      ∀ c fields c', readFields steps c = .ok (fields, c') → ∀ field ∈ fields, field.2.DistinctKeys := by
  induction steps with
  | zero =>
      refine ⟨fun c j c' h => ?_, fun c items c' h => ?_, fun c fields c' h => ?_⟩
      · simp [readValue, Cursor.refuse] at h
      · simp [readItems, Cursor.refuse] at h
      · simp [readFields, Cursor.refuse] at h
  | succ steps ih =>
      obtain ⟨ihValue, ihItems, ihFields⟩ := ih
      refine ⟨fun c j c' h => ?_, fun c items c' h => ?_, fun c fields c' h => ?_⟩
      · unfold readValue at h
        split at h
        · obtain ⟨a, -, h⟩ := bind_eq_ok.mp h
          obtain ⟨rfl, -⟩ := Prod.mk.inj (Except.ok.inj h)
          exact .text a.1
        · simp only at h
          split at h
          · obtain ⟨rfl, -⟩ := Prod.mk.inj (Except.ok.inj h)
            exact .array (by simp)
          · obtain ⟨a, hitems, h⟩ := bind_eq_ok.mp h
            obtain ⟨rfl, -⟩ := Prod.mk.inj (Except.ok.inj h)
            exact .array (ihItems _ _ _ hitems)
        · simp only at h
          split at h
          · obtain ⟨rfl, -⟩ := Prod.mk.inj (Except.ok.inj h)
            exact .object List.nodup_nil (by simp)
          · obtain ⟨a, hfields, h⟩ := bind_eq_ok.mp h
            obtain ⟨rfl, -⟩ := Prod.mk.inj (Except.ok.inj h)
            exact distinctKeys_object (ihFields _ _ _ hfields)
        · split at h
          · rename_i w value hword
            obtain ⟨rfl, -⟩ := Prod.mk.inj (Except.ok.inj h)
            exact distinctKeys_words (List.mem_of_find?_eq_some hword)
          · exact distinctKeys_readNumber h
      · unfold readItems at h
        obtain ⟨⟨item, after⟩, hitem, h⟩ := bind_eq_ok.mp h
        have hfirst := ihValue _ _ _ hitem
        simp only at h
        split at h
        · obtain ⟨rfl, -⟩ := Prod.mk.inj (Except.ok.inj h)
          simpa using hfirst
        · obtain ⟨⟨rest, c''⟩, hrest, h⟩ := bind_eq_ok.mp h
          obtain ⟨rfl, -⟩ := Prod.mk.inj (Except.ok.inj h)
          exact List.forall_mem_cons.mpr ⟨hfirst, ihItems _ _ _ hrest⟩
        · simp [Cursor.refuse] at h
      · unfold readFields at h
        split at h
        · obtain ⟨⟨key, after⟩, -, h⟩ := bind_eq_ok.mp h
          simp only at h
          split at h
          · obtain ⟨⟨value, after'⟩, hvalue, h⟩ := bind_eq_ok.mp h
            have hfirst := ihValue _ _ _ hvalue
            simp only at h
            split at h
            · obtain ⟨rfl, -⟩ := Prod.mk.inj (Except.ok.inj h)
              simpa using hfirst
            · obtain ⟨⟨rest, c''⟩, hrest, h⟩ := bind_eq_ok.mp h
              obtain ⟨rfl, -⟩ := Prod.mk.inj (Except.ok.inj h)
              exact List.forall_mem_cons.mpr ⟨hfirst, ihFields _ _ _ hrest⟩
            · simp [Cursor.refuse] at h
          · simp [Cursor.refuse] at h
        · simp [Cursor.refuse] at h

/-- A decoded value has no object with a key twice. -/
theorem decode_distinctKeys {s : List Char} {data : Json} (h : decode s = .ok data) : data.DistinctKeys := by
  unfold decode at h
  split at h
  · simp at h
  · obtain ⟨⟨value, after⟩, hvalue, h⟩ := bind_eq_ok.mp h
    simp only at h
    split at h
    · obtain rfl := Except.ok.inj h
      exact (distinctKeys_read _).1 _ _ _ hvalue
    · simp [Cursor.refuse] at h

end Json

end LeadSheet
