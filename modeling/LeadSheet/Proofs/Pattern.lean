import LeadSheet.Text.Pattern

/-!
# Steps of a rewriting

* `sub_of_some`, `sub_of_none` : what happens at one place of a text;
* `sub_append` : a stretch in which nothing begins that the pattern finds is passed over.
-/

namespace LeadSheet.Text

theorem dropMark?_append (mark s : List Char) : dropMark? mark (mark ++ s) = some s := by
  induction mark with
  | nil => rfl
  | cons c mark ih => rw [List.cons_append, dropMark?, if_pos rfl, ih]

theorem dropMark?_of_head {c : Char} {mark s : List Char} (h : s.head? ≠ some c) : dropMark? (c :: mark) s = none := by
  cases s with
  | nil => rfl
  | cons d s => exact if_neg fun hcd => h (congrArg some hcd.symm)

namespace Pattern

variable {α : Type} {m : Type → Type} [Monad m] {p : Pattern α} {put : α → m (List Char)}

theorem lastBefore_append (u after : List Char) : lastBefore (u ++ after) after = u.getLast? := by
  simp [lastBefore]

@[simp] theorem sub_nil (before : Option Char) : p.sub put before [] = pure [] := by rw [sub]

theorem sub_of_some {before : Option Char} {s after : List Char} {found : α}
    (h : p.find? before s = some (found, after)) :
    p.sub put before s = do
      let replaced ← put found
      return replaced ++ (← p.sub put (lastBefore s after) after) := by
  cases s with
  | nil => exact absurd (p.shorter h) (Nat.not_lt_zero _)
  | cons c rest =>
      rw [sub]
      split
      · rename_i found' after' heq
        rw [h] at heq
        obtain ⟨rfl, rfl⟩ := Prod.mk.inj (Option.some.inj heq)
        rfl
      · rename_i heq
        exact absurd (h.symm.trans heq) (by simp)

theorem sub_of_none {before : Option Char} {c : Char} {rest : List Char} (h : p.find? before (c :: rest) = none) :
    p.sub put before (c :: rest) = do return c :: (← p.sub put (some c) rest) := by
  rw [sub]
  split
  · rename_i heq
    exact absurd (h.symm.trans heq) (by simp)
  · rfl

/-- Nothing begins in `x` that the pattern finds. -/
theorem sub_append [LawfulMonad m] {before : Option Char} {x s : List Char}
    (h : ∀ u v, x = u ++ v → v ≠ [] → p.find? (u.getLast?.or before) (v ++ s) = none) :
    p.sub put before (x ++ s) = do return x ++ (← p.sub put (x.getLast?.or before) s) := by
  induction x generalizing before with
  | nil => simp
  | cons c x ih =>
      have hlast : ∀ u : List Char, (c :: u).getLast?.or before = u.getLast?.or (some c) := by
        intro u
        cases u with
        | nil => rfl
        | cons d u =>
            rw [List.getLast?_cons_cons]
            cases hu : (d :: u).getLast? with
            | none => simp at hu
            | some d => rfl
      have htail : ∀ u v, x = u ++ v → v ≠ [] → p.find? (u.getLast?.or (some c)) (v ++ s) = none := by
        intro u v hx hv
        exact hlast u ▸ h (c :: u) v (by rw [hx, List.cons_append]) hv
      have hhead : p.find? before (c :: (x ++ s)) = none := h [] (c :: x) rfl (List.cons_ne_nil c x)
      rw [List.cons_append, sub_of_none hhead, ih htail, hlast]
      simp

end Pattern

end LeadSheet.Text
