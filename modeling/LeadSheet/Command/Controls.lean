import LeadSheet.Command.SystemText

/-!
# Control sequences

A terminal control sequence begins with an escape character and a bracket; then come parameters, characters between
these and the end, and one character that ends it.
-/

namespace LeadSheet.Command

/-- A character among the parameters of a control sequence. -/
def isControlParameter : SystemChar → Bool
  | .char c => '0' ≤ c && c ≤ '?'
  | .stray _ => false

/-- A character between the parameters and the end of a control sequence. -/
def isControlMiddle : SystemChar → Bool
  | .char c => ' ' ≤ c && c ≤ '/'
  | .stray _ => false

def isControlEnd : SystemChar → Bool
  | .char c => '@' ≤ c && c ≤ '~'
  | .stray _ => false

/-- What follows a control sequence at the head of a text, after its escape character. -/
def afterControl? : SystemText → Option SystemText
  | .char '[' :: rest =>
    match (rest.dropWhile isControlParameter).dropWhile isControlMiddle with
    | c :: after => if isControlEnd c then some after else none
    | [] => none
  | _ => none

theorem afterControl?_suffix {s rest : SystemText} (h : afterControl? s = some rest) : rest <:+ s := by
  unfold afterControl? at h
  split at h
  · rename_i s
    split at h
    · rename_i c after hafter
      split at h
      · obtain rfl := Option.some.inj h
        have hdrop : c :: after <:+ s :=
          hafter ▸ (List.dropWhile_suffix isControlMiddle).trans (List.dropWhile_suffix isControlParameter)
        exact (List.suffix_cons c after).trans (hdrop.trans (List.suffix_cons _ _))
      · exact absurd h (by simp)
    · exact absurd h (by simp)
  · exact absurd h (by simp)

/-- A text without control sequences. -/
def dropControls (s : SystemText) : SystemText :=
  match s with
  | [] => []
  | c :: rest =>
    match h : if c = .char '\x1b' then afterControl? rest else none with
    | some after =>
      have : after.length ≤ rest.length := (afterControl?_suffix (Option.ite_none_right_eq_some.mp h).2).length_le
      dropControls after
    | none => c :: dropControls rest
termination_by s.length

theorem dropControls_sublist (s : SystemText) : (dropControls s).Sublist s := by
  fun_induction dropControls s with
  | case1 => exact List.Sublist.slnil
  | case2 c rest after h _ ih =>
      obtain ⟨-, hafter⟩ := Option.ite_none_right_eq_some.mp h
      exact (ih.trans (afterControl?_suffix hafter).sublist).cons c
  | case3 c rest h ih => exact ih.cons_cons c

/-- Just the texts without control sequences stay as they are. -/
theorem dropControls_eq_self_iff {s : SystemText} :
    dropControls s = s ↔ ∀ rest, .char '\x1b' :: rest <:+ s → afterControl? rest = none := by
  fun_induction dropControls s with
  | case1 => simp
  | case2 c rest after h hle ih =>
      obtain ⟨rfl, hafter⟩ := Option.ite_none_right_eq_some.mp h
      constructor
      · intro heq
        have hlength := (dropControls_sublist after).length_le
        rw [heq, List.length_cons] at hlength
        omega
      · intro hnone
        have := hnone rest List.suffix_rfl
        rw [hafter] at this
        exact absurd this (by simp)
  | case3 c rest h ih =>
      rw [List.cons.injEq, ih]
      constructor
      · rintro ⟨-, hrest⟩ rest' hsuffix
        rcases List.suffix_cons_iff.mp hsuffix with heq | hsuffix
        · obtain ⟨rfl, rfl⟩ := List.cons.inj heq
          rwa [dif_pos rfl] at h
        · exact hrest rest' hsuffix
      · intro hnone
        exact ⟨rfl, fun rest' hsuffix => hnone rest' (hsuffix.trans (List.suffix_cons _ _))⟩

/-- A text without escape characters has no control sequences. -/
theorem dropControls_of_not_mem {s : SystemText} (hs : SystemChar.char '\x1b' ∉ s) : dropControls s = s :=
  dropControls_eq_self_iff.mpr fun _ hsuffix => absurd (hsuffix.subset List.mem_cons_self) hs

end LeadSheet.Command
