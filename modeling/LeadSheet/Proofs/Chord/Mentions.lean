import LeadSheet.Chord.Mention
import LeadSheet.Proofs.Scan

/-!
# Which mentions a text has

`mem_mentions` : a name is mentioned where it stands between brackets and every bracket opened before it
is closed before it. Names are looked for from left to right without overlap, so a bracket that is still
open takes the next closing one, and what is bracketed in between is not a mention.

`mem_chordsIn` : the chords of a text are the mentions that the database knows.
-/

namespace LeadSheet.Chord

open Text

/-! ## Looking for brackets -/

theorem mentions_of_unclosed {rest : List Char} (h : rest.dropWhile (· != ']') = []) :
    mentions ('[' :: rest) = [] := by
  rw [mentions]
  simp only [beq_self_eq_true, if_true]
  split
  · rfl
  · rename_i heq
    simp [h] at heq

theorem mentions_of_bracket {rest after : List Char} {close : Char} (h : rest.dropWhile (· != ']') = close :: after) :
    mentions ('[' :: rest) =
      if (rest.takeWhile (· != ']')).isEmpty then mentions after
      else rest.takeWhile (· != ']') :: mentions after := by
  rw [mentions]
  simp only [beq_self_eq_true, if_true]
  split
  · rename_i heq
    simp [h] at heq
  · rename_i heq
    rw [h] at heq
    rw [(List.cons.inj heq).2]

theorem mentions_of_ne {c : Char} (hc : c ≠ '[') (rest : List Char) : mentions (c :: rest) = mentions rest := by
  rw [mentions, if_neg (by simpa using hc)]

/-! ## Mentions -/

/-- Every bracket that is opened is closed later on. -/
def Closed (s : List Char) : Prop := ∀ a b, s = a ++ '[' :: b → ']' ∈ b

/-- The name stands between brackets in the text, after a part where every bracket is closed. -/
def Mentioned (name s : List Char) : Prop := ∃ a b, s = a ++ '[' :: name ++ ']' :: b ∧ Closed a

theorem closed_nil : Closed [] := by
  intro a b h
  simp at h

theorem Closed.of_append {s t : List Char} (h : Closed (s ++ t)) : Closed t := by
  intro a b ht
  exact h (s ++ a) b (by rw [ht, List.append_assoc])

theorem closed_cons {c : Char} (hc : c ≠ '[') {s : List Char} (h : Closed s) : Closed (c :: s) := by
  intro a b hs
  cases a with
  | nil => exact absurd (List.cons.inj hs).1 hc
  | cons d a => exact h a b (List.cons.inj hs).2

/-- A closing bracket closes all that comes before it. -/
theorem closed_append {s t : List Char} (h : Closed t) : Closed (s ++ ']' :: t) := by
  intro a b heq
  rcases List.append_eq_append_iff.mp heq with ⟨middle, -, hmiddle⟩ | ⟨middle, -, hb⟩
  · exact (closed_cons (by decide) h) middle b hmiddle
  · cases middle with
    | nil => exact absurd (List.cons.inj hb).1 (by decide)
    | cons c middle =>
        rw [(List.cons.inj hb).2]
        exact List.mem_append_right middle List.mem_cons_self

theorem mentioned_cons {c : Char} (hc : c ≠ '[') {name s : List Char} :
    Mentioned name (c :: s) ↔ Mentioned name s := by
  constructor
  · rintro ⟨a, b, h, ha⟩
    cases a with
    | nil => exact absurd (List.cons.inj h).1 hc
    | cons d a => exact ⟨a, b, (List.cons.inj h).2, ha.of_append (s := [d])⟩
  · rintro ⟨a, b, rfl, ha⟩
    exact ⟨c :: a, b, rfl, closed_cons hc ha⟩

/-- A bracket that nothing closes hides whatever follows it. -/
theorem not_mentioned {name s : List Char} (h : ']' ∉ s) : ¬ Mentioned name s := by
  rintro ⟨a, b, rfl, -⟩
  simp at h

/-- The first bracket of a text takes the next closing one. -/
theorem mentioned_bracket {name first s : List Char} (hname : ']' ∉ name) (hfirst : ']' ∉ first) :
    Mentioned name ('[' :: first ++ ']' :: s) ↔ name = first ∨ Mentioned name s := by
  constructor
  · rintro ⟨a, b, h, ha⟩
    cases a with
    | nil => exact Or.inl (append_mark_inj hname hfirst (List.cons.inj h).2.symm).1
    | cons c a =>
        obtain ⟨hc, htail⟩ := List.cons.inj h
        subst hc
        obtain ⟨front, back, rfl, hfront⟩ := List.eq_append_cons_of_mem (ha [] a rfl)
        have hsplit : first ++ ']' :: s = front ++ ']' :: (back ++ '[' :: name ++ ']' :: b) := by
          simpa using htail
        obtain ⟨-, hs⟩ := append_mark_inj hfirst hfront hsplit
        refine Or.inr ⟨back, b, hs, Closed.of_append (s := '[' :: front ++ [']']) ?_⟩
        simpa using ha
  · rintro (rfl | ⟨a, b, rfl, ha⟩)
    · exact ⟨[], s, rfl, closed_nil⟩
    · exact ⟨'[' :: first ++ ']' :: a, b, by simp, closed_append ha⟩

theorem bracket_split {c close : Char} {rest after : List Char} (hc : (c == '[') = true)
    (hdrop : rest.dropWhile (· != ']') = close :: after) :
    ']' ∉ rest.takeWhile (· != ']') ∧ c :: rest = '[' :: rest.takeWhile (· != ']') ++ ']' :: after := by
  obtain ⟨hclose, hrest⟩ := eq_takeWhile_append hdrop
  rw [bne_eq_false_iff_eq] at hclose
  rw [hclose] at hrest
  exact ⟨not_mem_takeWhile_ne ']', by rw [beq_iff_eq.mp hc, List.cons_append, ← hrest]⟩

/-- The mentions of a text. -/
theorem mem_mentions {name s : List Char} : name ∈ mentions s ↔ name ≠ [] ∧ ']' ∉ name ∧ Mentioned name s := by
  fun_induction mentions s with
  | case1 => simp [Mentioned]
  | case2 c rest hc hdrop =>
      have hopen : ']' ∉ c :: rest := by
        rw [List.mem_cons, not_or, beq_iff_eq.mp hc]
        exact ⟨by decide, fun h => by simpa using List.dropWhile_eq_nil_iff.mp hdrop ']' h⟩
      simp [not_mentioned hopen]
  | case3 c rest hc first close after hdrop _ hempty ih =>
      obtain ⟨hfirst, hsplit⟩ := bracket_split hc hdrop
      rw [ih, hsplit, show rest.takeWhile (· != ']') = [] from List.isEmpty_iff.mp hempty]
      constructor
      · rintro ⟨hne, hname, h⟩
        exact ⟨hne, hname, (mentioned_bracket hname (by simp)).mpr (Or.inr h)⟩
      · rintro ⟨hne, hname, h⟩
        exact ⟨hne, hname, ((mentioned_bracket hname (by simp)).mp h).resolve_left hne⟩
  | case4 c rest hc first close after hdrop _ hempty ih =>
      obtain ⟨hfirst, hsplit⟩ := bracket_split hc hdrop
      rw [List.mem_cons, ih, hsplit]
      constructor
      · rintro (rfl | ⟨hne, hname, h⟩)
        · exact ⟨by simpa using hempty, hfirst, (mentioned_bracket hfirst hfirst).mpr (Or.inl rfl)⟩
        · exact ⟨hne, hname, (mentioned_bracket hname hfirst).mpr (Or.inr h)⟩
      · rintro ⟨hne, hname, h⟩
        exact ((mentioned_bracket hname hfirst).mp h).imp_right fun h => ⟨hne, hname, h⟩
  | case5 c rest hc ih => rw [ih, mentioned_cons (by simpa using hc)]

/-! ## The chords of a text -/

theorem eq_of_not_precedes {s t : List Char} (h : precedes s t = false) (h' : precedes t s = false) : s = t := by
  induction s generalizing t with
  | nil =>
      cases t with
      | nil => rfl
      | cons d t => simp [precedes] at h
  | cons c s ih =>
      cases t with
      | nil => simp [precedes] at h'
      | cons d t =>
          simp only [precedes, Bool.or_eq_false_iff, decide_eq_false_iff_not, Char.not_lt] at h h'
          have hcd : c = d := Char.le_antisymm h'.1 h.1
          subst hcd
          rw [ih (by simpa using h.2) (by simpa using h'.2)]

theorem mem_insertSorted {name other : List Char} {names : List (List Char)} :
    other ∈ insertSorted name names ↔ other = name ∨ other ∈ names := by
  induction names with
  | nil => simp [insertSorted]
  | cons first names ih =>
      unfold insertSorted
      split
      · exact List.mem_cons
      · split
        · rw [List.mem_cons, ih, List.mem_cons]
          exact or_left_comm
        · rename_i h h'
          have hname : name = first := eq_of_not_precedes (by simpa using h) (by simpa using h')
          rw [hname, List.mem_cons, ← or_assoc, or_self]

theorem mem_sortDistinct {name : List Char} {names : List (List Char)} :
    name ∈ sortDistinct names ↔ name ∈ names := by
  have hfold : ∀ sorted : List (List Char),
      name ∈ names.foldl (fun sorted name => insertSorted name sorted) sorted ↔ name ∈ sorted ∨ name ∈ names := by
    induction names with
    | nil => simp
    | cons first names ih =>
        intro sorted
        rw [List.foldl_cons, ih, mem_insertSorted, List.mem_cons, or_assoc, or_left_comm]
  exact (hfold []).trans (by simp)

/-- The chords of a text are the mentions that the database knows. -/
theorem mem_chordsIn {db : Database} {name s : List Char} :
    name ∈ db.chordsIn s ↔ db.isChord name = true ∧ ']' ∉ name ∧ Mentioned name s := by
  have hne : db.isChord name = true → name ≠ [] := by
    rintro h rfl
    simp [Database.isChord, Database.findName?] at h
  rw [Database.chordsIn, mem_sortDistinct, List.mem_filter, mem_mentions]
  constructor
  · rintro ⟨⟨-, hname, h⟩, hchord⟩
    exact ⟨hchord, hname, h⟩
  · rintro ⟨hchord, hname, h⟩
    exact ⟨⟨hne hchord, hname, h⟩, hchord⟩

end LeadSheet.Chord
