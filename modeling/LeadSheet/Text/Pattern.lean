import LeadSheet.Text.Scan

/-!
# Rewriting a text by a pattern

A text is rewritten from left to right. At each place a pattern is tried, and what it finds is replaced;
a character where it finds nothing stays. Reading goes on behind what was found, so matches do not
overlap. A pattern sees the character before the place, and nothing else of what was read.
-/

namespace LeadSheet.Text

/-- What follows the characters `mark`, if the text begins with them. -/
def dropMark? : (mark s : List Char) → Option (List Char)
  | [], s => some s
  | c :: mark, d :: s => if c = d then dropMark? mark s else none
  | _ :: _, [] => none

theorem length_dropMark? {mark s rest : List Char} (h : dropMark? mark s = some rest) :
    rest.length + mark.length = s.length := by
  fun_induction dropMark? mark s with
  | case1 s => simp_all
  | case2 mark d s ih =>
    have := ih h
    simp only [List.length_cons]
    omega
  | case3 => simp at h
  | case4 => simp at h

/-- What is looked for at the head of a text: given the character before it, what is found there and what
follows. Something is read of the text whenever anything is found. -/
structure Pattern (α : Type) where
  find? : Option Char → List Char → Option (α × List Char)
  shorter {before : Option Char} {s after : List Char} {found : α} :
    find? before s = some (found, after) → after.length < s.length

namespace Pattern

variable {α : Type} {m : Type → Type} [Monad m]

/-- The last character of a text before its end `after`. -/
def lastBefore (s after : List Char) : Option Char := (s.take (s.length - after.length)).getLast?

/-- The text with `put found` in the place of whatever is found; `before` is the character that comes
before it. -/
def sub (p : Pattern α) (put : α → m (List Char)) (before : Option Char) (s : List Char) : m (List Char) :=
  match s with
  | [] => pure []
  | c :: rest =>
    match h : p.find? before (c :: rest) with
    | some (found, after) => do
      let replaced ← put found
      return replaced ++ (← p.sub put (lastBefore (c :: rest) after) after)
    | none => do return c :: (← p.sub put (some c) rest)
termination_by s.length
decreasing_by
  · exact p.shorter h
  · exact Nat.lt_succ_self _

end Pattern

end LeadSheet.Text
