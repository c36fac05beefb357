import LeadSheet.Text.Space

/-!
# Lines

Several conventions on where a line ends meet in a song. Files and song bodies know LF, CRLF and CR,
all read as LF by `unixLines`. The front matter
is delimited by lines that end in LF or CRLF. Inside the front matter any Unicode line boundary ends a
field, and a boundary at the very end opens no further line: `boundaryLines`.
-/

namespace LeadSheet.Text

/-- Every line end, LF, CRLF or CR, written as LF. -/
def unixLines : List Char → List Char
  | [] => []
  | '\r' :: '\n' :: rest => '\n' :: unixLines rest
  | '\r' :: rest => '\n' :: unixLines rest
  | c :: rest => c :: unixLines rest

/-- Cuts a list at every separator. There is one part more than there are separators. -/
def cutAt {α : Type} (isCut : α → Bool) : List α → List (List α)
  | [] => [[]]
  | a :: rest =>
    if isCut a then [] :: cutAt isCut rest
    else
      match cutAt isCut rest with
      | [] => [[a]]
      | part :: parts => (a :: part) :: parts

def lines (s : List Char) : List (List Char) := cutAt (· == '\n') s

/-- Lines put back together with an LF between neighbours. -/
def joinLines (ls : List (List Char)) : List Char := List.intercalate ['\n'] ls

/-- The characters that end a line by Unicode's rules. -/
def isLineBoundary (c : Char) : Bool :=
  c ∈ ['\n', '\x0b', '\x0c', '\r', '\x1c', '\x1d', '\x1e', '\u0085', '\u2028', '\u2029']

/-- The lines of a text by Unicode's line boundaries; `line` is what the current one holds so far, in
reverse, and `none` between a boundary and the next character. -/
def boundaryLinesFrom (line : Option (List Char)) : List Char → List (List Char)
  | [] => match line with
    | none => []
    | some l => [l.reverse]
  | '\r' :: '\n' :: rest => (line.getD []).reverse :: boundaryLinesFrom none rest
  | c :: rest =>
    if isLineBoundary c then (line.getD []).reverse :: boundaryLinesFrom none rest
    else boundaryLinesFrom (some (c :: line.getD [])) rest

/-- The lines of a text by Unicode's line boundaries, CRLF counting as one. -/
def boundaryLines (s : List Char) : List (List Char) := boundaryLinesFrom none s

theorem cutAt_ne_nil {α : Type} (isCut : α → Bool) (s : List α) : cutAt isCut s ≠ [] := by
  cases s with
  | nil => simp [cutAt]
  | cons a rest =>
    simp only [cutAt]
    split
    · simp
    · split <;> simp

/-- Cutting loses nothing but the separators. -/
theorem joinLines_lines (s : List Char) : joinLines (lines s) = s := by
  have key : ∀ s : List Char, joinLines (cutAt (· == '\n') s) = s := by
    intro s
    induction s with
    | nil => rfl
    | cons c rest ih =>
      simp only [cutAt]
      have hne := cutAt_ne_nil (· == '\n') rest
      split
      · rename_i h
        have hc : c = '\n' := by simpa using h
        subst hc
        cases hr : cutAt (· == '\n') rest with
        | nil => exact absurd hr hne
        | cons p ps =>
          rw [hr] at ih
          simpa [joinLines, List.intercalate, List.intersperse] using ih
      · cases hr : cutAt (· == '\n') rest with
        | nil => exact absurd hr hne
        | cons p ps =>
          rw [hr] at ih
          cases ps with
          | nil => simpa [joinLines, List.intercalate, List.intersperse] using ih
          | cons q qs => simpa [joinLines, List.intercalate, List.intersperse] using ih
  exact key s

end LeadSheet.Text
