import LeadSheet.Text.Ranges

/-!
# White space

Two notions are in use. A *blank* is a space or a tab: it indents a line and pads its parts. *White
space* is Unicode's property of that name together with the four information separators, and is what
stripping a text removes and what an empty line consists of. Every blank is white space.
-/

namespace LeadSheet.Text

/-- A space or a tab. -/
def isBlank (c : Char) : Bool := c == ' ' || c == '\t'

/-- The intervals of white space. -/
def spaceRanges : Ranges :=
  [(0x9, 0xd), (0x1c, 0x20), (0x85, 0x85), (0xa0, 0xa0), (0x1680, 0x1680), (0x2000, 0x200a),
   (0x2028, 0x2029), (0x202f, 0x202f), (0x205f, 0x205f), (0x3000, 0x3000)]

/-- White space: Unicode's property, and the separators U+001C to U+001F. -/
def isSpace (c : Char) : Bool := spaceRanges.contains c

theorem isSpace_of_isBlank {c : Char} (h : isBlank c = true) : isSpace c = true := by
  simp only [isBlank, Bool.or_eq_true, beq_iff_eq] at h
  rcases h with rfl | rfl <;> decide

/-- Drops the trailing elements that satisfy `p`. -/
def dropEndWhile {α : Type} (p : α → Bool) (s : List α) : List α :=
  (s.reverse.dropWhile p).reverse

def trimStart (s : List Char) : List Char := s.dropWhile isSpace

def trimEnd (s : List Char) : List Char := dropEndWhile isSpace s

def trim (s : List Char) : List Char := trimEnd (trimStart s)

end LeadSheet.Text
