import LeadSheet.Markup.Html
import LeadSheet.Text.Space
import LeadSheet.Text.Word

/-!
# Text that is being marked up

The rules of the markup work on a line that is a list of pieces. A piece is a character of the song, a
tag that an earlier rule has set, or a literal: a stretch that no later rule may look into. A tag and a
literal are opaque. They count as one thing that is neither white space nor part of a word nor any of
the characters that have a meaning in the markup.

Every literal of a document has a number of its own. The number has one use: a chord name is looked up
by its source text, in which a literal stands as a mark with its number. No text of a song reads like
such a mark, because in a source text `<` is escaped.
-/

namespace LeadSheet.Markup

/-- A piece of a line. -/
inductive Piece
  | char (c : Char)
  | tag (t : Tag)
  | literal (number : Nat) (content : List Token)
  deriving DecidableEq

/-- The parts of a line. -/
abbrev Line := List Piece

namespace Piece

/-- The piece is a character that satisfies `p`. -/
def sat (p : Char → Bool) : Piece → Bool
  | char c => p c
  | _ => false

/-- The piece is the character `c`. -/
def is (c : Char) : Piece → Bool := sat (· == c)

/-- The piece is not a character, or one that satisfies `p`. -/
def opaqueOr (p : Char → Bool) : Piece → Bool
  | char c => p c
  | _ => true

/-- What a chord name reads like where the piece stands in it. -/
def source : Piece → List Char
  | char c => Text.escapeChar c
  | tag t => t.text
  | literal number _ => "<!--inline:".toList ++ Nat.toDigits 10 number ++ "-->".toList

def tokens : Piece → List Token
  | char c => [.char c]
  | tag t => [.tag t]
  | literal _ content => content

end Piece

namespace Line

/-- The characters of a song as pieces. -/
def ofChars (s : List Char) : Line := s.map .char

def source (line : Line) : List Char := line.flatMap Piece.source

def tokens (line : Line) : List Token := line.flatMap Piece.tokens

def dropBlanks (line : Line) : Line := line.dropWhile (Piece.sat Text.isBlank)

def dropEndBlanks (line : Line) : Line := Text.dropEndWhile (Piece.sat Text.isBlank) line

def trim (line : Line) : Line :=
  Text.dropEndWhile (Piece.sat Text.isSpace) (line.dropWhile (Piece.sat Text.isSpace))

/-- Nothing but white space. -/
def isEmptyLine (line : Line) : Bool := line.all (Piece.sat Text.isSpace)

/-- The longest run of characters that satisfy `p`, and what follows it. -/
def spanChars (p : Char → Bool) : Line → List Char × Line
  | .char c :: rest =>
    if p c then
      let (run, after) := spanChars p rest
      (c :: run, after)
    else ([], .char c :: rest)
  | line => ([], line)

/-- What follows the characters `mark`, if the line begins with them. -/
def dropMark? : (mark : List Char) → Line → Option Line
  | [], line => some line
  | c :: mark, .char d :: rest => if c = d then dropMark? mark rest else none
  | _ :: _, _ => none

theorem length_spanChars_le (p : Char → Bool) (line : Line) :
    (spanChars p line).2.length ≤ line.length := by
  fun_induction spanChars p line with
  | case1 c rest _ run after h ih =>
    simp only [h, List.length_cons] at ih ⊢
    omega
  | case2 => simp
  | case3 => simp

theorem length_dropMark? {mark : List Char} {line rest : Line} (h : dropMark? mark line = some rest) :
    rest.length + mark.length = line.length := by
  induction mark generalizing line with
  | nil => simp_all [dropMark?]
  | cons c mark ih =>
    match line with
    | [] => simp [dropMark?] at h
    | .tag _ :: _ => simp [dropMark?] at h
    | .literal _ _ :: _ => simp [dropMark?] at h
    | .char d :: tail =>
      simp only [dropMark?] at h
      split at h
      · have := ih h
        simp only [List.length_cons]
        omega
      · simp at h

end Line

end LeadSheet.Markup
