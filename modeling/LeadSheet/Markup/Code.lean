import LeadSheet.Markup.Piece
import LeadSheet.Text.Lines
import LeadSheet.Text.Scan

/-!
# Code

Code is set apart before any other rule sees the text. A fence is a line of three backticks, which may
name a language and carry any further text; it opens a block that reaches to the nearest later line of
three backticks alone. A fence that nothing closes is an ordinary line. Inside the other lines, a run
between two backticks is a code span. Spans are literals, numbered in order through the whole body.
-/

namespace LeadSheet.Markup

open Text

def isLanguageChar (c : Char) : Bool := isWord c || c == '+' || c == '#' || c == '.' || c == '-'

/-- What follows the three backticks that a line begins with, blanks aside. -/
def afterFence? (line : List Char) : Option (List Char) :=
  match line.dropWhile isBlank with
  | '`' :: '`' :: '`' :: rest => some (rest.dropWhile isBlank)
  | _ => none

/-- The language that an opening fence names; it may be empty. -/
def fenceLanguage? (line : List Char) : Option (List Char) :=
  (afterFence? line).map (·.takeWhile isLanguageChar)

def closesFence (line : List Char) : Bool :=
  match afterFence? line with
  | some [] => true
  | _ => false

/-- A body after its code blocks are set apart: `α` is what an ordinary line holds. -/
inductive Source (α : Type)
  | line (content : α)
  | fence (language : List Char) (code : List Char)

/-- The code of a block: its lines without the line ends that close it. -/
def fencedCode (inner : List (List Char)) : List Char :=
  dropEndWhile (· == '\n') (joinLines inner)

def setFences : List (List Char) → List (Source (List Char))
  | [] => []
  | line :: rest =>
    match fenceLanguage? line with
    | none => .line line :: setFences rest
    | some language =>
      match h : rest.dropWhile (!closesFence ·) with
      | [] => .line line :: setFences rest
      | _ :: after =>
        have := Text.length_lt_of_dropWhile_cons h
        .fence language (fencedCode (rest.takeWhile (!closesFence ·))) :: setFences after
termination_by lines => lines.length
decreasing_by all_goals simp only [List.length_cons]; omega

def codeSpan (code : List Char) : List Token := Token.element (.code []) (Token.ofChars code)

/-- Sets the code spans of a line apart, the first of which has the number `n`. Gives the pieces and the
next free number. -/
def setSpans (n : Nat) (s : List Char) : Line × Nat :=
  match s with
  | [] => ([], n)
  | c :: rest =>
    if c == '`' && !(rest.takeWhile (· != '`')).isEmpty then
      match h : rest.dropWhile (· != '`') with
      | [] => (Line.ofChars (c :: rest), n)
      | _ :: after =>
        have := Text.length_lt_of_dropWhile_cons h
        let (pieces, m) := setSpans (n + 1) after
        (.literal n (codeSpan (rest.takeWhile (· != '`'))) :: pieces, m)
    else
      let (pieces, m) := setSpans n rest
      (.char c :: pieces, m)
termination_by s.length

/-- Sets the code spans of all lines apart. -/
def setAllSpans (n : Nat) : List (Source (List Char)) → List (Source Line) × Nat
  | [] => ([], n)
  | .fence language code :: rest =>
    let (lines, m) := setAllSpans n rest
    (.fence language code :: lines, m)
  | .line s :: rest =>
    let (line, m) := setSpans n s
    let (lines, m) := setAllSpans m rest
    (.line line :: lines, m)

/-- The lines of a body with its code set apart, and the number of code spans. -/
def setCode (body : List Char) : List (Source Line) × Nat :=
  setAllSpans 0 (setFences (lines (unixLines body)))

end LeadSheet.Markup
