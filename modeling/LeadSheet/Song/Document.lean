import LeadSheet.Dictionary
import LeadSheet.Text.Lines
import LeadSheet.Text.Scan

/-!
# Front matter and body of a song

A song may open with a block of fields between two lines of three hyphens. The opening delimiter is the
first line; the block runs to the first delimiter that comes after at least one more line, and only
when there is none may the second line itself close it, which leaves the block empty. A song without
such a block is all body. Delimiter lines end in LF or CRLF; inside the block every Unicode line
boundary ends a field.

A body is kept without the blank lines before it and without the white space after it, so that trimming
is idempotent and the indentation of its first line survives.
-/

namespace LeadSheet

open Text

namespace Body

/-- Drops the leading lines that hold blanks only and end in LF or CRLF. -/
def dropBlankLines (s : List Char) : List Char :=
  match h : s.dropWhile isBlank with
  | '\n' :: rest =>
    have : rest.length < s.length := length_lt_of_dropWhile (List.cons_ne_nil '\n' []) h
    dropBlankLines rest
  | '\r' :: '\n' :: rest =>
    have : rest.length < s.length := length_lt_of_dropWhile (List.cons_ne_nil '\r' ['\n']) h
    dropBlankLines rest
  | _ => s
termination_by s.length

/-- A body without leading blank lines and trailing white space. -/
def trimChars (s : List Char) : List Char := trimEnd (dropBlankLines s)

def trim (s : String) : String := String.ofList (trimChars s.toList)

end Body

namespace Metadata

/-- The parts of a text before and after the first colon. -/
def splitColon? (line : List Char) : Option (List Char × List Char) :=
  match line.dropWhile (· != ':') with
  | [] => none
  | _ :: after => some (line.takeWhile (· != ':'), after)

/-- Takes off one pair of equal quotes around a value. -/
def unquote (value : List Char) : List Char :=
  match value with
  | q :: rest =>
    if (q == '"' || q == '\'') && rest.getLast? == some q then rest.dropLast else value
  | [] => []

/-- The field that a line states. A field has a key and a value, neither of them empty. -/
def field? (line : List Char) : Option (String × String) := do
  let (before, after) ← splitColon? line
  let key := Text.trim before
  let value := unquote (Text.trim after)
  if key.isEmpty || value.isEmpty then none
  else some (String.ofList key, String.ofList value)

/-- The fields of a block. -/
def parseChars (block : List Char) : List (String × String) :=
  Dictionary.ofPairs ((boundaryLines block).filterMap field?)

def parse (block : String) : List (String × String) := parseChars block.toList

end Metadata

/-- A song in its two parts: fields with distinct keys, and a trimmed body. -/
structure Document where
  metadata : List (String × String)
  body : String
  deriving DecidableEq

namespace Document

/-- The line, without its LF, is a delimiter: three hyphens and blanks. Where an LF follows, a CR before
it belongs to the line's end. -/
def isDelimiter (ended : Bool) : List Char → Bool
  | '-' :: '-' :: '-' :: rest =>
    match rest.dropWhile isBlank with
    | [] => true
    | ['\r'] => ended
    | _ => false
  | _ => false

/-- The index of the first delimiter. Every line but the last is ended by an LF. -/
def delimiterIndex? : List (List Char) → Option Nat
  | [] => none
  | line :: rest =>
    if isDelimiter (!rest.isEmpty) line then some 0 else (delimiterIndex? rest).map (· + 1)

/-- The index of the line that closes the block, among the lines after the opening delimiter: the first
delimiter past the first of them, or else that first line. -/
def closingIndex? : List (List Char) → Option Nat
  | [] => none
  | line :: rest =>
    match delimiterIndex? rest with
    | some k => some (k + 1)
    | none => if isDelimiter (!rest.isEmpty) line then some 0 else none

/-- The lines of the block and the lines after it. -/
def split? (text : List Char) : Option (List (List Char) × List (List Char)) :=
  match lines text with
  | [] => none
  | opening :: rest =>
    if isDelimiter (!rest.isEmpty) opening then
      (closingIndex? rest).map fun k => (rest.take k, rest.drop (k + 1))
    else none

def parse (text : String) : Document :=
  match split? text.toList with
  | none => ⟨[], Body.trim text⟩
  | some (block, body) =>
    ⟨Metadata.parseChars (joinLines block), String.ofList (Body.trimChars (joinLines body))⟩

end Document

end LeadSheet
