/-!
# Why a text is not JSON

A fault is reported with its position three times over: the line, the column in it, and the number of
characters before it. Lines end at LF.
-/

namespace LeadSheet.Json

/-- What is wrong at a place in a JSON text. -/
inductive Fault
  | expectingValue
  | expectingKey
  | expectingColon
  | expectingComma
  | unterminatedString
  | controlCharacter
  | invalidEscape
  | invalidUnicodeEscape
  | extraData
  | byteOrderMark
  deriving DecidableEq

namespace Fault

def message : Fault → String
  | expectingValue => "Expecting value"
  | expectingKey => "Expecting property name enclosed in double quotes"
  | expectingColon => "Expecting ':' delimiter"
  | expectingComma => "Expecting ',' delimiter"
  | unterminatedString => "Unterminated string starting at"
  | controlCharacter => "Invalid control character at"
  | invalidEscape => "Invalid \\escape"
  | invalidUnicodeEscape => "Invalid \\uXXXX escape"
  | extraData => "Extra data"
  | byteOrderMark => "Unexpected UTF-8 BOM (decode using utf-8-sig)"

end Fault

/-- Why a text does not decode. -/
inductive Error
  /-- The text is not JSON; `position` counts the characters before the fault. -/
  | malformed (fault : Fault) (position : Nat)
  /-- A whole number has more digits than are converted. -/
  | tooManyDigits (count : Nat)
  deriving DecidableEq

/-- The greatest number of digits of a whole number. -/
def digitLimit : Nat := 4300

namespace Error

/-- The error in words; `text` is the text that does not decode. -/
def message (text : List Char) : Error → String
  | malformed fault position =>
    let before := text.take position
    let line := before.count '\n' + 1
    let column := (before.reverse.takeWhile (· != '\n')).length + 1
    s!"{fault.message}: line {line} column {column} (char {position})"
  | tooManyDigits count =>
    s!"Exceeds the limit ({digitLimit} digits) for integer string conversion: " ++
      s!"value has {count} digits; use sys.set_int_max_str_digits() to increase the limit"

end Error

end LeadSheet.Json
