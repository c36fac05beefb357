import LeadSheet.Text.Printable

/-!
# Quoted texts in messages

A message shows a text between single quotes, or between double quotes when the text holds a single
quote and no double one. The quote in use and the backslash are written after a backslash; so are tab,
line feed and carriage return, by a letter; any other character that does not print is written by its
number, in as few of two, four or eight hexadecimal digits as it fits.
-/

namespace LeadSheet.Text

/-- The number in lower-case hexadecimal, with zeros in front up to `width` digits. -/
def hexNumber (width n : Nat) : List Char :=
  let digits := Nat.toDigits 16 n
  List.replicate (width - digits.length) '0' ++ digits

def quoteChar (quote c : Char) : List Char :=
  if c == quote || c == '\\' then ['\\', c]
  else if c == '\t' then ['\\', 't']
  else if c == '\n' then ['\\', 'n']
  else if c == '\r' then ['\\', 'r']
  else if isPrintable c then [c]
  else if c.toNat ≤ 0xff then '\\' :: 'x' :: hexNumber 2 c.toNat
  else if c.toNat ≤ 0xffff then '\\' :: 'u' :: hexNumber 4 c.toNat
  else '\\' :: 'U' :: hexNumber 8 c.toNat

/-- The quote that a text is shown in. -/
def quoteFor (s : List Char) : Char :=
  if s.contains '\'' && !s.contains '"' then '"' else '\''

/-- The text between quotes. -/
def quoted (s : List Char) : List Char :=
  let quote := quoteFor s
  quote :: s.flatMap (quoteChar quote) ++ [quote]

def quotedString (s : String) : String := String.ofList (quoted s.toList)

end LeadSheet.Text
