import LeadSheet.Json.Reader

/-!
# Message templates

A message may be given as a template with places for arguments. A place is a percent sign, an optional
field name in parentheses, flags, a width, a precision, and a letter for the conversion; the width and
the precision may be arguments themselves, written as asterisks. Two percent signs stand for one. Places
take the arguments in order, or by name when the only argument is an object with fields; a place without
a name may then take the object itself, once. A template fits its arguments when every place finds one
of its kind and none is left over, and when no measure is out of bounds; a template that does not fit has
no message.

A template without arguments is the message as it stands.
-/

namespace LeadSheet.Log

inductive Conversion
  /-- As plain text. -/
  | plain
  /-- As messages show values. -/
  | shown
  /-- As messages show values, in ASCII. -/
  | shownAscii
  /-- As a whole number in base 8, 10 or 16. -/
  | whole (base : Nat) (upper : Bool)
  /-- As a decimal number: with digits after the point only, with an exponent, or as is shorter. -/
  | fixed (upper : Bool)
  | scientific (upper : Bool)
  | general (upper : Bool)
  /-- As one character, given by itself or by its number. -/
  | character
  deriving DecidableEq

inductive Measure
  | given (n : Nat)
  | argument
  deriving DecidableEq

/-- A place as it is written in a template. -/
structure Written where
  field : Option String
  flags : List Char
  width : Measure
  precision : Option Measure
  conversion : Conversion

structure Place where
  alternate : Bool
  zeros : Bool
  left : Bool
  space : Bool
  plus : Bool
  width : Nat
  precision : Option Nat
  conversion : Conversion

inductive Arguments
  | positional (rest : List Json)
  /-- `whole` says whether the object itself can still be taken. -/
  | named (fields : List (String × Json)) (whole : Bool)

namespace Arguments

/-- A single object with fields gives its fields names. -/
def ofList : List Json → Arguments
  | [.object (field :: fields)] => named (field :: fields) true
  | arguments => positional arguments

/-- Takes an argument, by name or the next one. -/
def take (field : Option String) : Arguments → Option (Json × Arguments)
  | named fields whole =>
    match field with
    | some name => (fields.lookup name).map fun value => (value, named fields false)
    | none => if whole then some (.object fields, named fields false) else none
  | positional rest =>
    match field, rest with
    | none, value :: rest => some (value, positional rest)
    | _, _ => none

/-- Takes a width or a precision, which is the next positional argument and a whole number. -/
def takeMeasure : Arguments → Option (Int × Arguments)
  | positional (.int n :: rest) => some (n, positional rest)
  | positional (.bool b :: rest) => some (if b then 1 else 0, positional rest)
  | _ => none

def isUsedUp : Arguments → Bool
  | positional rest => rest.isEmpty
  | named _ _ => true

end Arguments

/-! ## Writing one argument -/

/-- Fills a text up to the width of a place. -/
def Place.pad (p : Place) (s : List Char) : List Char :=
  let filling := List.replicate (p.width - s.length) ' '
  if p.left then s ++ filling else filling ++ s

def Place.sign (p : Place) (negative : Bool) : List Char :=
  if negative then ['-'] else if p.plus then ['+'] else if p.space then [' '] else []

/-- Fills a number up to the width of a place; zeros go between what is before its digits and these. -/
def Place.padNumber (p : Place) (head digits : List Char) : List Char :=
  if p.zeros && !p.left then
    head ++ List.replicate (p.width - head.length - digits.length) '0' ++ digits
  else p.pad (head ++ digits)

/-- Digits in upper case on demand. -/
def raise (upper : Bool) (digits : List Char) : List Char :=
  if upper then digits.map Char.toUpper else digits

/-- The longest filling. Texts that would need more do not fit in memory. -/
def fillLimit : Nat := 10000000

/-- The number of digits that a number is filled up to, unless they are too many. -/
def Place.filling? (p : Place) (standard : Nat) : Option Nat :=
  (some (p.precision.getD standard)).filter (· ≤ fillLimit)

def Place.number? (p : Place) (base : Nat) (upper : Bool) (n : Int) : Option (List Char) :=
  (p.filling? 0).map fun count =>
    let digits := raise upper (Nat.toDigits base n.natAbs)
    let digits := List.replicate (count - digits.length) '0' ++ digits
    let mark :=
      if !p.alternate || base = 10 then []
      else if base = 8 then ['0', 'o']
      else if upper then ['0', 'X'] else ['0', 'x']
    p.padNumber (p.sign (n < 0) ++ mark) digits

/-- The number of digits of a double where the place names none. -/
def standardPrecision : Nat := 6

/-- A double at a place, its digits written by `digits` with the place's precision. Numbers that are
`filled` have all the digits of the precision, whatever their value. -/
def Place.decimal? (p : Place) (upper filled : Bool) (digits : Bool → Nat → Nat → Int → String)
    (x : Float) : Option (List Char) :=
  match Numeric.Binary64.ofFloat x with
  | .nan => some (p.padNumber (p.sign false) (raise upper "nan".toList))
  | .infinity negative => some (p.padNumber (p.sign negative) (raise upper "inf".toList))
  | .finite negative significand exponent =>
    let count := if filled then p.filling? standardPrecision
      else some (p.precision.getD standardPrecision)
    count.map fun n =>
      p.padNumber (p.sign negative)
        (raise upper (digits p.alternate n significand exponent).toList)

/-- The double of a number; a whole number may be too large for one. -/
def doubleOf? : Json → Option Float
  | .int n =>
    let x := Numeric.floatOfInt n
    match Numeric.Binary64.ofFloat x with
    | .finite .. => some x
    | _ => none
  | .bool b => some (if b then 1 else 0)
  | .float x => some x
  | _ => none

def wholePart (x : Float) : Option Int :=
  match Numeric.Binary64.ofFloat x with
  | .finite negative significand exponent =>
    let (p, q) := Numeric.scaleTwo significand 1 exponent
    let n : Int := p / q
    some (if negative then -n else n)
  | _ => none

/-- A character in ASCII: any other one is written by its number. -/
def asciiChar (c : Char) : List Char :=
  if c.toNat < 0x80 then [c]
  else if c.toNat ≤ 0xff then '\\' :: 'x' :: Text.hexNumber 2 c.toNat
  else if c.toNat ≤ 0xffff then '\\' :: 'u' :: Text.hexNumber 4 c.toNat
  else '\\' :: 'U' :: Text.hexNumber 8 c.toNat

/-- An argument at a place, if it is of the place's kind and not too long. -/
def Place.write? (p : Place) (value : Json) : Option (List Char) :=
  let cut := fun s : List Char => match p.precision with
    | some n => s.take n
    | none => s
  match p.conversion, value with
  | .plain, value => some (p.pad (cut value.plain.toList))
  | .shown, value => some (p.pad (cut value.display.toList))
  | .shownAscii, value => some (p.pad (cut (value.display.toList.flatMap asciiChar)))
  | .whole base upper, .int n => p.number? base upper n
  | .whole base upper, .bool b => p.number? base upper (if b then 1 else 0)
  | .whole 10 upper, .float x => (wholePart x).bind (p.number? 10 upper)
  | .fixed upper, value => (doubleOf? value).bind (p.decimal? upper true Numeric.fixedText)
  | .scientific upper, value => (doubleOf? value).bind (p.decimal? upper true Numeric.scientificText)
  | .general upper, value => (doubleOf? value).bind (p.decimal? upper p.alternate Numeric.generalText)
  | .character, .int n => if 0 ≤ n ∧ n < 0x110000 then some (p.pad [Json.scalar n.toNat]) else none
  | .character, .bool b => some (p.pad [if b then '\x01' else '\x00'])
  | .character, .text s => if s.length = 1 then some (p.pad s.toList) else none
  | _, _ => none

/-! ## Reading a place -/

def conversion? : Char → Option Conversion
  | 's' => some .plain
  | 'r' => some .shown
  | 'a' => some .shownAscii
  | 'd' | 'i' | 'u' => some (.whole 10 false)
  | 'o' => some (.whole 8 false)
  | 'x' => some (.whole 16 false)
  | 'X' => some (.whole 16 true)
  | 'f' => some (.fixed false)
  | 'F' => some (.fixed true)
  | 'e' => some (.scientific false)
  | 'E' => some (.scientific true)
  | 'g' => some (.general false)
  | 'G' => some (.general true)
  | 'c' => some .character
  | _ => none

def readMeasure : List Char → Measure × List Char
  | '*' :: rest => (.argument, rest)
  | s =>
    let digits := s.takeWhile Text.isAsciiDigit
    (.given (Json.decimalValue digits), s.drop digits.length)

/-- The text up to the parenthesis that closes the first one, and what follows; `depth` counts the
parentheses that are open inside. -/
def closeField? (depth : Nat) : List Char → Option (List Char × List Char)
  | [] => none
  | ')' :: rest =>
    match depth with
    | 0 => some ([], rest)
    | depth + 1 => (closeField? depth rest).map fun (name, after) => (')' :: name, after)
  | c :: rest =>
    (closeField? (if c = '(' then depth + 1 else depth) rest).map fun (name, after) => (c :: name, after)

/-- Drops a letter that tells the size of a number and has no meaning here. -/
def dropSizeLetter : List Char → List Char
  | c :: rest => if c = 'h' ∨ c = 'l' ∨ c = 'L' then rest else c :: rest
  | [] => []

/-- Reads a place that begins after its percent sign. -/
def readPlace? (s : List Char) : Option (Written × List Char) := do
  let (field, s) ← match s with
    | '(' :: rest => (closeField? 0 rest).map fun (name, after) => (some (String.ofList name), after)
    | _ => some (none, s)
  let flags := s.takeWhile (['#', '0', '-', ' ', '+'].contains ·)
  let (width, s) := readMeasure (s.drop flags.length)
  let (precision, s) := match s with
    | '.' :: rest =>
      let (n, s) := readMeasure rest
      (some n, s)
    | _ => (none, s)
  match dropSizeLetter s with
  | letter :: rest =>
    let conversion ← conversion? letter
    some (⟨field, flags, width, precision, conversion⟩, rest)
  | [] => none

/-- The least width of 64 bits, which has no opposite and asks for no filling. -/
def leastWidth : Int := -0x8000000000000000

/-- The largest precision: precisions have 32 bits. -/
def precisionLimit : Int := 0x7fffffff

/-- The width of a place, and whether it asks for filling on the right, as a negative one does. -/
def widthOf? (n : Int) : Option (Nat × Bool) :=
  if n = leastWidth then some (0, true)
  else if n.natAbs ≤ fillLimit then some (n.natAbs, n < 0)
  else none

/-- The precision of a place. A negative one is zero. -/
def precisionOf? (n : Int) : Option Nat :=
  if -precisionLimit - 1 ≤ n ∧ n ≤ precisionLimit then some n.toNat else none

/-- Finds out the measures of a place. -/
def Written.measure (w : Written) (arguments : Arguments) : Option (Place × Arguments) := do
  let (n, arguments) ← match w.width with
    | .given n => some ((n : Int), arguments)
    | .argument => arguments.takeMeasure
  let (width, left) ← widthOf? n
  let (precision, arguments) ← match w.precision with
    | none => some (none, arguments)
    | some (.given n) => (precisionOf? n).map fun n => (some n, arguments)
    | some .argument => do
      let (n, arguments) ← arguments.takeMeasure
      (precisionOf? n).map fun n => (some n, arguments)
  some (⟨w.flags.contains '#', w.flags.contains '0', w.flags.contains '-' || left,
    w.flags.contains ' ', w.flags.contains '+', width, precision, w.conversion⟩, arguments)

/-- Fills the places of a template; the first argument bounds the number of steps. -/
def fillPlaces : Nat → List Char → Arguments → Option (List Char)
  | 0, _, _ => none
  | _ + 1, [], arguments => if arguments.isUsedUp then some [] else none
  | steps + 1, '%' :: '%' :: rest, arguments => (fillPlaces steps rest arguments).map ('%' :: ·)
  | steps + 1, '%' :: rest, arguments => do
    let (written, rest) ← readPlace? rest
    let (place, arguments) ← written.measure arguments
    let (value, arguments) ← arguments.take written.field
    let text ← place.write? value
    (fillPlaces steps rest arguments).map (text ++ ·)
  | steps + 1, c :: rest, arguments => (fillPlaces steps rest arguments).map (c :: ·)

def fillTemplate? (template : String) (arguments : List Json) : Option String :=
  if arguments.isEmpty then some template
  else
    (fillPlaces (template.length + 1) template.toList (.ofList arguments)).map String.ofList

end LeadSheet.Log
