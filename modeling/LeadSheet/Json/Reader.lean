import LeadSheet.Dictionary
import LeadSheet.Json.Error
import LeadSheet.Json.Value
import LeadSheet.Text.Digit

/-!
# Reading JSON

The reader walks a text once and stops at the first fault. It takes one thing that the standard does
not: the names `NaN`, `Infinity` and `-Infinity` as numbers. A number is the longest one that can be
read: `1.` is the number `1` and a point that is left over.
-/

namespace LeadSheet.Json

/-- What is still to be read, and how many characters come before it. -/
structure Cursor where
  position : Nat
  rest : List Char

namespace Cursor

/-- Refuses the text where the cursor stands. -/
def refuse {α : Type} (c : Cursor) (fault : Fault) : Except Error α :=
  .error (.malformed fault c.position)

def advance (c : Cursor) (n : Nat) : Cursor := ⟨c.position + n, c.rest.drop n⟩

def isSpacing (ch : Char) : Bool := ch ∈ [' ', '\t', '\n', '\r']

def skipSpacing (c : Cursor) : Cursor := c.advance (c.rest.takeWhile isSpacing).length

end Cursor

/-! ## Texts -/

/-- The value of four hexadecimal digits. -/
def hexQuad? (a b c d : Char) : Option Nat := do
  let digit := fun ch : Char => if Text.isAsciiHexDigit ch then Text.hexValue? ch else none
  pure ((← digit a) * 0x1000 + (← digit b) * 0x100 + (← digit c) * 0x10 + (← digit d))

/-- The character that a backslash and a letter stand for. -/
def escapedChar? : Char → Option Char
  | '"' => some '"'
  | '\\' => some '\\'
  | '/' => some '/'
  | 'b' => some '\x08'
  | 'f' => some '\x0c'
  | 'n' => some '\n'
  | 'r' => some '\r'
  | 't' => some '\t'
  | _ => none

/-- The number is the first half of a surrogate pair. -/
def isHighSurrogate (n : Nat) : Bool := 0xD800 ≤ n && n ≤ 0xDBFF

/-- The number is the second half of a surrogate pair. -/
def isLowSurrogate (n : Nat) : Bool := 0xDC00 ≤ n && n ≤ 0xDFFF

/-- The character of a code point; a lone surrogate is replaced. -/
def scalar (n : Nat) : Char :=
  if isHighSurrogate n || isLowSurrogate n then '\uFFFD' else Char.ofNat n

/-- The second half of a surrogate pair, when it follows. At least one character must come after it. -/
def lowSurrogate? (position : Nat) : List Char → Except Error (Option Nat)
  | '\\' :: 'u' :: a :: b :: c :: d :: _ :: _ =>
    match hexQuad? a b c d with
    | none => .error (.malformed .invalidUnicodeEscape (position + 1))
    | some n => .ok (if isLowSurrogate n then some n else none)
  | _ => .ok none

/-- Reads the rest of a text that began at `start`; `done` holds its characters so far, last one
first. -/
def readText (start position : Nat) (done : List Char) (s : List Char) : Except Error (String × Cursor) :=
  match s with
  | [] => .error (.malformed .unterminatedString start)
  | '"' :: rest => .ok (String.ofList done.reverse, ⟨position + 1, rest⟩)
  | '\\' :: 'u' :: rest =>
    match rest with
    | a :: b :: c :: d :: next :: more =>
      match hexQuad? a b c d with
      | none => .error (.malformed .invalidUnicodeEscape (position + 1))
      | some n =>
        if isHighSurrogate n then
          match lowSurrogate? (position + 6) (next :: more) with
          | .error e => .error e
          | .ok (some low) =>
            readText start (position + 12)
              (Char.ofNat (0x10000 + (n - 0xD800) * 0x400 + (low - 0xDC00)) :: done)
              ((next :: more).drop 6)
          | .ok none => readText start (position + 6) (scalar n :: done) (next :: more)
        else readText start (position + 6) (scalar n :: done) (next :: more)
    | _ => .error (.malformed .invalidUnicodeEscape (position + 1))
  | '\\' :: letter :: rest =>
    match escapedChar? letter with
    | some ch => readText start (position + 2) (ch :: done) rest
    | none => .error (.malformed .invalidEscape position)
  | ['\\'] => .error (.malformed .unterminatedString start)
  | ch :: rest =>
    if ch.toNat ≤ 0x1f then .error (.malformed .controlCharacter position)
    else readText start (position + 1) (ch :: done) rest
termination_by s.length
decreasing_by all_goals simp only [List.length_cons, List.length_drop]; omega

/-! ## Numbers -/

/-- The value of ASCII digits. -/
def decimalValue (digits : List Char) : Nat :=
  digits.foldl (fun n ch => n * 10 + (ch.toNat - '0'.toNat)) 0

/-- The digits of an exponent, its sign, and how many characters it takes. Without a digit there is no
exponent. -/
def exponent? : List Char → Option (Bool × List Char × Nat)
  | mark :: rest =>
    if mark = 'e' ∨ mark = 'E' then
      let (negative, signed, digits) := match rest with
        | '-' :: r => (true, 1, r.takeWhile Text.isAsciiDigit)
        | '+' :: r => (false, 1, r.takeWhile Text.isAsciiDigit)
        | r => (false, 0, r.takeWhile Text.isAsciiDigit)
      if digits.isEmpty then none else some (negative, digits, 1 + signed + digits.length)
    else none
  | [] => none

/-- The digits after a decimal point, if a point and a digit follow. -/
def fraction : List Char → List Char
  | '.' :: rest => rest.takeWhile Text.isAsciiDigit
  | _ => []

def readNumber (c : Cursor) : Except Error (Json × Cursor) :=
  let negative := c.rest.head? = some '-'
  let signed := if negative then 1 else 0
  let body := c.rest.drop signed
  let whole := if body.head? = some '0' then ['0'] else body.takeWhile Text.isAsciiDigit
  if whole.isEmpty then c.refuse .expectingValue
  else
    let places := fraction (body.drop whole.length)
    let size := whole.length + if places.isEmpty then 0 else places.length + 1
    match exponent? (body.drop size) with
    | some (down, digits, length) =>
      let e : Int := if down then -(decimalValue digits : Int) else decimalValue digits
      .ok (.float (Numeric.floatOfDecimal negative (decimalValue (whole ++ places)) (e - places.length)),
        c.advance (signed + size + length))
    | none =>
      if places.isEmpty then
        if digitLimit < whole.length then .error (.tooManyDigits whole.length)
        else
          let n : Int := decimalValue whole
          .ok (.int (if negative then -n else n), c.advance (signed + size))
      else
        .ok (.float (Numeric.floatOfDecimal negative (decimalValue (whole ++ places)) (-places.length)),
          c.advance (signed + size))

/-! ## Values -/

/-- The values that are written as a word. -/
def words : List (String × Json) :=
  [("null", .null), ("true", .bool true), ("false", .bool false),
    ("NaN", .float (0.0 / 0.0)), ("Infinity", .float (1.0 / 0.0)), ("-Infinity", .float (-1.0 / 0.0))]

def word? (s : List Char) : Option (String × Json) :=
  words.find? fun w => w.1.toList.isPrefixOf s

mutual

/-- Reads a value. The first argument bounds the number of steps. -/
def readValue : Nat → Cursor → Except Error (Json × Cursor)
  | 0, c => c.refuse .expectingValue
  | steps + 1, c =>
    match c.rest with
    | '"' :: rest => do
      let (s, c') ← readText c.position (c.position + 1) [] rest
      pure (.text s, c')
    | '[' :: _ =>
      let inner := (c.advance 1).skipSpacing
      if inner.rest.head? = some ']' then .ok (.array [], inner.advance 1)
      else do
        let (items, c') ← readItems steps inner
        pure (.array items, c')
    | '\x7b' :: _ =>
      let inner := (c.advance 1).skipSpacing
      if inner.rest.head? = some '\x7d' then .ok (.object [], inner.advance 1)
      else do
        let (fields, c') ← readFields steps inner
        pure (.object (Dictionary.ofPairs fields), c')
    | _ =>
      match word? c.rest with
      | some (w, value) => .ok (value, c.advance w.length)
      | none => readNumber c

def readItems : Nat → Cursor → Except Error ((List Json) × Cursor)
  | 0, c => c.refuse .expectingValue
  | steps + 1, c => do
    let (item, after) ← readValue steps c
    let c := after.skipSpacing
    match c.rest with
    | ']' :: _ => pure ([item], c.advance 1)
    | ',' :: _ =>
      let (items, c') ← readItems steps (c.advance 1).skipSpacing
      pure (item :: items, c')
    | _ => c.refuse .expectingComma

def readFields : Nat → Cursor → Except Error ((List (String × Json)) × Cursor)
  | 0, c => c.refuse .expectingValue
  | steps + 1, c =>
    match c.rest with
    | '"' :: rest => do
      let (key, after) ← readText c.position (c.position + 1) [] rest
      let c := after.skipSpacing
      if c.rest.head? = some ':' then
        let (value, after) ← readValue steps (c.advance 1).skipSpacing
        let c := after.skipSpacing
        match c.rest with
        | '\x7d' :: _ => pure ([(key, value)], c.advance 1)
        | ',' :: _ =>
          let (fields, c') ← readFields steps (c.advance 1).skipSpacing
          pure ((key, value) :: fields, c')
        | _ => c.refuse .expectingComma
      else c.refuse .expectingColon
    | _ => c.refuse .expectingKey

end

/-- Decodes a JSON text. Every step of the reader but the last of a level consumes a character, so
twice the length bounds their number. -/
def decode (s : List Char) : Except Error Json :=
  if s.head? = some '\uFEFF' then .error (.malformed .byteOrderMark 0)
  else do
    let (value, after) ← readValue (2 * s.length + 2) (Cursor.mk 0 s).skipSpacing
    let c := after.skipSpacing
    if c.rest.isEmpty then pure value else c.refuse .extraData

end LeadSheet.Json
