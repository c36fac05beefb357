import LeadSheet.Numeric.Binary64

/-!
# The decimal text of a double

Two texts of a double are in use: six significant digits, in which a diagram writes its coordinates,
and the fewest digits that read back as the same double, in which a message shows a value. They differ
in how the digits are chosen and in two decisions of layout, recorded by a `Style`. Both write a small
or large number with an exponent of at least two digits.
-/

namespace LeadSheet.Numeric

/-! ## Layout -/

/-- How a coefficient and its exponent are laid out: numbers from `10 ^ positionalBelow` on and those
under `10 ^ (-4)` take an exponent, and a number without a fraction ends in `wholeEnding`. -/
structure Style where
  positionalBelow : Int
  wholeEnding : String

/-- The text of the exponent: a sign and at least two digits. -/
def exponentText (e : Int) : String :=
  let digits := toString e.natAbs
  (if e < 0 then "e-" else "e+") ++ (if digits.length < 2 then "0" ++ digits else digits)

namespace Style

/-- The text of `coefficient * 10 ^ exponent`; the coefficient does not end in a zero, unless it is
zero. -/
def layout (style : Style) (negative : Bool) (coefficient : Nat) (exponent : Int) : String :=
  let digits := Nat.toDigits 10 coefficient
  let leading := exponent + digits.length - 1
  let body :=
    if leading < -4 || style.positionalBelow ≤ leading then
      let fraction := digits.drop 1
      String.ofList (digits.take 1 ++ if fraction.isEmpty then [] else '.' :: fraction) ++
        exponentText leading
    else if 0 ≤ exponent then
      String.ofList (digits ++ List.replicate exponent.toNat '0') ++ style.wholeEnding
    else if 0 ≤ leading then
      let whole := leading.toNat + 1
      String.ofList (digits.take whole ++ '.' :: digits.drop whole)
    else
      String.ofList ('0' :: '.' :: List.replicate (-leading - 1).toNat '0' ++ digits)
  if negative then "-" ++ body else body

end Style

/-- The text of a value whose digits are chosen by `digits`. -/
def textWith (style : Style) (digits : Nat → Int → Nat × Int) (x : Float) : String :=
  match Binary64.ofFloat x with
  | .nan => "nan"
  | .infinity negative => if negative then "-inf" else "inf"
  | .finite negative significand exponent =>
    let (c, e) := if significand = 0 then (0, 0) else digits significand exponent
    style.layout negative c e

/-! ## Six significant digits -/

/-- The nearest number of `count` significant digits to `significand * 2 ^ exponent`, which is
positive; a tie goes to the even coefficient. -/
def significantDigits (count significand : Nat) (exponent : Int) : Nat × Int :=
  let (num, den) := scaleTwo significand 1 exponent
  let last := decimalExponent num den - count + 1
  let (num, den) := scaleTen num den (-last)
  dropZeros (roundHalfEven num den) last

/-- A point and the digits after it. A point without digits is written on demand. -/
def pointText (pointed : Bool) (fraction : List Char) : List Char :=
  if fraction.isEmpty && !pointed then [] else '.' :: fraction

def mostPlaces : Nat := 1074

def mostDigits : Nat := 767

/-- The text of `significand * 2 ^ exponent` with a number of digits after the point. -/
def fixedText (pointed : Bool) (places significand : Nat) (exponent : Int) : String :=
  let (num, den) := scaleTwo significand 1 exponent
  let known := min places mostPlaces
  let digits := Nat.toDigits 10 (roundHalfEven (num * Nat.pow 10 known) den)
  let digits := List.replicate (known + 1 - digits.length) '0' ++ digits
  let whole := digits.length - known
  let fraction := digits.drop whole ++ List.replicate (places - known) '0'
  String.ofList (digits.take whole ++ pointText pointed fraction)

/-- The text of `significand * 2 ^ exponent` with one digit before the point, a number of digits after
it, and an exponent. -/
def scientificText (pointed : Bool) (places significand : Nat) (exponent : Int) : String :=
  let count := min (places + 1) mostDigits
  let (c, e) := if significand = 0 then (0, 0) else significantDigits count significand exponent
  let digits := Nat.toDigits 10 c
  let fraction := digits.drop 1 ++ List.replicate (places + 1 - digits.length) '0'
  String.ofList (digits.take 1 ++ pointText pointed fraction) ++ exponentText (e + digits.length - 1)

/-- The text of `significand * 2 ^ exponent` with a number of significant digits, at least one, and an
exponent where more digits would be needed before the point or many zeros after it. Zeros at the end are
dropped, unless the point is to be written in any case. -/
def generalText (pointed : Bool) (count significand : Nat) (exponent : Int) : String :=
  let count := max count 1
  let (c, e) :=
    if significand = 0 then (0, 0) else significantDigits (min count mostDigits) significand exponent
  let leading := e + (Nat.toDigits 10 c).length - 1
  if !pointed then Style.layout ⟨count, ""⟩ false c e
  else if leading < -4 || count ≤ leading then scientificText true (count - 1) significand exponent
  else fixedText true (count - 1 - leading).toNat significand exponent

/-- Coordinates have six significant digits, no trailing zeros, and an exponent from a million on. -/
def coordinateStyle : Style := ⟨6, ""⟩

def coordinate (x : Float) : String := textWith coordinateStyle (significantDigits 6) x

/-! ## The fewest digits that read back -/

/-- Four times the value, and the bounds of the interval that reads back as the same double. Below a
power of two the neighbours are closer than above it. -/
structure Rounding where
  /-- Four times the significand. -/
  value : Nat
  /-- Four times the lower bound. -/
  low : Nat
  /-- Four times the upper bound. -/
  high : Nat
  /-- The bounds read back as the double too. -/
  closed : Bool

/-- The interval around `significand * 2 ^ exponent` that rounds to it. -/
def Rounding.around (significand : Nat) (exponent : Int) : Rounding where
  value := 4 * significand
  low := 4 * significand -
    if significand = Nat.pow 2 52 ∧ exponent ≠ Binary64.leastExponent then 1 else 2
  high := 4 * significand + 2
  closed := significand % 2 = 0

/-- `coefficient / den`, on the scale of the interval, reads back as the double. -/
def Rounding.admits (r : Rounding) (scale : Nat × Nat) (coefficient : Nat) : Bool :=
  let at' := coefficient * scale.1
  let low := r.low * scale.2
  let high := r.high * scale.2
  if r.closed then low ≤ at' && at' ≤ high else low < at' && at' < high

/-- Tries the decimals with last digit at `10 ^ last` next to the value. -/
def Rounding.onGrid (r : Rounding) (exponent last : Int) : Option Nat :=
  -- `k * 10 ^ last` is compared with `value / 4 * 2 ^ exponent` as `k * scale.1` with `value * scale.2`.
  let (a, b) := scaleTen 4 1 last
  let (p, q) := scaleTwo 1 1 exponent
  let scale := (a * q, b * p)
  let below := r.value * scale.2 / scale.1
  let above := below + 1
  match r.admits scale below, r.admits scale above with
  | false, false => none
  | true, false => some below
  | false, true => some above
  | true, true => some (roundHalfEven (r.value * scale.2) scale.1)

/-- The first grid, from coarse to fine, that holds a decimal that reads back. -/
def Rounding.firstOnGrid (r : Rounding) (exponent last : Int) : Nat → Nat × Int
  | 0 => (0, 0)
  | tries + 1 =>
    match r.onGrid exponent last with
    | some k => (k, last)
    | none => r.firstOnGrid exponent (last - 1) tries

/-- The fewest digits that read back as `significand * 2 ^ exponent`, which is positive; of several
such decimals the nearest. Seventeen digits always do. -/
def shortestDigits (significand : Nat) (exponent : Int) : Nat × Int :=
  let (num, den) := scaleTwo significand 1 exponent
  let (k, last) := (Rounding.around significand exponent).firstOnGrid exponent
    (decimalExponent num den + 1) 19
  dropZeros k last

/-- Values in messages are positional below `10 ^ 16`, and a whole one ends in `.0`. -/
def valueStyle : Style := ⟨16, ".0"⟩

def valueText (x : Float) : String := textWith valueStyle shortestDigits x

end LeadSheet.Numeric
