/-!
# The exact value of a double

A finite double is an integer times a power of two, and every question about its decimal text is
answered in that exact form. A double that is not a number has no sign.
-/

namespace LeadSheet.Numeric

/-- The exact value of a double: a finite one is `significand * 2 ^ exponent`, negated on demand. -/
inductive Binary64
  | nan
  | infinity (negative : Bool)
  | finite (negative : Bool) (significand : Nat) (exponent : Int)
  deriving DecidableEq

namespace Binary64

/-- The exponent of the smallest doubles. -/
def leastExponent : Int := -1074

/-- Reads sign, exponent and fraction from the 64 bits of a double. -/
def ofBits (bits : UInt64) : Binary64 :=
  let negative : Bool := bits.toNat / Nat.pow 2 63 = 1
  let biased : Nat := bits.toNat / Nat.pow 2 52 % Nat.pow 2 11
  let fraction : Nat := bits.toNat % Nat.pow 2 52
  if biased = 2047 then
    if fraction = 0 then .infinity negative else .nan
  else if biased = 0 then .finite negative fraction leastExponent
  else .finite negative (Nat.pow 2 52 + fraction) (leastExponent + (biased : Int) - 1)

def ofFloat (x : Float) : Binary64 := ofBits x.toBits

end Binary64

/-! ## Positive fractions in powers of ten -/

def digitCount (n : Nat) : Nat := if n = 0 then 0 else (Nat.toDigits 10 n).length

/-- The exponent `e` with `10 ^ e ≤ num / den < 10 ^ (e + 1)`. -/
def decimalExponent (num den : Nat) : Int :=
  if den ≤ num then (digitCount (num / den) : Int) - 1
  else -(digitCount ((den + num - 1) / num - 1) : Int)

/-- The fraction `num / den` times `2 ^ e`. -/
def scaleTwo (num den : Nat) (e : Int) : Nat × Nat :=
  if 0 ≤ e then (num * Nat.pow 2 e.toNat, den) else (num, den * Nat.pow 2 (-e).toNat)

/-- The fraction `num / den` times `10 ^ e`. -/
def scaleTen (num den : Nat) (e : Int) : Nat × Nat :=
  if 0 ≤ e then (num * Nat.pow 10 e.toNat, den) else (num, den * Nat.pow 10 (-e).toNat)

/-- The whole number nearest to `num / den`; a half goes to the even neighbour. -/
def roundHalfEven (num den : Nat) : Nat :=
  let q := num / den
  let twice := 2 * (num % den)
  if twice < den then q else if den < twice then q + 1 else q + q % 2

/-- Drops the factors of ten of a coefficient, each of which raises the exponent by one. -/
def dropZeros (coefficient : Nat) (exponent : Int) : Nat × Int :=
  let digits := Nat.toDigits 10 coefficient
  let zeros := (digits.reverse.takeWhile (· == '0')).length
  if coefficient = 0 then (0, 0) else (coefficient / Nat.pow 10 zeros, exponent + zeros)

/-! ## The nearest double -/

/-- The exponent `e` with `2 ^ e ≤ num / den < 2 ^ (e + 1)`. -/
def binaryExponent (num den : Nat) : Int :=
  let e : Int := (num.log2 : Int) - den.log2
  let (p, q) := scaleTwo num den (-e)
  if q ≤ p then e else e - 1

/-- The bits of the double nearest to the positive fraction `num / den`; a tie goes to the even
significand, and what is too large becomes infinite. -/
def nearestBits (num den : Nat) : Nat :=
  let last := max (binaryExponent num den - 52) Binary64.leastExponent
  let (p, q) := scaleTwo num den (-last)
  let significand := roundHalfEven p q
  -- A subnormal significand is its own bits; a larger one holds one unit of the exponent field.
  let bits := (last - Binary64.leastExponent).toNat * Nat.pow 2 52 + significand
  min bits (2047 * Nat.pow 2 52)

/-- The double nearest to `num / den`, negated on demand. -/
def nearestFloat (negative : Bool) (num den : Nat) : Float :=
  let sign := if negative then Nat.pow 2 63 else 0
  Float.ofBits (UInt64.ofNat (sign + if num = 0 then 0 else nearestBits num den))

/-- The double nearest to an integer. -/
def floatOfInt (n : Int) : Float := nearestFloat (n < 0) n.natAbs 1

/-- The double nearest to `coefficient * 10 ^ exponent`. Values that are out of range by a wide margin
are told by their length alone. -/
def floatOfDecimal (negative : Bool) (coefficient : Nat) (exponent : Int) : Float :=
  let magnitude := digitCount coefficient + exponent
  if coefficient = 0 || magnitude < -400 then nearestFloat negative 0 1
  else if 400 < magnitude then nearestFloat negative (Nat.pow 2 1024) 1
  else
    let (num, den) := scaleTen coefficient 1 exponent
    nearestFloat negative num den

end LeadSheet.Numeric
