import LeadSheet.Text.Quoted

/-!
# Reading UTF-8

A strict decoder that says where and why it stops. A sequence is refused as soon as one of its bytes
cannot continue it, so overlong forms, surrogates and values above U+10FFFF are faults of the second
byte; the bytes accepted so far are the extent of the fault.
-/

namespace LeadSheet.Text.Utf8

/-- Why a byte sequence is not UTF-8. -/
inductive Fault
  /-- The byte cannot begin a character. -/
  | invalidStart
  /-- The bytes so far cannot be continued by the next one. -/
  | invalidContinuation
  /-- The text ends inside a character. -/
  | unexpectedEnd

namespace Fault

def reason : Fault → String
  | invalidStart => "invalid start byte"
  | invalidContinuation => "invalid continuation byte"
  | unexpectedEnd => "unexpected end of data"

end Fault

/-- A place in a byte sequence that does not decode: the first byte, its position, and how many bytes
are at fault. -/
structure Error where
  fault : Fault
  byte : UInt8
  position : Nat
  extent : Nat

namespace Error

/-- The text of the error. One byte is shown; of several only the positions are. -/
def message (e : Error) : String :=
  if e.extent = 1 then
    s!"'utf-8' codec can't decode byte 0x{String.ofList (hexNumber 2 e.byte.toNat)} in position {e.position}: {e.fault.reason}"
  else
    s!"'utf-8' codec can't decode bytes in position {e.position}-{e.position + e.extent - 1}: {e.fault.reason}"

end Error

/-- The number of bytes of the character that a byte begins; zero when it begins none. -/
def sequenceLength (b : UInt8) : Nat :=
  if b < 0x80 then 1
  else if b < 0xC2 then 0
  else if b < 0xE0 then 2
  else if b < 0xF0 then 3
  else if b < 0xF5 then 4
  else 0

/-- The byte may follow the first byte `b` of a character. -/
def isSecondByte (b c : UInt8) : Bool :=
  let low : UInt8 := if b == 0xE0 then 0xA0 else if b == 0xF0 then 0x90 else 0x80
  let high : UInt8 := if b == 0xED then 0x9F else if b == 0xF4 then 0x8F else 0xBF
  low ≤ c && c ≤ high

/-- The byte continues a character. -/
def isContinuation (c : UInt8) : Bool := 0x80 ≤ c && c ≤ 0xBF

/-- The payload bits of the first byte of a character of the given length. -/
def leadBits (length : Nat) (b : UInt8) : Nat :=
  if length = 1 then b.toNat else b.toNat % Nat.pow 2 (7 - length)

/-- The byte may stand after the first `taken` bytes of a character that begins with `first`. -/
def continues (first : UInt8) (taken : Nat) (c : UInt8) : Bool :=
  if taken = 1 then isSecondByte first c else isContinuation c

/-- Reads the `missing` bytes that continue a character; `taken` of its bytes are read already. -/
def continuation (first : UInt8) (position : Nat) :
    (missing taken value : Nat) → List UInt8 → Except Error (Nat × List UInt8)
  | 0, _, value, rest => .ok (value, rest)
  | _ + 1, taken, _, [] => .error ⟨.unexpectedEnd, first, position, taken⟩
  | missing + 1, taken, value, c :: rest =>
    if continues first taken c then
      continuation first position missing (taken + 1) (value * 64 + c.toNat % 64) rest
    else .error ⟨.invalidContinuation, first, position, taken⟩

theorem length_le_of_continuation {first : UInt8} {position missing taken value n : Nat}
    {bytes rest : List UInt8} (h : continuation first position missing taken value bytes = .ok (n, rest)) :
    rest.length ≤ bytes.length := by
  induction missing generalizing taken value bytes with
  | zero =>
    simp only [continuation, Except.ok.injEq, Prod.mk.injEq] at h
    simp [h.2]
  | succ m ih =>
    cases bytes with
    | nil => simp [continuation] at h
    | cons c cs =>
      simp only [continuation] at h
      split at h
      · have := ih h
        simp only [List.length_cons]
        omega
      · simp at h

/-- Decodes the bytes from `position` on; `done` holds the characters before it, last one first. -/
def decodeFrom (position : Nat) (done : List Char) (bytes : List UInt8) :
    Except Error (List Char) :=
  match bytes with
  | [] => .ok done.reverse
  | b :: rest =>
    match sequenceLength b with
    | 0 => .error ⟨.invalidStart, b, position, 1⟩
    | length + 1 =>
      match h : continuation b position length 1 (leadBits (length + 1) b) rest with
      | .error e => .error e
      | .ok (value, rest') =>
        have : rest'.length ≤ rest.length := length_le_of_continuation h
        decodeFrom (position + length + 1) (Char.ofNat value :: done) rest'
termination_by bytes.length

def decode (bytes : List UInt8) : Except Error (List Char) := decodeFrom 0 [] bytes

end LeadSheet.Text.Utf8
