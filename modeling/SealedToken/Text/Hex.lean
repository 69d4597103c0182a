import SealedToken.Bytes
import SealedToken.Text.Quoted

/-!
# Hexadecimal text

Two digits for each byte, the high half first. Writing uses lowercase letters, reading takes both
cases.

* `Hex.encode`, `Hex.decode`: writing and reading.
* `Hex.Fault`: why a text is refused, with its `message`. An odd number of digits is found before
  any bad digit, and of the bad digits the first is named.
-/

namespace SealedToken.Hex

/-- Why a text is not hexadecimal. Positions count bytes of its UTF-8 form. -/
inductive Fault where
  | oddLength
  | invalidDigit (byte : UInt8) (position : Nat)
deriving DecidableEq, Repr

/-- The text of a fault; a bad digit is shown as the character whose code point is the byte. -/
def Fault.message : Fault → String
  | .oddLength => "Odd number of digits"
  | .invalidDigit byte position =>
    s!"Invalid character {quotedChar (Char.ofNat byte.toNat)} at position {position}"

/-- The digit for a value below 16. -/
def digit (value : Nat) : UInt8 := UInt8.ofNat (if value < 10 then 48 + value else 87 + value)

/-- The value of a digit. -/
def value? (byte : UInt8) : Option Nat :=
  let n := byte.toNat
  if 48 ≤ n ∧ n ≤ 57 then some (n - 48)
  else if 97 ≤ n ∧ n ≤ 102 then some (n - 87)
  else if 65 ≤ n ∧ n ≤ 70 then some (n - 55)
  else none

/-- The digits of a byte string. -/
def digits (bs : Bytes) : Bytes :=
  bs.flatMap fun b => [digit (b.toNat / 16), digit (b.toNat % 16)]

/-- The hexadecimal form of a byte string. -/
def encode (bs : Bytes) : String := ofLatin1 (digits bs)

/-- The value of the digit `byte`, which stands at `position`. -/
def readDigit (byte : UInt8) (position : Nat) : Except Fault Nat :=
  match value? byte with
  | some n => .ok n
  | none => .error (.invalidDigit byte position)

/-- The bytes spelled by digits of which the first stands at `position`. -/
def readPairs : (position : Nat) → Bytes → Except Fault Bytes
  | _, [] => .ok []
  | _, [_] => .error .oddLength
  | position, high :: low :: rest => do
    let h ← readDigit high position
    let l ← readDigit low (position + 1)
    let tail ← readPairs (position + 2) rest
    return UInt8.ofNat (16 * h + l) :: tail

/-- The byte string that a text spells. -/
def decode (text : String) : Except Fault Bytes :=
  let input := utf8 text
  if input.length % 2 = 1 then .error .oddLength else readPairs 0 input

end SealedToken.Hex
