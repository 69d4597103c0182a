import SealedToken.Bytes

/-!
# Unpadded base64 text

Three bytes become four symbols of six bits each; a last group of one or two bytes becomes two or
three symbols, of which the last has spare bits. There is no padding.

* `Base64.Alphabet`: the symbols, `symbol` and `value?`.
* `Base64.encode`, `Base64.decode`: writing and reading. Writing leaves the spare bits zero; reading
  takes other spare bits only where `SpareBits.ignored` says so.
* `Base64.Fault`: why a text is refused, with its `message`. The faults are looked for in this
  order: a foreign last byte that stands alone, a foreign byte before the last group, a foreign byte
  or misplaced padding in the last group, a last group of one symbol, padding, spare bits.
-/

namespace SealedToken.Base64

/-- The two alphabets differ in their last two symbols. -/
inductive Alphabet where
  /-- ends in plus and slash -/
  | standard
  /-- ends in minus and underscore -/
  | urlSafe
deriving DecidableEq, Repr

/-- The rule for spare bits that are not zero: an error, or ignored. -/
inductive SpareBits where
  | refused
  | ignored
deriving DecidableEq, Repr

/-- Why a text is not base64. Offsets count bytes of its UTF-8 form. -/
inductive Fault where
  | invalidSymbol (byte : UInt8) (offset : Nat)
  | invalidLength (symbols : Nat)
  | invalidPadding
  | invalidLastSymbol (byte : UInt8) (offset : Nat)
deriving DecidableEq, Repr

/-- The text of a fault. -/
def Fault.message : Fault → String
  | .invalidSymbol byte offset => s!"Invalid symbol {byte.toNat}, offset {offset}."
  | .invalidLength symbols => s!"Invalid input length: {symbols}"
  | .invalidPadding => "Invalid padding"
  | .invalidLastSymbol byte offset => s!"Invalid last symbol {byte.toNat}, offset {offset}."

/-! ## Symbols -/

/-- The symbol for a value below 64: upper case, lower case, digits, and two signs. -/
def Alphabet.symbol (alphabet : Alphabet) (value : Nat) : UInt8 :=
  UInt8.ofNat <|
    if value < 26 then 65 + value
    else if value < 52 then 71 + value
    else if value < 62 then value - 4
    else match alphabet with
      | .standard => if value = 62 then 43 else 47
      | .urlSafe => if value = 62 then 45 else 95

/-- The value of a symbol. -/
def Alphabet.value? (alphabet : Alphabet) (byte : UInt8) : Option Nat :=
  let n := byte.toNat
  if 65 ≤ n ∧ n ≤ 90 then some (n - 65)
  else if 97 ≤ n ∧ n ≤ 122 then some (n - 71)
  else if 48 ≤ n ∧ n ≤ 57 then some (n + 4)
  else match alphabet with
    | .standard => if n = 43 then some 62 else if n = 47 then some 63 else none
    | .urlSafe => if n = 45 then some 62 else if n = 95 then some 63 else none

/-- The padding character, an equals sign. -/
def padding : UInt8 := 61

/-! ## Writing -/

/-- The six-bit values of a byte string, the spare bits of the last one zero. -/
def sextets : Bytes → List Nat
  | a :: b :: c :: rest =>
    a.toNat / 4 :: (a.toNat % 4 * 16 + b.toNat / 16) :: (b.toNat % 16 * 4 + c.toNat / 64) ::
      c.toNat % 64 :: sextets rest
  | [a, b] => [a.toNat / 4, a.toNat % 4 * 16 + b.toNat / 16, b.toNat % 16 * 4]
  | [a] => [a.toNat / 4, a.toNat % 4 * 16]
  | [] => []

/-- The base64 form of a byte string. -/
def encode (alphabet : Alphabet) (bs : Bytes) : String :=
  ofLatin1 ((sextets bs).map alphabet.symbol)

/-! ## Reading -/

/-- The bytes that six-bit values spell, spare bits dropped. -/
def packed : List Nat → Bytes
  | a :: b :: c :: d :: rest =>
    UInt8.ofNat (a * 4 + b / 16) :: UInt8.ofNat (b % 16 * 16 + c / 4) ::
      UInt8.ofNat (c % 4 * 64 + d) :: packed rest
  | [a, b, c] => [UInt8.ofNat (a * 4 + b / 16), UInt8.ofNat (b % 16 * 16 + c / 4)]
  | [a, b] => [UInt8.ofNat (a * 4 + b / 16)]
  | _ => []

/-- The offset of the last group, which has one to four bytes if the text has any. -/
def lastGroupStart (length : Nat) : Nat := (length - 1) / 4 * 4

/-- The fault of a text whose last byte stands alone in its group and is foreign. -/
def loneByteFault? (alphabet : Alphabet) (input : Bytes) : Option Fault :=
  match input.getLast? with
  | some byte =>
    if input.length % 4 = 1 ∧ byte ≠ padding ∧ alphabet.value? byte = none then
      some (.invalidSymbol byte (input.length - 1))
    else none
  | none => none

/-- The values of the symbols from `offset` on. -/
def readSymbols (alphabet : Alphabet) : (offset : Nat) → Bytes → Except Fault (List Nat)
  | _, [] => .ok []
  | offset, byte :: rest =>
    match alphabet.value? byte with
    | none => .error (.invalidSymbol byte offset)
    | some value => do
      let values ← readSymbols alphabet (offset + 1) rest
      return value :: values

/-- The values of the symbols of the last group, of which `index` bytes before `offset` have been
read, and the offset of its first padding character. Padding is at home after two symbols, and no
symbol follows it. -/
def readLastGroup (alphabet : Alphabet) (index offset : Nat) (firstPadding : Option Nat) :
    Bytes → Except Fault (List Nat × Option Nat)
  | [] => .ok ([], firstPadding)
  | byte :: rest =>
    if byte = padding then
      if index < 2 then .error (.invalidSymbol byte offset)
      else readLastGroup alphabet (index + 1) (offset + 1) (firstPadding.or (some offset)) rest
    else match firstPadding with
      | some first => .error (.invalidSymbol padding first)
      | none =>
        match alphabet.value? byte with
        | none => .error (.invalidSymbol byte offset)
        | some value => do
          let (values, pad) ← readLastGroup alphabet (index + 1) (offset + 1) none rest
          return (value :: values, pad)

/-- The spare bits of the last symbol of a last group are zero. -/
def spareBitsZero : List Nat → Bool
  | [_, b] => b % 16 = 0
  | [_, _, c] => c % 4 = 0
  | _ => true

/-- The six-bit values of a text given as its UTF-8 form. -/
def readSextets (alphabet : Alphabet) (spare : SpareBits) (input : Bytes) :
    Except Fault (List Nat) := do
  if let some fault := loneByteFault? alphabet input then throw fault
  let start := lastGroupStart input.length
  let body ← readSymbols alphabet 0 (input.take start)
  let (group, pad) ← readLastGroup alphabet 0 start none (input.drop start)
  if input ≠ [] ∧ group.length < 2 then throw (.invalidLength (start + group.length))
  if pad.isSome then throw .invalidPadding
  if spare = .refused ∧ !spareBitsZero group then
    let offset := start + group.length - 1
    throw (.invalidLastSymbol (input.getD offset 0) offset)
  return body ++ group

/-- The byte string that a text spells. -/
def decode (alphabet : Alphabet) (spare : SpareBits) (text : String) : Except Fault Bytes :=
  (readSextets alphabet spare (utf8 text)).map packed

end SealedToken.Base64
