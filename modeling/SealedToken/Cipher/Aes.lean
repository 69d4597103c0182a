import SealedToken.Bytes

/-!
# AES

Blocks of sixteen bytes as four columns of four. Only encryption is here: counter mode needs no
other direction.

* `Aes.roundKeys`: the key schedule of a key of 16, 24 or 32 bytes, one block for each round and one
  more.
* `Aes.encrypt`: a block under a key schedule; `length_encrypt` says that it has sixteen bytes
  again.
-/

namespace SealedToken.Aes

/-! ## Blocks -/

/-- Four bytes of a block, from the top. -/
structure Column where
  b0 : UInt8
  b1 : UInt8
  b2 : UInt8
  b3 : UInt8
deriving DecidableEq, Repr

/-- A function on each byte of a column. -/
def Column.map (f : UInt8 → UInt8) (c : Column) : Column := ⟨f c.b0, f c.b1, f c.b2, f c.b3⟩

/-- The bytewise exclusive or of two columns. -/
def Column.xor (c d : Column) : Column :=
  ⟨c.b0 ^^^ d.b0, c.b1 ^^^ d.b1, c.b2 ^^^ d.b2, c.b3 ^^^ d.b3⟩

/-- A column of the given bytes; missing bytes are zero. -/
def Column.ofBytes (bs : Bytes) : Column := ⟨bs.getD 0 0, bs.getD 1 0, bs.getD 2 0, bs.getD 3 0⟩

/-- The bytes of a column. -/
def Column.toBytes (c : Column) : Bytes := [c.b0, c.b1, c.b2, c.b3]

/-- Sixteen bytes as four columns. -/
structure Block where
  c0 : Column
  c1 : Column
  c2 : Column
  c3 : Column
deriving DecidableEq, Repr

/-- A function on each column of a block. -/
def Block.map (f : Column → Column) (b : Block) : Block := ⟨f b.c0, f b.c1, f b.c2, f b.c3⟩

/-- The bytewise exclusive or of two blocks. -/
def Block.xor (a b : Block) : Block := ⟨a.c0.xor b.c0, a.c1.xor b.c1, a.c2.xor b.c2, a.c3.xor b.c3⟩

/-- A block of the given bytes, column by column; missing bytes are zero. -/
def Block.ofBytes (bs : Bytes) : Block :=
  ⟨.ofBytes bs, .ofBytes (bs.drop 4), .ofBytes (bs.drop 8), .ofBytes (bs.drop 12)⟩

/-- The bytes of a block, column by column. -/
def Block.toBytes (b : Block) : Bytes :=
  b.c0.toBytes ++ b.c1.toBytes ++ b.c2.toBytes ++ b.c3.toBytes

@[simp] theorem Block.length_toBytes (b : Block) : b.toBytes.length = 16 := rfl

/-! ## Round steps -/

/-- The substitution table: the inverse in the field of 256 elements, then an affine map. -/
def substitutions : Array UInt8 := #[
  0x63, 0x7c, 0x77, 0x7b, 0xf2, 0x6b, 0x6f, 0xc5, 0x30, 0x01, 0x67, 0x2b, 0xfe, 0xd7, 0xab, 0x76,
  0xca, 0x82, 0xc9, 0x7d, 0xfa, 0x59, 0x47, 0xf0, 0xad, 0xd4, 0xa2, 0xaf, 0x9c, 0xa4, 0x72, 0xc0,
  0xb7, 0xfd, 0x93, 0x26, 0x36, 0x3f, 0xf7, 0xcc, 0x34, 0xa5, 0xe5, 0xf1, 0x71, 0xd8, 0x31, 0x15,
  0x04, 0xc7, 0x23, 0xc3, 0x18, 0x96, 0x05, 0x9a, 0x07, 0x12, 0x80, 0xe2, 0xeb, 0x27, 0xb2, 0x75,
  0x09, 0x83, 0x2c, 0x1a, 0x1b, 0x6e, 0x5a, 0xa0, 0x52, 0x3b, 0xd6, 0xb3, 0x29, 0xe3, 0x2f, 0x84,
  0x53, 0xd1, 0x00, 0xed, 0x20, 0xfc, 0xb1, 0x5b, 0x6a, 0xcb, 0xbe, 0x39, 0x4a, 0x4c, 0x58, 0xcf,
  0xd0, 0xef, 0xaa, 0xfb, 0x43, 0x4d, 0x33, 0x85, 0x45, 0xf9, 0x02, 0x7f, 0x50, 0x3c, 0x9f, 0xa8,
  0x51, 0xa3, 0x40, 0x8f, 0x92, 0x9d, 0x38, 0xf5, 0xbc, 0xb6, 0xda, 0x21, 0x10, 0xff, 0xf3, 0xd2,
  0xcd, 0x0c, 0x13, 0xec, 0x5f, 0x97, 0x44, 0x17, 0xc4, 0xa7, 0x7e, 0x3d, 0x64, 0x5d, 0x19, 0x73,
  0x60, 0x81, 0x4f, 0xdc, 0x22, 0x2a, 0x90, 0x88, 0x46, 0xee, 0xb8, 0x14, 0xde, 0x5e, 0x0b, 0xdb,
  0xe0, 0x32, 0x3a, 0x0a, 0x49, 0x06, 0x24, 0x5c, 0xc2, 0xd3, 0xac, 0x62, 0x91, 0x95, 0xe4, 0x79,
  0xe7, 0xc8, 0x37, 0x6d, 0x8d, 0xd5, 0x4e, 0xa9, 0x6c, 0x56, 0xf4, 0xea, 0x65, 0x7a, 0xae, 0x08,
  0xba, 0x78, 0x25, 0x2e, 0x1c, 0xa6, 0xb4, 0xc6, 0xe8, 0xdd, 0x74, 0x1f, 0x4b, 0xbd, 0x8b, 0x8a,
  0x70, 0x3e, 0xb5, 0x66, 0x48, 0x03, 0xf6, 0x0e, 0x61, 0x35, 0x57, 0xb9, 0x86, 0xc1, 0x1d, 0x9e,
  0xe1, 0xf8, 0x98, 0x11, 0x69, 0xd9, 0x8e, 0x94, 0x9b, 0x1e, 0x87, 0xe9, 0xce, 0x55, 0x28, 0xdf,
  0x8c, 0xa1, 0x89, 0x0d, 0xbf, 0xe6, 0x42, 0x68, 0x41, 0x99, 0x2d, 0x0f, 0xb0, 0x54, 0xbb, 0x16]

/-- The byte that takes the place of `b`. -/
def substitute (b : UInt8) : UInt8 := substitutions.getD b.toNat 0

/-- The double of a byte in the field of 256 elements. -/
def double (b : UInt8) : UInt8 := if b &&& 0x80 = 0 then b <<< 1 else b <<< 1 ^^^ 0x1b

/-- The triple of a byte in the field of 256 elements. -/
def triple (b : UInt8) : UInt8 := double b ^^^ b

/-- Each byte of a column becomes a sum of multiples of all four. -/
def Column.mix (c : Column) : Column :=
  ⟨double c.b0 ^^^ triple c.b1 ^^^ c.b2 ^^^ c.b3, c.b0 ^^^ double c.b1 ^^^ triple c.b2 ^^^ c.b3,
    c.b0 ^^^ c.b1 ^^^ double c.b2 ^^^ triple c.b3, triple c.b0 ^^^ c.b1 ^^^ c.b2 ^^^ double c.b3⟩

/-- Row `i` moves `i` columns to the left, around the edge. -/
def Block.shiftRows (b : Block) : Block :=
  ⟨⟨b.c0.b0, b.c1.b1, b.c2.b2, b.c3.b3⟩, ⟨b.c1.b0, b.c2.b1, b.c3.b2, b.c0.b3⟩,
    ⟨b.c2.b0, b.c3.b1, b.c0.b2, b.c1.b3⟩, ⟨b.c3.b0, b.c0.b1, b.c1.b2, b.c2.b3⟩⟩

/-- The part of a round that every round has. -/
def Block.scramble (b : Block) : Block := (b.map (·.map substitute)).shiftRows

/-! ## Key schedule -/

/-- The column added at the start of turn `i` of the key schedule. -/
def roundConstant (i : Nat) : Column := ⟨Nat.repeat double (i - 1) 1, 0, 0, 0⟩

/-- The exclusive or of column `i` of the key schedule and the column `keyColumns` before it, as a
function of column `i - 1`. -/
def scheduleTerm (keyColumns i : Nat) (previous : Column) : Column :=
  if i % keyColumns = 0 then
    (Column.mk previous.b1 previous.b2 previous.b3 previous.b0).map substitute |>.xor
      (roundConstant (i / keyColumns))
  else if keyColumns > 6 ∧ i % keyColumns = 4 then previous.map substitute
  else previous

/-- `count` columns after those of `window`, the first of which is column `i`, and these
before them. -/
def extend (keyColumns : Nat) : (count i : Nat) → (window : List Column) → List Column
  | 0, _, window => window
  | _ + 1, _, [] => []
  | count + 1, i, oldest :: rest =>
    let next := oldest.xor (scheduleTerm keyColumns i (rest.getLastD oldest))
    oldest :: extend keyColumns count (i + 1) (rest ++ [next])

/-- Columns taken four at a time. -/
def grouped : List Column → List Block
  | c0 :: c1 :: c2 :: c3 :: rest => ⟨c0, c1, c2, c3⟩ :: grouped rest
  | _ => []

/-- The key schedule: a key of `n` columns serves `n + 6` rounds. -/
def roundKeys (key : Bytes) : List Block :=
  let n := key.length / 4
  grouped (extend n (4 * (n + 7) - n) n ((blocks 4 n key).map .ofBytes))

/-! ## Encryption -/

/-- The rounds of the given keys; the last one does not mix columns. -/
def rounds : Block → List Block → Block
  | b, [] => b
  | b, [last] => b.scramble.xor last
  | b, key :: keys => rounds ((b.scramble.map .mix).xor key) keys

/-- A block under a key schedule. -/
def encrypt (keys : List Block) (bs : Bytes) : Bytes :=
  match keys with
  | [] => (Block.ofBytes bs).toBytes
  | first :: rest => (rounds ((Block.ofBytes bs).xor first) rest).toBytes

@[simp] theorem length_encrypt (keys : List Block) (bs : Bytes) :
    (encrypt keys bs).length = 16 := by
  cases keys <;> exact Block.length_toBytes _

end SealedToken.Aes
