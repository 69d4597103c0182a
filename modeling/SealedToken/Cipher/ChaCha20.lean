import SealedToken.Bytes

/-!
# The ChaCha20 keystream

The state is four rows of four words. A double round works down the columns, then, with the rows
turned, down the diagonals.

* `ChaCha20.block`: the 64 bytes of the keystream for one counter.
* `ChaCha20.keystream`: the keystream from a counter on.
-/

namespace SealedToken.ChaCha20

/-- Four words of the state. -/
structure Row where
  w0 : UInt32
  w1 : UInt32
  w2 : UInt32
  w3 : UInt32
deriving DecidableEq, Repr

/-- The words of two rows, one by one, combined by `f`. -/
def Row.zipWith (f : UInt32 → UInt32 → UInt32) (r s : Row) : Row :=
  ⟨f r.w0 s.w0, f r.w1 s.w1, f r.w2 s.w2, f r.w3 s.w3⟩

/-- Each word turned left by `count` bits. -/
def Row.rotateBits (count : UInt32) (r : Row) : Row :=
  let turn (w : UInt32) := w <<< count ||| w >>> (32 - count)
  ⟨turn r.w0, turn r.w1, turn r.w2, turn r.w3⟩

/-- The row turned left by one word. -/
def Row.turn (r : Row) : Row := ⟨r.w1, r.w2, r.w3, r.w0⟩

/-- The row of the sixteen bytes from `offset` on, each word little-endian. -/
def Row.ofBytes (bs : Bytes) (offset : Nat) : Row :=
  let word (i : Nat) := UInt32.ofNat (ofLittleEndian ((bs.drop (offset + 4 * i)).take 4))
  ⟨word 0, word 1, word 2, word 3⟩

/-- The bytes of a row, each word little-endian. -/
def Row.toBytes (r : Row) : Bytes :=
  littleEndian 4 r.w0.toNat ++ littleEndian 4 r.w1.toNat ++ littleEndian 4 r.w2.toNat ++
    littleEndian 4 r.w3.toNat

/-- The state of the block function. -/
structure State where
  r0 : Row
  r1 : Row
  r2 : Row
  r3 : Row
deriving DecidableEq, Repr

/-- The wordwise sum of two states. -/
def State.add (s t : State) : State :=
  ⟨s.r0.zipWith (· + ·) t.r0, s.r1.zipWith (· + ·) t.r1, s.r2.zipWith (· + ·) t.r2,
    s.r3.zipWith (· + ·) t.r3⟩

/-- The bytes of a state. -/
def State.toBytes (s : State) : Bytes :=
  s.r0.toBytes ++ s.r1.toBytes ++ s.r2.toBytes ++ s.r3.toBytes

/-- A quarter round down each of the four columns. -/
def State.columnRound (s : State) : State :=
  let a := s.r0.zipWith (· + ·) s.r1
  let d := (s.r3.zipWith (· ^^^ ·) a).rotateBits 16
  let c := s.r2.zipWith (· + ·) d
  let b := (s.r1.zipWith (· ^^^ ·) c).rotateBits 12
  let a := a.zipWith (· + ·) b
  let d := (d.zipWith (· ^^^ ·) a).rotateBits 8
  let c := c.zipWith (· + ·) d
  let b := (b.zipWith (· ^^^ ·) c).rotateBits 7
  ⟨a, b, c, d⟩

/-- The rows turned so that diagonals become columns. -/
def State.diagonals (s : State) : State := ⟨s.r0, s.r1.turn, s.r2.turn.turn, s.r3.turn.turn.turn⟩

/-- The rows turned back. -/
def State.columns (s : State) : State := ⟨s.r0, s.r1.turn.turn.turn, s.r2.turn.turn, s.r3.turn⟩

/-- Two rounds, down the columns and down the diagonals. -/
def State.doubleRound (s : State) : State := s.columnRound.diagonals.columnRound.columns

/-- The state that a block starts from: four constants, a key of 32 bytes, a counter and a nonce of
12 bytes. -/
def State.start (key nonce : Bytes) (counter : Nat) : State where
  r0 := ⟨0x61707865, 0x3320646e, 0x79622d32, 0x6b206574⟩
  r1 := .ofBytes key 0
  r2 := .ofBytes key 16
  r3 := .ofBytes (littleEndian 4 counter ++ nonce) 0

/-- The keystream bytes of one counter: twenty rounds, and the state that they started from. -/
def block (key nonce : Bytes) (counter : Nat) : Bytes :=
  let start := State.start key nonce counter
  (start.add (Nat.repeat State.doubleRound 10 start)).toBytes

/-- The first `length` bytes of the keystream from `counter` on. -/
def keystream (key nonce : Bytes) (counter length : Nat) : Bytes :=
  ((List.range ((length + 63) / 64)).flatMap fun i => block key nonce (counter + i)).take length

@[simp] theorem length_block (key nonce : Bytes) (counter : Nat) :
    (block key nonce counter).length = 64 :=
  rfl

theorem length_keystream (key nonce : Bytes) (counter length : Nat) :
    (keystream key nonce counter length).length = length := by
  rw [keystream, List.length_take, length_flatMap_of_length fun _ => length_block _ _ _,
    List.length_range]
  omega

end SealedToken.ChaCha20
