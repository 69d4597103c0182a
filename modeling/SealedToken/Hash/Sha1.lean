import SealedToken.Hash.Padding

/-!
# SHA-1

* `Sha1.digest`: the 20-byte digest of a message.
* `Sha1.compress`: one block worked into the five words of the state, in eighty rounds.
* `Sha1.schedule`: the eighty words that the rounds take from a block.
-/

namespace SealedToken.Sha1

/-- A word of the hash. -/
abbrev Word := BitVec 32

/-- The state between blocks and between rounds. -/
structure State where
  a : Word
  b : Word
  c : Word
  d : Word
  e : Word
deriving DecidableEq, Repr

/-- The state before the first block. -/
def State.initial : State :=
  ⟨0x67452301, 0xefcdab89, 0x98badcfe, 0x10325476, 0xc3d2e1f0⟩

/-- The wordwise sum of two states. -/
def State.add (s t : State) : State := ⟨s.a + t.a, s.b + t.b, s.c + t.c, s.d + t.d, s.e + t.e⟩

/-- The state as bytes. -/
def State.toBytes (s : State) : Bytes :=
  [s.a, s.b, s.c, s.d, s.e].flatMap fun word => bigEndian 4 word.toNat

/-! ## Rounds -/

/-- `count` words after the sixteen of `window`, and these before them. -/
def extend : (count : Nat) → (window : List Word) → List Word
  | 0, window => window
  | _ + 1, [] => []
  | count + 1, oldest :: rest =>
    let next := (rest.getD 12 0 ^^^ rest.getD 7 0 ^^^ rest.getD 1 0 ^^^ oldest).rotateLeft 1
    oldest :: extend count (rest ++ [next])

/-- The words that the rounds take from a block: its own sixteen and sixty-four more. -/
def schedule (block : Bytes) : List Word :=
  extend 64 ((blocks 4 16 block).map fun bs => BitVec.ofNat 32 (ofBigEndian bs))

/-- The mixing function and the constant of round `t`; they change every twenty rounds. -/
def mixing (t : Nat) (x y z : Word) : Word :=
  match t / 20 with
  | 0 => ((x &&& y) ^^^ (~~~x &&& z)) + 0x5a827999
  | 1 => (x ^^^ y ^^^ z) + 0x6ed9eba1
  | 2 => ((x &&& y) ^^^ (x &&& z) ^^^ (y &&& z)) + 0x8f1bbcdc
  | _ => (x ^^^ y ^^^ z) + 0xca62c1d6

/-- Round `t` with its word of the schedule. -/
def State.round (s : State) (word : Word) (t : Nat) : State :=
  ⟨s.a.rotateLeft 5 + mixing t s.b s.c s.d + s.e + word, s.a, s.b.rotateLeft 30, s.c, s.d⟩

/-- One block worked into the state. -/
def compress (s : State) (block : Bytes) : State :=
  s.add ((schedule block).zipIdx.foldl (fun r (word, t) => r.round word t) s)

/-- The digest of a message. -/
def digest (message : Bytes) : Bytes :=
  ((messageBlocks 64 8 message).foldl compress .initial).toBytes

@[simp] theorem length_toBytes (s : State) : s.toBytes.length = 20 := by
  simp [State.toBytes]

@[simp] theorem length_digest (message : Bytes) : (digest message).length = 20 := by
  simp [digest]

end SealedToken.Sha1
