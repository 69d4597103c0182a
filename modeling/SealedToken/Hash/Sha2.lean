import SealedToken.Hash.Padding

/-!
# SHA-2

One construction serves words of 32 and of 64 bits. The constants of the 32-bit hashes are halves of
those of the 64-bit ones.

* `Sha2.Family`: the constants and rotations of a word size; `family32`, `family64`.
* `Sha2.compress`: one block worked into the eight words of the state.
* `Sha2.Family.digest`: the digest of a message from a given first state, cut to a given length.
* `Sha2.sha224` to `Sha2.sha512_256`: the six hashes.
-/

namespace SealedToken.Sha2

/-- The state between blocks and between rounds. -/
structure State (w : Nat) where
  a : BitVec w
  b : BitVec w
  c : BitVec w
  d : BitVec w
  e : BitVec w
  f : BitVec w
  g : BitVec w
  h : BitVec w
deriving DecidableEq, Repr

/-- A function on each word of a state. -/
def State.map {v w : Nat} (f : BitVec v → BitVec w) (s : State v) : State w :=
  ⟨f s.a, f s.b, f s.c, f s.d, f s.e, f s.f, f s.g, f s.h⟩

/-- The wordwise sum of two states. -/
def State.add {w : Nat} (s t : State w) : State w :=
  ⟨s.a + t.a, s.b + t.b, s.c + t.c, s.d + t.d, s.e + t.e, s.f + t.f, s.g + t.g, s.h + t.h⟩

/-- The state as bytes. -/
def State.toBytes {w : Nat} (s : State w) : Bytes :=
  [s.a, s.b, s.c, s.d, s.e, s.f, s.g, s.h].flatMap fun word => bigEndian (w / 8) word.toNat

/-- The parameters in which the hashes of 32-bit words and those of 64-bit words differ. -/
structure Family (w : Nat) where
  /-- one for each round -/
  constants : List (BitVec w)
  /-- the three rotations that mix the first word of the state -/
  firstMix : Nat × Nat × Nat
  /-- the three rotations that mix the fifth word of the state -/
  fifthMix : Nat × Nat × Nat
  /-- two rotations and a shift, for the schedule word fifteen rounds back -/
  oldMix : Nat × Nat × Nat
  /-- two rotations and a shift, for the schedule word two rounds back -/
  recentMix : Nat × Nat × Nat

/-- The exclusive or of three rotations. -/
def rotated {w : Nat} (amounts : Nat × Nat × Nat) (x : BitVec w) : BitVec w :=
  x.rotateRight amounts.1 ^^^ x.rotateRight amounts.2.1 ^^^ x.rotateRight amounts.2.2

/-- The exclusive or of two rotations and a shift. -/
def shifted {w : Nat} (amounts : Nat × Nat × Nat) (x : BitVec w) : BitVec w :=
  x.rotateRight amounts.1 ^^^ x.rotateRight amounts.2.1 ^^^ x >>> amounts.2.2

/-! ## Rounds -/

/-- `count` words after the sixteen of `window`, and these before them. -/
def Family.extend {w : Nat} (family : Family w) : (count : Nat) → List (BitVec w) → List (BitVec w)
  | 0, window => window
  | _ + 1, [] => []
  | count + 1, oldest :: rest =>
    let next := shifted family.recentMix (rest.getD 13 0) + rest.getD 8 0 +
      shifted family.oldMix (rest.getD 0 0) + oldest
    oldest :: family.extend count (rest ++ [next])

/-- The words that the rounds take from a block: its own sixteen, and more up to one a round. -/
def Family.schedule {w : Nat} (family : Family w) (block : Bytes) : List (BitVec w) :=
  family.extend (family.constants.length - 16)
    ((blocks (w / 8) 16 block).map fun bs => BitVec.ofNat w (ofBigEndian bs))

/-- A round with the sum of its constant and its word of the schedule. -/
def Family.round {w : Nat} (family : Family w) (s : State w) (input : BitVec w) : State w :=
  let choice := (s.e &&& s.f) ^^^ (~~~s.e &&& s.g)
  let majority := (s.a &&& s.b) ^^^ (s.a &&& s.c) ^^^ (s.b &&& s.c)
  let t := s.h + rotated family.fifthMix s.e + choice + input
  ⟨t + (rotated family.firstMix s.a + majority), s.a, s.b, s.c, s.d + t, s.e, s.f, s.g⟩

/-- One block worked into the state. -/
def Family.compress {w : Nat} (family : Family w) (s : State w) (block : Bytes) : State w :=
  s.add ((List.zipWith (· + ·) family.constants (family.schedule block)).foldl family.round s)

/-- The first `length` bytes of the state reached from `start` over the message. A block is sixteen
words, and the message's length takes two. -/
def Family.digest {w : Nat} (family : Family w) (start : State w) (length : Nat)
    (message : Bytes) : Bytes :=
  ((messageBlocks (2 * w) (w / 4) message).foldl family.compress start).toBytes.take length

@[simp] theorem length_toBytes {w : Nat} (s : State w) : s.toBytes.length = 8 * (w / 8) := by
  simp [State.toBytes]
  omega

theorem length_digest {w : Nat} (family : Family w) (start : State w) (length : Nat)
    (message : Bytes) : (family.digest start length message).length = min length (8 * (w / 8)) := by
  simp [Family.digest]

/-! ## Constants -/

/-- The fractions of the cube roots of the first eighty primes. -/
def constants64 : List (BitVec 64) := [
  0x428a2f98d728ae22, 0x7137449123ef65cd, 0xb5c0fbcfec4d3b2f, 0xe9b5dba58189dbbc,
  0x3956c25bf348b538, 0x59f111f1b605d019, 0x923f82a4af194f9b, 0xab1c5ed5da6d8118,
  0xd807aa98a3030242, 0x12835b0145706fbe, 0x243185be4ee4b28c, 0x550c7dc3d5ffb4e2,
  0x72be5d74f27b896f, 0x80deb1fe3b1696b1, 0x9bdc06a725c71235, 0xc19bf174cf692694,
  0xe49b69c19ef14ad2, 0xefbe4786384f25e3, 0x0fc19dc68b8cd5b5, 0x240ca1cc77ac9c65,
  0x2de92c6f592b0275, 0x4a7484aa6ea6e483, 0x5cb0a9dcbd41fbd4, 0x76f988da831153b5,
  0x983e5152ee66dfab, 0xa831c66d2db43210, 0xb00327c898fb213f, 0xbf597fc7beef0ee4,
  0xc6e00bf33da88fc2, 0xd5a79147930aa725, 0x06ca6351e003826f, 0x142929670a0e6e70,
  0x27b70a8546d22ffc, 0x2e1b21385c26c926, 0x4d2c6dfc5ac42aed, 0x53380d139d95b3df,
  0x650a73548baf63de, 0x766a0abb3c77b2a8, 0x81c2c92e47edaee6, 0x92722c851482353b,
  0xa2bfe8a14cf10364, 0xa81a664bbc423001, 0xc24b8b70d0f89791, 0xc76c51a30654be30,
  0xd192e819d6ef5218, 0xd69906245565a910, 0xf40e35855771202a, 0x106aa07032bbd1b8,
  0x19a4c116b8d2d0c8, 0x1e376c085141ab53, 0x2748774cdf8eeb99, 0x34b0bcb5e19b48a8,
  0x391c0cb3c5c95a63, 0x4ed8aa4ae3418acb, 0x5b9cca4f7763e373, 0x682e6ff3d6b2b8a3,
  0x748f82ee5defb2fc, 0x78a5636f43172f60, 0x84c87814a1f0ab72, 0x8cc702081a6439ec,
  0x90befffa23631e28, 0xa4506cebde82bde9, 0xbef9a3f7b2c67915, 0xc67178f2e372532b,
  0xca273eceea26619c, 0xd186b8c721c0c207, 0xeada7dd6cde0eb1e, 0xf57d4f7fee6ed178,
  0x06f067aa72176fba, 0x0a637dc5a2c898a6, 0x113f9804bef90dae, 0x1b710b35131c471b,
  0x28db77f523047d84, 0x32caab7b40c72493, 0x3c9ebe0a15c9bebc, 0x431d67c49c100d4c,
  0x4cc5d4becb3e42b6, 0x597f299cfc657e2a, 0x5fcb6fab3ad6faec, 0x6c44198c4a475817]

/-- The hashes with words of 64 bits. -/
def family64 : Family 64 where
  constants := constants64
  firstMix := (28, 34, 39)
  fifthMix := (14, 18, 41)
  oldMix := (1, 8, 7)
  recentMix := (19, 61, 6)

/-- The hashes with words of 32 bits; they have sixty-four rounds. -/
def family32 : Family 32 where
  constants := (constants64.take 64).map (·.extractLsb' 32 32)
  firstMix := (2, 13, 22)
  fifthMix := (6, 11, 25)
  oldMix := (7, 18, 3)
  recentMix := (17, 19, 10)

/-- The fractions of the square roots of the first eight primes. -/
def start512 : State 64 := ⟨
  0x6a09e667f3bcc908, 0xbb67ae8584caa73b, 0x3c6ef372fe94f82b, 0xa54ff53a5f1d36f1,
  0x510e527fade682d1, 0x9b05688c2b3e6c1f, 0x1f83d9abfb41bd6b, 0x5be0cd19137e2179⟩

/-- The fractions of the square roots of the next eight primes. -/
def start384 : State 64 := ⟨
  0xcbbb9d5dc1059ed8, 0x629a292a367cd507, 0x9159015a3070dd17, 0x152fecd8f70e5939,
  0x67332667ffc00b31, 0x8eb44a8768581511, 0xdb0c2e0d64f98fa7, 0x47b5481dbefa4fa4⟩

/-- The first state of the hash of 64-bit words that is cut to 28 bytes. -/
def start512_224 : State 64 := ⟨
  0x8c3d37c819544da2, 0x73e1996689dcd4d6, 0x1dfab7ae32ff9c82, 0x679dd514582f9fcf,
  0x0f6d2b697bd44da8, 0x77e36f7304c48942, 0x3f9d85a86a1d36c8, 0x1112e6ad91d692a1⟩

/-- The first state of the hash of 64-bit words that is cut to 32 bytes. -/
def start512_256 : State 64 := ⟨
  0x22312194fc2bf72c, 0x9f555fa3c84c64c2, 0x2393b86b6f53b151, 0x963877195940eabd,
  0x96283ee2a88effe3, 0xbe5e1e2553863992, 0x2b0199fc2c85b8aa, 0x0eb72ddc81c52ca2⟩

/-! ## The six hashes -/

/-- SHA-224 starts from the low halves of the words of SHA-384. -/
def sha224 : Bytes → Bytes := family32.digest (start384.map (·.extractLsb' 0 32)) 28

/-- SHA-256 starts from the high halves of the words of SHA-512. -/
def sha256 : Bytes → Bytes := family32.digest (start512.map (·.extractLsb' 32 32)) 32

/-- SHA-384. -/
def sha384 : Bytes → Bytes := family64.digest start384 48

/-- SHA-512. -/
def sha512 : Bytes → Bytes := family64.digest start512 64

/-- SHA-512/224. -/
def sha512_224 : Bytes → Bytes := family64.digest start512_224 28

/-- SHA-512/256. -/
def sha512_256 : Bytes → Bytes := family64.digest start512_256 32

end SealedToken.Sha2
