import SealedToken.Bytes

/-!
# Galois/Counter Mode

Encryption by a keystream and authentication by a polynomial over the field of 2^128 elements, over
any cipher `encrypt` of 16-byte blocks, with nonces of 12 bytes and no associated data.

* `Gcm.keystream`: the bytes that are added to the plaintext.
* `Gcm.tag`: the authentication tag of a ciphertext.
-/

namespace SealedToken.Gcm

/-! ## The field -/

/-- An element of the field; the most significant bit is the coefficient of degree zero. -/
abbrev Element := BitVec 128

/-- The element times the polynomial variable. -/
def Element.shifted (x : Element) : Element :=
  if x.getLsbD 0 then x >>> 1 ^^^ 0xe1000000000000000000000000000000#128 else x >>> 1

/-- `sum` plus the product of `x`, less its first coefficients, and `y`; `count` coefficients of `x`
remain. -/
def multiplyAdd (x : Element) : (count : Nat) → (y sum : Element) → Element
  | 0, _, sum => sum
  | count + 1, y, sum =>
    multiplyAdd x count (Element.shifted y) (if x.getLsbD count then sum ^^^ y else sum)

/-- The product of two elements. -/
def multiply (x y : Element) : Element := multiplyAdd x 128 y 0

/-- The element whose coefficients are the bits of a block. -/
def Element.ofBytes (bs : Bytes) : Element := BitVec.ofNat 128 (ofBigEndian bs)

/-- The polynomial with the given coefficients, the highest first, and no constant term,
at `point`. -/
def hash (point : Element) (coefficients : List Element) : Element :=
  coefficients.foldl (fun sum c => multiply (sum ^^^ c) point) 0

/-! ## The mode -/

/-- The block that is encrypted for position `counter`. -/
def counterBlock (nonce : Bytes) (counter : Nat) : Bytes := nonce ++ bigEndian 4 counter

/-- The first `length` bytes of the keystream, which starts at counter 2. -/
def keystream (encrypt : Bytes → Bytes) (nonce : Bytes) (length : Nat) : Bytes :=
  ((List.range ((length + 15) / 16)).flatMap fun i =>
    encrypt (counterBlock nonce (i + 2))).take length

/-- The input of the tag: the ciphertext filled up to whole blocks, and a block with the lengths of
the associated data and of the ciphertext in bits. -/
def authenticated (ciphertext : Bytes) : Bytes :=
  ciphertext ++ zeroFill 16 ciphertext.length ++ bigEndian 8 0 ++
    bigEndian 8 (8 * ciphertext.length)

/-- The authentication tag of a ciphertext. -/
def tag (encrypt : Bytes → Bytes) (nonce ciphertext : Bytes) : Bytes :=
  let point := Element.ofBytes (encrypt (zeroBytes 16))
  let sum := hash point ((allBlocks 16 (authenticated ciphertext)).map Element.ofBytes)
  xorBytes (bigEndian 16 sum.toNat) (encrypt (counterBlock nonce 1))

/-! ## Lengths -/

theorem length_keystream {encrypt : Bytes → Bytes}
    (h : ∀ b, (encrypt b).length = 16) (nonce : Bytes)
    (length : Nat) : (keystream encrypt nonce length).length = length := by
  rw [keystream, List.length_take, length_flatMap_of_length fun _ => h _, List.length_range]
  omega

theorem length_tag {encrypt : Bytes → Bytes} (h : ∀ b, (encrypt b).length = 16)
    (nonce ciphertext : Bytes) : (tag encrypt nonce ciphertext).length = 16 := by
  rw [tag, length_xorBytes, length_bigEndian, h]
  rfl

end SealedToken.Gcm
