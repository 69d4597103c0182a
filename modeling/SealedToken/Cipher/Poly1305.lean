import SealedToken.Bytes

/-!
# Poly1305 authentication

* `Poly1305.tag`: the tag of a message under a one-time key of 32 bytes, a polynomial modulo the
  prime 2^130 - 5 plus the second half of the key.
-/

namespace SealedToken.Poly1305

/-- The modulus. -/
def prime : Nat := 0x3fffffffffffffffffffffffffffffffb

/-- The bits of the first half of the key that the point may have. -/
def pointMask : Nat := 0x0ffffffc0ffffffc0ffffffc0fffffff

/-- The point at which the message's polynomial is taken. -/
def point (key : Bytes) : Nat := ofLittleEndian (key.take 16) &&& pointMask

/-- A block of a message as a coefficient, a byte 1 after its last. -/
def coefficient (block : Bytes) : Nat := ofLittleEndian (block ++ [1])

/-- The message's polynomial at `point`. -/
def polynomial (point : Nat) (message : Bytes) : Nat :=
  (allBlocks 16 message).foldl (fun sum block => (sum + coefficient block) * point % prime) 0

/-- The tag of a message. -/
def tag (key message : Bytes) : Bytes :=
  littleEndian 16 (polynomial (point key) message + ofLittleEndian ((key.drop 16).take 16))

@[simp] theorem length_tag (key message : Bytes) : (tag key message).length = 16 :=
  length_littleEndian 16 _

end SealedToken.Poly1305
