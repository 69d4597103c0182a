import SealedToken.Bytes

/-!
# Cipher nonces

* `Nonce`: the 12 bytes that a plaintext is sealed under.
* `NonceError`: why no nonce could be had, with its `message`.
* `checkNonceLength`, `Nonce.ofBytes`: only the one length is supported.
-/

namespace SealedToken

/-- The length of a cipher nonce in bytes. -/
def nonceLength : Nat := 12

/-- The bytes that a plaintext is sealed under. -/
structure Nonce where
  bytes : Bytes
  length_bytes : bytes.length = nonceLength
deriving DecidableEq, Repr

/-- Why no nonce could be had. -/
inductive NonceError where
  /-- the source of random bytes failed -/
  | entropy (reason : String)
  | invalidLength (requested supported : Nat)
deriving DecidableEq, Repr

/-- The text of an error. -/
def NonceError.message : NonceError → String
  | .entropy reason => s!"entropy source failure: {reason}"
  | .invalidLength requested supported =>
    s!"invalid nonce length: requested={requested}, supported={supported}"

/-- Refuses every length but that of a nonce. -/
def checkNonceLength (length : Nat) : Except NonceError Unit :=
  if length = nonceLength then .ok () else .error (.invalidLength length nonceLength)

/-- The nonce of the given bytes. -/
def Nonce.ofBytes (bs : Bytes) : Except NonceError Nonce :=
  if h : bs.length = nonceLength then .ok ⟨bs, h⟩ else .error (.invalidLength bs.length nonceLength)

end SealedToken
