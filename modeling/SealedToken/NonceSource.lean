import SealedToken.Action

/-!
# Sources of nonces

Every sealed plaintext and every salted signature takes a fresh nonce; nothing is counted or
derived.

* `NonceSource`: the system's random bytes, or a source of one's own for fixed results.
* `NonceSource.draw`: a nonce of a given size.
* `freshNonce`: a cipher nonce from the system.
* `Cipher.encode`, `CipherSuite.encode`: sealing under such a nonce, which goes in front.
-/

namespace SealedToken

/-- Where the nonces of signatures come from. -/
inductive NonceSource where
  /-- the system's random bytes -/
  | system
  /-- bytes of exactly the length asked for, or an error -/
  | custom (fill : (length : Nat) → Except NonceError { bs : Bytes // bs.length = length })

instance : Inhabited NonceSource := ⟨.system⟩

namespace NonceSource

/-- A source that repeats `pattern` from its start on each call; zero bytes if that is empty. -/
def repeating (pattern : Bytes) : NonceSource :=
  .custom fun length =>
    .ok ⟨(List.range length).map fun i => pattern.getD (i % pattern.length) 0, by simp⟩

/-- A source that always fails. -/
def failing (error : NonceError) : NonceSource := .custom fun _ => .error error

/-- A nonce of the given size. Nothing is asked of the source for an empty one. -/
def draw (source : NonceSource) (size : UInt8) : Action NonceError Bytes :=
  if size = 0 then pure []
  else match source with
    | system => Action.draw size.toNat
    | custom fill => do
      Action.record [.fill size.toNat] []
      let bs ← Action.ofExcept (fill size.toNat)
      return bs.val

end NonceSource

/-- A fresh cipher nonce of the given length, which must be the one supported. -/
def freshNonce (length : Nat) : Action NonceError Nonce := do
  Action.ofExcept (checkNonceLength length)
  let bs ← Action.draw nonceLength
  Action.ofExcept (Nonce.ofBytes bs)

/-- A fresh nonce, and ciphertext and tag of the plaintext under it. -/
def Cipher.encode (cipher : Cipher) (plaintext : Bytes) : Action CipherError Bytes := do
  let nonce ← (freshNonce cipher.suite.nonceLength).mapError .nonce
  let sealed ← Action.ofExcept (cipher.sealWith nonce plaintext)
  return nonce.bytes ++ sealed

/-- A fresh nonce, and ciphertext and tag of the plaintext under it and a key of the suite. -/
def CipherSuite.encode (suite : CipherSuite)
    (key plaintext : Bytes) : Action CipherError Bytes := do
  let cipher ← Action.ofExcept (Cipher.ofKey suite key)
  cipher.encode plaintext

end SealedToken
