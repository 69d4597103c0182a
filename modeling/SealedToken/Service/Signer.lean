import SealedToken.Envelope.Scan
import SealedToken.Error
import SealedToken.NonceSource

/-!
# Signatures

A signature is an envelope whose payload is the authentication code of the signed bytes and a nonce,
and which carries the nonce and the version of the key. The signed bytes are not in it: who checks
the signature has them.

* `Signer`: a hash, a key source, and a source of nonces.
* `Signer.sign`, `Signer.verify`: making a signature under the current key, and checking one under
  the key of the version that it carries.
* `SignerSettings`: what a signer is built from.
-/

namespace SealedToken

/-- The options of a signer's reader: a nonce entry may be there. -/
def Dialect.signer (kind : KeyVersion.Kind) : Dialect := { kind, allowNonce := true }

/-- Makes and checks signatures. -/
structure Signer (κ : Type) where
  hash : HashAlgorithm
  keys : κ
  nonces : NonceSource

namespace Signer

variable {κ : Type}

/-- A signer that takes its nonces from the system. -/
def ofHash (hash : HashAlgorithm) (keys : κ) : Signer κ := ⟨hash, keys, .system⟩

variable [KeySource κ]

/-- A signature under the current key. With a nonce of size zero the same payload and key always
give the same signature. -/
def sign (signer : Signer κ) (payload : Bytes) (nonceSize : UInt8) : Action TokenError Bytes := do
  let nonce ← (signer.nonces.draw nonceSize).mapError .ofNonce
  let resolved ← (KeySource.resolve signer.keys none).mapError .transport
  let code := signer.hash.mac resolved.key payload nonce
  let signature ← Action.ofExcept <|
    (Envelope.encode ⟨resolved.version, some nonce, code⟩).mapError .ofEnvelope
  Action.emit (.payloadSigned signer.hash resolved.version.isSome nonce.length)
  return signature

/-- Whether the payload of a well-formed signature is the code of `payload` and its nonce; a
signature that is not well formed is an error. -/
def verify (signer : Signer κ) (signature payload : Bytes) : Action TokenError Bool := do
  let options := Dialect.signer (KeySource.kind signer.keys)
  let envelope ← Action.ofExcept ((Envelope.decode options signature).mapError .ofEnvelope)
  let resolved ← (KeySource.resolve signer.keys envelope.version).mapError .transport
  let nonce := envelope.nonce.getD []
  let genuine := signer.hash.checkMac resolved.key payload nonce envelope.payload
  Action.emit (.signatureChecked signer.hash envelope.version.isSome (nonce != []) genuine)
  return genuine

end Signer

/-- What a signer is built from. Only the key source is required. -/
structure SignerSettings (κ : Type) where
  hash : HashAlgorithm := default
  keys : Option κ := none
  nonces : NonceSource := .system

/-- The signer of the settings. -/
def SignerSettings.build {κ : Type} (settings : SignerSettings κ) : Except TokenError (Signer κ) :=
  match settings.keys with
  | some keys => .ok ⟨settings.hash, keys, settings.nonces⟩
  | none => .error (.configuration .signerWithoutKeys)

end SealedToken
