import SealedToken.Envelope.Scan
import SealedToken.Error
import SealedToken.NonceSource

/-!
# Encrypted tokens

A token is an envelope whose payload is a nonce, a ciphertext and a tag, and whose version is that
of the key it was encrypted with. The version is in the clear and is not authenticated.

* `Codec`: a cipher suite, a text form, and a key source.
* `Codec.encode`, `Codec.decode`: from plaintext to envelope under the current key, and back under
  the key of the version that the envelope carries.
* `Codec.encodeText`, `Codec.decodeText`: the same with the text form.
* `CodecSettings`: what a codec is built from.
-/

namespace SealedToken

/-- The options of a codec's reader: no nonce entry. -/
def Dialect.codec (kind : KeyVersion.Kind) : Dialect := { kind }

/-- Makes and reads encrypted tokens. -/
structure Codec (κ : Type) where
  suite : CipherSuite
  encoding : TextForm
  keys : κ
deriving DecidableEq, Repr

namespace Codec

variable {κ : Type}

/-- A codec with the default text form. -/
def ofSuite (suite : CipherSuite) (keys : κ) : Codec κ := ⟨suite, default, keys⟩

variable [KeySource κ]

/-- Refuses a version of another kind than the key source declares: it could not be read back. -/
def checkKind (codec : Codec κ) (version : Option KeyVersion) : Except TokenError Unit :=
  let declared := KeySource.kind codec.keys
  match version with
  | some version =>
    if version.kind = declared then .ok ()
    else .error (.configuration (.kindMismatch version.kind declared))
  | none => .ok ()

/-- The envelope of a plaintext under the current key. -/
def encode (codec : Codec κ) (plaintext : Bytes) : Action TokenError Bytes := do
  let resolved ← (KeySource.resolve codec.keys none).mapError .transport
  Action.ofExcept (codec.checkKind resolved.version)
  let payload ← (codec.suite.encode resolved.key plaintext).mapError .ofCipher
  let envelope ← Action.ofExcept <|
    (Envelope.encode ⟨resolved.version, none, payload⟩).mapError .ofEnvelope
  Action.emit (.envelopeSealed codec.suite resolved.version.isSome envelope.length)
  return envelope

/-- The events of an attempt to open an envelope of `length` bytes. -/
def openingEvents (codec : Codec κ) (versioned : Bool) (length : Nat) :
    Except CipherError Bytes → List Event
  | .ok _ => [.envelopeOpened codec.suite versioned length]
  | .error .tagMismatch => [.authenticationFailed versioned]
  | .error _ => []

/-- The plaintext of an envelope under the key of its version, all of it or an error. -/
def decode (codec : Codec κ) (bytes : Bytes) : Action TokenError Bytes := do
  let options := Dialect.codec (KeySource.kind codec.keys)
  let envelope ← Action.ofExcept ((Envelope.decode options bytes).mapError .ofEnvelope)
  let resolved ← (KeySource.resolve codec.keys envelope.version).mapError .transport
  let opened := codec.suite.decode resolved.key envelope.payload
  Action.record [] (codec.openingEvents envelope.version.isSome bytes.length opened)
  Action.ofExcept (opened.mapError .ofCipher)

/-- The text form of the envelope of a plaintext. -/
def encodeText (codec : Codec κ) (plaintext : Bytes) : Action TokenError String := do
  let envelope ← codec.encode plaintext
  return codec.encoding.encode envelope

/-- The plaintext of the text form of an envelope. -/
def decodeText (codec : Codec κ) (token : String) : Action TokenError Bytes := do
  let envelope ← Action.ofExcept (codec.encoding.readToken token)
  codec.decode envelope

end Codec

/-- What a codec is built from. Only the key source is required. -/
structure CodecSettings (κ : Type) where
  suite : CipherSuite := default
  encoding : TextForm := default
  keys : Option κ := none

/-- The codec of the settings. -/
def CodecSettings.build {κ : Type} (settings : CodecSettings κ) : Except TokenError (Codec κ) :=
  match settings.keys with
  | some keys => .ok ⟨settings.suite, settings.encoding, keys⟩
  | none => .error (.configuration .codecWithoutKeys)

end SealedToken
