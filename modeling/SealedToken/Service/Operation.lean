import SealedToken.Config

/-!
# Operations on tokens

* `Services`: a codec, a signer and a token service, each of which may have failed to be built.
* `Assembly`: the ways to build them from a key source; `Assembly.services`.
* `Operation`: what can be asked of the services; `Services.perform` does it.
-/

namespace SealedToken

/-- The services over one key source, or why they could not be built. -/
structure Services (κ : Type) where
  codec : Except TokenError (Codec κ)
  signer : Except TokenError (Signer κ)
  csrf : Except TokenError (Csrf κ)

/-! ## Building -/

/-- How services are built from a key source. -/
inductive Assembly where
  /-- all from one set of settings -/
  | configured (config : Config)
  /-- the suite and the hash from settings, and all else by default -/
  | plain (config : Config)
  /-- the settings that are given, one by one, and perhaps a source of nonces -/
  | custom (overrides : ConfigOverrides) (nonces : Option NonceSource)

/-- The services of a key source. -/
def Assembly.services {κ : Type} (assembly : Assembly) (keys : Option κ) : Services κ :=
  match assembly with
  | .configured config =>
    { codec := config.codec keys
      signer := config.signer keys
      csrf := config.csrf keys }
  | .plain config =>
    let signer := SignerSettings.build { hash := config.hash, keys }
    { codec := CodecSettings.build { suite := config.cipher, keys }
      signer
      csrf := signer.map .ofSigner }
  | .custom overrides nonces =>
    let signer := SignerSettings.build
      { hash := overrides.hash.getD default, keys, nonces := nonces.getD .system }
    { codec := CodecSettings.build
        { suite := overrides.cipher.getD default
          encoding := overrides.encoding.getD default
          keys }
      signer
      csrf := do
        let csrf := Csrf.ofSigner (← signer)
        let csrf := csrf.withEncoding (overrides.encoding.getD csrf.encoding)
        match overrides.csrfNonceSize with
        | some size => csrf.withNonceSize size
        | none => return csrf }

/-! ## Performing operations -/

/-- The operations of the services. -/
inductive Operation where
  | encode (plaintext : Bytes)
  | decode (envelope : Bytes)
  | encodeText (plaintext : Bytes)
  | decodeText (token : String)
  | sign (payload : Bytes) (nonceSize : UInt8)
  | verify (signature payload : Bytes)
  | issue (sessionId : String)
  | validate (token sessionId : String)
deriving DecidableEq, Repr

/-- The result of an operation. -/
inductive Product where
  | bytes (value : Bytes)
  | text (value : String)
  | verdict (value : Bool)
deriving DecidableEq, Repr

/-- Does an operation with the service that it belongs to. -/
def Services.perform {κ : Type} [KeySource κ] (services : Services κ) :
    Operation → Action TokenError Product
  | .encode plaintext => do
    let codec ← Action.ofExcept services.codec
    .bytes <$> codec.encode plaintext
  | .decode envelope => do
    let codec ← Action.ofExcept services.codec
    .bytes <$> codec.decode envelope
  | .encodeText plaintext => do
    let codec ← Action.ofExcept services.codec
    .text <$> codec.encodeText plaintext
  | .decodeText token => do
    let codec ← Action.ofExcept services.codec
    .bytes <$> codec.decodeText token
  | .sign payload nonceSize => do
    let signer ← Action.ofExcept services.signer
    .bytes <$> signer.sign payload nonceSize
  | .verify signature payload => do
    let signer ← Action.ofExcept services.signer
    .verdict <$> signer.verify signature payload
  | .issue sessionId => do
    let csrf ← Action.ofExcept services.csrf
    .text <$> csrf.issue sessionId
  | .validate token sessionId => do
    let csrf ← Action.ofExcept services.csrf
    .verdict <$> csrf.validate token sessionId

end SealedToken
