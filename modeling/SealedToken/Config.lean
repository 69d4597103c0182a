import SealedToken.Service.Codec
import SealedToken.Service.Csrf

/-!
# Settings

* `Config`: the settings of all services. `Config.codec`, `Config.signer`, `Config.csrf` build them.
* `ConfigOverrides`: settings of which some are given; `ConfigOverrides.config` takes the defaults
  for the others.
* `Config.validate`: the size of nonces must not be zero.
-/

namespace SealedToken

/-- The settings of all services. -/
structure Config where
  cipher : CipherSuite := default
  hash : HashAlgorithm := default
  encoding : TextForm := default
  csrfNonceSize : UInt8 := defaultNonceSize
deriving DecidableEq, Repr

/-- Settings of which some are given. -/
structure ConfigOverrides where
  cipher : Option CipherSuite := none
  hash : Option HashAlgorithm := none
  encoding : Option TextForm := none
  csrfNonceSize : Option UInt8 := none
deriving DecidableEq, Repr

/-- The settings that are given, and the defaults for the others. -/
def ConfigOverrides.config (overrides : ConfigOverrides) : Config where
  cipher := overrides.cipher.getD default
  hash := overrides.hash.getD default
  encoding := overrides.encoding.getD default
  csrfNonceSize := overrides.csrfNonceSize.getD defaultNonceSize

namespace Config

/-- Refuses nonces of size zero. -/
def validate (config : Config) : Except TokenError Unit :=
  if config.csrfNonceSize = 0 then .error (.configuration .zeroNonceSetting) else .ok ()

variable {κ : Type}

/-- The codec of the settings; a missing key source is refused. -/
def codec (config : Config) (keys : Option κ) : Except TokenError (Codec κ) :=
  CodecSettings.build { suite := config.cipher, encoding := config.encoding, keys }

/-- The signer of the settings; a missing key source is refused. -/
def signer (config : Config) (keys : Option κ) : Except TokenError (Signer κ) :=
  SignerSettings.build { hash := config.hash, keys }

/-- The token service of the settings, which must be valid. -/
def csrf (config : Config) (keys : Option κ) : Except TokenError (Csrf κ) := do
  config.validate
  let signer ← config.signer keys
  ((Csrf.ofSigner signer).withEncoding config.encoding).withNonceSize config.csrfNonceSize

end Config

end SealedToken
