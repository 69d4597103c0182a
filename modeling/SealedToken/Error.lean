import SealedToken.Text.Form
import SealedToken.Key.Source

/-!
# Token errors

* `TokenError`: why making or reading a token failed, with its `message`.
* `ConfigurationFault`: what is wrong with the settings, the keys or the versions in use.
* `TokenError.ofNonce`, `ofCipher`, `ofEnvelope`: what the errors of the layers below become.
* `TextForm.readToken`: reading a token's text form, with such an error.
* `TokenError.disposition`, `TokenError.status`: what an untrusted caller may learn. Only a token
  that proved false is the caller's fault.
-/

namespace SealedToken

/-- What is wrong with the settings, the keys or the versions in use. -/
inductive ConfigurationFault where
  | nonce (cause : NonceError)
  | crypto (cause : CipherError)
  | envelope (cause : EnvelopeError)
  /-- a key source gave a version of another kind than it declares -/
  | kindMismatch (returned declared : KeyVersion.Kind)
  | codecWithoutKeys
  | signerWithoutKeys
  /-- the setting for the size of nonces is zero -/
  | zeroNonceSetting
  /-- the size of nonces is zero -/
  | zeroNonceSize
deriving DecidableEq, Repr

/-- The text of a fault. -/
def ConfigurationFault.message : ConfigurationFault → String
  | nonce cause => cause.message
  | crypto cause => cause.message
  | envelope cause => cause.message
  | kindMismatch returned declared =>
    s!"key source returned a {returned.title} version but declares {declared.title}"
  | codecWithoutKeys => "codec requires a key source"
  | signerWithoutKeys => "signer requires a key source"
  | zeroNonceSetting => "csrf_nonce_size must be non-zero"
  | zeroNonceSize => "CSRF nonce size must be non-zero"

/-- The two ways in which an error is shown to an untrusted caller. -/
inductive Disposition where
  /-- the token is not genuine -/
  | forbidden
  /-- anything else -/
  | serverError
deriving DecidableEq, Repr

/-- The HTTP status of a disposition. -/
def Disposition.status : Disposition → Nat
  | forbidden => 403
  | serverError => 500

/-- Why making or reading a token failed. -/
inductive TokenError where
  | configuration (fault : ConfigurationFault)
  /-- the key source failed -/
  | transport (cause : KeyError)
  /-- a token that was read is not framed as an envelope -/
  | malformedEnvelope (cause : EnvelopeError)
  /-- a token that was read is not genuine -/
  | authentication
  /-- a payload too short to be sealed, or a failure to seal -/
  | cipher (cause : CipherError)
  /-- no random bytes -/
  | entropy (reason : String)
  /-- a token that was read is not text of the encoding -/
  | encoding (form : TextForm) (fault : TextFault)
deriving DecidableEq, Repr

namespace TokenError

/-- The text of an error. -/
def message : TokenError → String
  | configuration fault => s!"configuration error: {fault.message}"
  | transport cause => cause.message
  | malformedEnvelope cause => s!"malformed envelope: {cause.message}"
  | authentication => "authentication failed"
  | cipher cause => s!"cipher error: {cause.message}"
  | entropy reason => s!"entropy error: {reason}"
  | encoding form fault => s!"token encoding error: {Choice.title form}: {fault.message}"

/-- The disposition of an error: only an authentication failure is forbidden. -/
def disposition : TokenError → Disposition
  | authentication => .forbidden
  | _ => .serverError

/-- The HTTP status of the error. -/
def status (error : TokenError) : Nat := error.disposition.status

/-- A length that is not supported is a matter of configuration. -/
def ofNonce : NonceError → TokenError
  | .entropy reason => entropy reason
  | .invalidLength requested supported =>
    configuration (.nonce (.invalidLength requested supported))

/-- A key of the wrong length is a matter of configuration, and a wrong tag says that the token is
not genuine. -/
def ofCipher : CipherError → TokenError
  | .invalidKeyLength suite expected actual =>
    configuration (.crypto (.invalidKeyLength suite expected actual))
  | .tagMismatch => authentication
  | .nonce cause => ofNonce cause
  | cause => cipher cause

/-- What could not be written is a matter of configuration, what could not be read is malformed. -/
def ofEnvelope (cause : EnvelopeError) : TokenError :=
  if cause.isWriterFault then configuration (.envelope cause) else malformedEnvelope cause

end TokenError

/-- The byte string of a token's text form. -/
def TextForm.readToken (form : TextForm) (token : String) : Except TokenError Bytes :=
  (form.decode token).mapError (.encoding form)

end SealedToken
