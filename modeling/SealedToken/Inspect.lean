import SealedToken.Config
import SealedToken.Key.Fixed
import SealedToken.Key.ParameterStore
import SealedToken.Key.SecretStore
import SealedToken.Text.Quoted

/-!
# Diagnostic texts

* `Inspect`: the text that logs and debuggers show of a value. Keys and secrets are withheld: all
  that such a text may tell of them is whether they are there, or how long they are.
* `inspectRecord`, `inspectTuple`: how structures and constructors are written.
-/

namespace SealedToken

/-- A type whose values have a diagnostic text. -/
class Inspect (α : Type) where
  /-- the diagnostic text -/
  inspect : α → String

export Inspect (inspect)

/-- Fields with their names in braces; `more` says that there are others. -/
def inspectRecord (name : String) (fields : List (String × String)) (more : Bool) : String :=
  let shown := fields.map fun (field, value) => field ++ ": " ++ value
  name ++ " \x7b " ++ ", ".intercalate (if more then shown ++ [".."] else shown) ++ " \x7d"

/-- A constructor with one argument. -/
def inspectTuple (name argument : String) : String := name ++ "(" ++ argument ++ ")"

/-- What stands for a secret. -/
def redacted : String := quotedText "<redacted>"

/-! ## Simple values -/

instance : Inspect String := ⟨quotedText⟩

/-- Sizes, numbers of versions. -/
instance : Inspect Nat := ⟨toString⟩

instance {α : Type} [Inspect α] : Inspect (Option α) where
  inspect
    | some value => inspectTuple "Some" (inspect value)
    | none => "None"

instance : Inspect CipherSuite := ⟨Choice.title⟩
instance : Inspect HashAlgorithm := ⟨Choice.title⟩
instance : Inspect TextForm := ⟨Choice.title⟩

instance : Inspect KeyVersion where
  inspect
    | .label text => inspectTuple "Label" (inspect text)
    | .number value => inspectTuple "Number" (inspect value.toNat)

/-! ## Values with secrets -/

/-- The name of a cipher, without its key. -/
def cipherName : Cipher → String
  | .aes128Gcm _ => "Aes128Gcm"
  | .aes192Gcm _ => "Aes192Gcm"
  | .aes256Gcm _ => "Aes256Gcm"
  | .chaCha20Poly1305 _ => "ChaCha20Poly1305"

instance : Inspect Cipher where
  inspect cipher := inspectTuple "AeadImpl" (inspect (cipherName cipher))

instance : Inspect FixedKey where
  inspect fixed :=
    inspectRecord "StaticKey" [("key", redacted), ("version", inspect fixed.version)] false

instance : Inspect VersionedKey where
  inspect resolved :=
    inspectRecord "ResolvedKey"
      [("key", "<" ++ inspect resolved.key.length ++ " bytes redacted>"),
        ("version", inspect resolved.version)] false

/-- Whether a secret is there. -/
def inspectSecret {α : Type} : Option α → String
  | some _ => inspectTuple "Some" redacted
  | none => "None"

instance : Inspect SecretAnswer where
  inspect value :=
    inspectRecord "SecretValue"
      [("binary", inspectSecret value.binary), ("string", inspectSecret value.string),
        ("version_id", inspect value.versionId)] false

instance : Inspect ParameterAnswer where
  inspect value :=
    inspectRecord "ParameterValue"
      [("value", redacted), ("version", inspect value.version.toNat)] false

/-! ## Services and settings -/

variable {κ : Type} [Inspect κ]

instance : Inspect (Codec κ) where
  inspect codec :=
    inspectRecord "EnvelopeCodec"
      [("cipher", inspect codec.suite), ("encoding", inspect codec.encoding),
        ("keys", inspect codec.keys)] false

instance : Inspect (Signer κ) where
  inspect signer :=
    inspectRecord "TokenSigner" [("hash", inspect signer.hash), ("keys", inspect signer.keys)] true

instance : Inspect (Csrf κ) where
  inspect csrf :=
    inspectRecord "CsrfTokens"
      [("signer", inspect csrf.signer), ("encoding", inspect csrf.encoding),
        ("nonce_size", inspect csrf.nonceSize.toNat)] false

instance : Inspect Config where
  inspect config :=
    inspectRecord "TokenConfig"
      [("cipher", inspect config.cipher), ("hash", inspect config.hash),
        ("encoding", inspect config.encoding),
        ("csrf_nonce_size", inspect config.csrfNonceSize.toNat)] false

end SealedToken
