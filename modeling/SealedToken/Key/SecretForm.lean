import SealedToken.Choice
import SealedToken.Text.Base64
import SealedToken.Text.Hex

/-!
# Secrets kept as text

* `SecretForm`: how a text secret becomes key bytes.
* `SecretForm.decode`: the key bytes. Line breaks do not count in base64, and spare bits are
  ignored.
* `SecretFault`: why a text is no such secret, with its `message`.
-/

namespace SealedToken

/-- Why a text is no secret in a given form. -/
inductive SecretFault where
  | base64 (reason : String)
  | hex (reason : String)
deriving DecidableEq, Repr

/-- The text of an error. -/
def SecretFault.message : SecretFault → String
  | base64 reason => s!"secret is not valid unpadded base64: {reason}"
  | hex reason => s!"secret is not valid hex: {reason}"

/-- How a text secret becomes key bytes. -/
inductive SecretForm where
  /-- the first that fits of base64, hexadecimal and the text itself -/
  | auto
  /-- unpadded, in the standard alphabet -/
  | base64
  | hex
  /-- the UTF-8 form of the text -/
  | raw
deriving DecidableEq, Repr

namespace SecretForm

instance : Choice SecretForm where
  choices := [auto, base64, hex, raw]
  name
    | auto => "auto"
    | base64 => "base64"
    | hex => "hex"
    | raw => "raw"
  title
    | auto => "Auto"
    | base64 => "Base64"
    | hex => "Hex"
    | raw => "Raw"

instance : Inhabited SecretForm := ⟨auto⟩

/-- A text without its line breaks, such as those of a secret kept in a file. -/
def joinLines (text : String) : String :=
  String.ofList (text.toList.filter fun c => c ≠ '\r' ∧ c ≠ '\n')

/-- The bytes of a base64 secret. -/
def readBase64 (text : String) : Except Base64.Fault Bytes :=
  Base64.decode .standard .ignored (joinLines text)

/-- The key bytes of a text secret. -/
def decode : SecretForm → String → Except SecretFault Bytes
  | auto, text =>
    match readBase64 text with
    | .ok bs => .ok bs
    | .error _ =>
      match Hex.decode text with
      | .ok bs => .ok bs
      | .error _ => .ok (utf8 text)
  | base64, text => (readBase64 text).mapError fun fault => .base64 fault.message
  | hex, text => (Hex.decode text).mapError fun fault => .hex fault.message
  | raw, text => .ok (utf8 text)

end SecretForm

end SealedToken
