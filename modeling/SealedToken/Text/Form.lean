import SealedToken.Choice
import SealedToken.Text.Base64
import SealedToken.Text.Hex

/-!
# Tokens as text

* `TextForm`: how the bytes of a token travel in cookies, headers and query strings.
* `TextForm.encode`, `TextForm.decode`: writing and reading.
* `TextFault`: why a text is refused, with its `message`.
-/

namespace SealedToken

/-- The text form of a token. -/
inductive TextForm where
  /-- unpadded base64, safe in URLs -/
  | base64Url
  /-- unpadded base64 in the standard alphabet -/
  | base64Standard
  /-- lowercase hexadecimal -/
  | hex
deriving DecidableEq, Repr

/-- Why a text is no token. -/
inductive TextFault where
  | base64 (fault : Base64.Fault)
  | hex (fault : Hex.Fault)
deriving DecidableEq, Repr

/-- The text of a fault. -/
def TextFault.message : TextFault → String
  | base64 fault => fault.message
  | hex fault => fault.message

namespace TextForm

instance : Choice TextForm where
  choices := [base64Url, base64Standard, hex]
  name
    | base64Url => "base64_url_no_pad"
    | base64Standard => "base64_std_no_pad"
    | hex => "hex"
  title
    | base64Url => "Base64UrlNoPad"
    | base64Standard => "Base64StdNoPad"
    | hex => "Hex"

instance : Inhabited TextForm := ⟨base64Url⟩

/-- The text form of a byte string. -/
def encode : TextForm → Bytes → String
  | base64Url => Base64.encode .urlSafe
  | base64Standard => Base64.encode .standard
  | hex => Hex.encode

/-- The byte string of a text form. Spare bits must be zero. -/
def decode : TextForm → String → Except TextFault Bytes
  | base64Url, text => (Base64.decode .urlSafe .refused text).mapError .base64
  | base64Standard, text => (Base64.decode .standard .refused text).mapError .base64
  | hex, text => (Hex.decode text).mapError .hex

end TextForm

end SealedToken
