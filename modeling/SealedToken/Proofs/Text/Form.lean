import SealedToken.Error
import SealedToken.Proofs.Text.Base64
import SealedToken.Proofs.Text.Hex

/-!
# Token text and the bytes it spells

* `TextForm.normalized`: the spelling of a text that `encode` would have written. Only hexadecimal
  text has two spellings.
* `TextForm.decode_eq_ok_iff`: `decode` gives a byte string exactly if the normal spelling is its
  `encode`.
* `TextForm.readToken_encode`: `readToken` inverts `encode`.
-/

namespace SealedToken.TextForm

/-- The text that `encode` writes for the same bytes: hexadecimal letters in lower case, base64
unchanged. -/
def normalized : TextForm → String → String
  | base64Url, text => text
  | base64Standard, text => text
  | hex, text => Hex.lowercased text

theorem normalized_of_ne_hex {form : TextForm} (h : form ≠ hex) (text : String) :
    form.normalized text = text := by
  cases form with
  | hex => exact absurd rfl h
  | base64Url => rfl
  | base64Standard => rfl

@[simp] theorem normalized_encode (form : TextForm) (bs : Bytes) :
    form.normalized (form.encode bs) = form.encode bs := by
  cases form with
  | hex => exact Hex.lowercased_encode bs
  | base64Url => rfl
  | base64Standard => rfl

/-- `decode` accepts exactly what `encode` produces, but for the case of hexadecimal letters. -/
theorem decode_eq_ok_iff {form : TextForm} {text : String} {bs : Bytes} :
    form.decode text = .ok bs ↔ form.normalized text = form.encode bs := by
  cases form with
  | hex => exact mapError_eq_ok_iff.trans Hex.decode_eq_ok_iff
  | base64Url => exact mapError_eq_ok_iff.trans Base64.decode_refused_eq_ok_iff
  | base64Standard => exact mapError_eq_ok_iff.trans Base64.decode_refused_eq_ok_iff

theorem readToken_eq_ok_iff {form : TextForm} {token : String} {bs : Bytes} :
    form.readToken token = .ok bs ↔ form.normalized token = form.encode bs :=
  mapError_eq_ok_iff.trans decode_eq_ok_iff

@[simp] theorem readToken_encode (form : TextForm) (bs : Bytes) :
    form.readToken (form.encode bs) = .ok bs :=
  readToken_eq_ok_iff.mpr (normalized_encode form bs)

end SealedToken.TextForm
