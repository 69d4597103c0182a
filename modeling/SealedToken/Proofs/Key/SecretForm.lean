import SealedToken.Key.SecretForm
import SealedToken.Proofs.Text.Base64
import SealedToken.Proofs.Text.Hex

/-!
# Hexadecimal digits as secrets

Hexadecimal digits are base64 symbols, and an even number of them never leaves one alone in the last
group. So a text of digits is base64, and `SecretForm.auto`, which tries base64 first, never reads
it as hexadecimal.

* `SecretForm.utf8_joinLines`, `SecretForm.readBase64_eq_ok_iff`: the base64 secrets and their
  bytes.
* `Hex.exists_sextet`: the six-bit value of a hexadecimal digit.
* `SecretForm.exists_readBase64_of_digits`: the bytes that `readBase64` makes of digits.
* `SecretForm.auto_never_reads_hex`: `auto` reads a text as base64 or else as its own bytes, and so
  never gives the key that was stored as digits.
-/

namespace SealedToken

/-! ## Line breaks -/

namespace SecretForm

/-- The byte is neither of the two line breaks that `readBase64` leaves out. -/
def isText (b : UInt8) : Bool := b ≠ 13 ∧ b ≠ 10

theorem isText_of_mem {c : Char} {b : UInt8} (hc : c ≠ '\r' ∧ c ≠ '\n')
    (hb : b ∈ String.utf8EncodeChar c) :
    isText b = true := by
  by_cases hascii : c.toNat < 128
  · rw [utf8EncodeChar_of_lt hascii, List.mem_singleton] at hb
    have hchar : c = Char.ofNat b.toNat := by
      rw [hb, UInt8.toNat_ofNat', Nat.mod_eq_of_lt (by omega), Char.ofNat_toNat]
    refine decide_eq_true ⟨?_, ?_⟩
    · rintro rfl
      exact hc.1 hchar
    · rintro rfl
      exact hc.2 hchar
  · have hle := le_of_mem_utf8EncodeChar (Nat.le_of_not_lt hascii) hb
    refine decide_eq_true ⟨?_, ?_⟩
    · rintro rfl
      exact absurd hle (by decide)
    · rintro rfl
      exact absurd hle (by decide)

/-- The UTF-8 bytes of a character without line breaks: all of them, or none if the character is a
line break. -/
theorem filter_utf8EncodeChar (c : Char) :
    (String.utf8EncodeChar c).filter isText =
      if c ≠ '\r' ∧ c ≠ '\n' then String.utf8EncodeChar c else [] := by
  split
  · next hc => exact List.filter_eq_self.mpr fun b hb => isText_of_mem hc hb
  · next hc =>
    obtain rfl | rfl : c = '\r' ∨ c = '\n' := by simpa [Decidable.or_iff_not_imp_left] using hc
    · rfl
    · rfl

theorem utf8_joinLines (text : String) : utf8 (joinLines text) = (utf8 text).filter isText := by
  rw [joinLines, utf8_ofList, utf8_eq_flatMap]
  induction text.toList with
  | nil => rfl
  | cons c cs ih =>
    rw [List.flatMap_cons, List.filter_append, filter_utf8EncodeChar, ← ih, List.filter_cons]
    by_cases hc : c ≠ '\r' ∧ c ≠ '\n'
    · rw [if_pos hc, if_pos (decide_eq_true hc), List.flatMap_cons]
    · rw [if_neg hc, if_neg (by simpa using hc), List.nil_append]

/-- `readBase64` accepts a text exactly if, without its line breaks, it consists of symbols whose
number is not one more than a multiple of four, and gives the whole bytes of their bits. -/
theorem readBase64_eq_ok_iff {text : String} {bs : Bytes} :
    readBase64 text = .ok bs ↔ ∃ values, Base64.Sextets values ∧
      (utf8 text).filter isText = values.map Base64.Alphabet.standard.symbol ∧
      values.length % 4 ≠ 1 ∧
      bs = Base64.packed values := by
  rw [readBase64, Base64.decode_ignored_eq_ok_iff, utf8_joinLines]

end SecretForm

/-! ## Digits as symbols -/

section

variable {b : UInt8} {n : Nat} {text : String} {key : Bytes}

/-- A hexadecimal digit is a base64 symbol. Its six-bit value is the digit's value plus 52 for a
decimal digit, plus 16 or minus 10 for a letter of lower or upper case. -/
theorem Hex.exists_sextet (h : Hex.value? b = some n) :
    ∃ v, Base64.Alphabet.standard.value? b = some v ∧
      ((n < 10 ∧ v = n + 52) ∨ (10 ≤ n ∧ (v = n + 16 ∨ v + 10 = n))) := by
  unfold Hex.value? at h
  unfold Base64.Alphabet.value?
  grind

/-- A hexadecimal digit is no line break. -/
theorem Hex.isText_of_value? (h : Hex.value? b = some n) : SecretForm.isText b = true := by
  refine decide_eq_true ⟨?_, ?_⟩
  · rintro rfl
    cases h
  · rintro rfl
    cases h

/-- `readBase64` accepts every text of hexadecimal digits, and gives three bytes for each four
digits. -/
theorem SecretForm.exists_readBase64_of_digits
    (h : (utf8 text).map Hex.lowerByte = Hex.digits key) :
    ∃ values, Base64.Sextets values ∧ utf8 text = values.map Base64.Alphabet.standard.symbol ∧
      values.length = 2 * key.length ∧ readBase64 text = .ok (Base64.packed values) := by
  obtain ⟨values, hs, htext⟩ : ∃ values, Base64.Sextets values ∧
      utf8 text = values.map Base64.Alphabet.standard.symbol := by
    refine Base64.exists_sextets_of_forall fun b hb => ?_
    obtain ⟨n, hn⟩ := Hex.exists_value?_of_mem h hb
    obtain ⟨v, hv, -⟩ := Hex.exists_sextet hn
    exact ⟨v, hv⟩
  have hlength : values.length = 2 * key.length := by
    rw [← Hex.length_digits, ← h, htext, List.length_map, List.length_map]
  have hjoined : (utf8 text).filter isText = values.map Base64.Alphabet.standard.symbol := by
    rw [← htext, List.filter_eq_self]
    intro b hb
    obtain ⟨n, hn⟩ := Hex.exists_value?_of_mem h hb
    exact Hex.isText_of_value? hn
  exact ⟨values, hs, htext, hlength, readBase64_eq_ok_iff.mpr ⟨values, hs, hjoined, by omega, rfl⟩⟩

/-- The bytes that base64 makes of hexadecimal digits differ, in the first of them, from the bytes
that the digits spell. -/
theorem Base64.packed_ne_of_digits {values : List Nat} (hs : Base64.Sextets values) (hne : key ≠ [])
    (h : (values.map Base64.Alphabet.standard.symbol).map Hex.lowerByte = Hex.digits key) :
    Base64.packed values ≠ key := by
  obtain ⟨k, key, rfl⟩ := List.exists_cons_of_ne_nil hne
  have hk : k.toNat < 256 := k.toNat_lt
  match values with
  | [] | [_] => simp [Hex.digits_cons] at h
  | v :: w :: values =>
    simp only [Hex.digits_cons, List.map_cons, List.cons.injEq] at h
    obtain ⟨hv, hw, -⟩ : v < 64 ∧ w < 64 ∧ Base64.Sextets values := by
      simpa only [Base64.sextets_cons_iff] using hs
    have hdigit : Hex.value? (Base64.Alphabet.standard.symbol v) = some (k.toNat / 16) :=
      Hex.value?_eq_some_iff.mpr ⟨by omega, h.1⟩
    obtain ⟨v', hv', hcase⟩ := Hex.exists_sextet hdigit
    rw [Base64.Alphabet.value?_eq_some_iff.mpr ⟨hv, rfl⟩, Option.some.injEq] at hv'
    intro hread
    have hfirst := congrArg List.head? hread
    rw [Base64.head?_packed, List.head?_cons, Option.some.injEq,
      ← UInt8.toNat_inj, UInt8.toNat_ofNat', Nat.mod_eq_of_lt (by omega)] at hfirst
    -- the value of the symbol is far above the upper six bits of the byte, or below them
    omega

end

/-! ## Secrets of unknown form -/

namespace SecretForm

theorem decode_base64_eq_ok_iff {text : String} {bs : Bytes} :
    base64.decode text = .ok bs ↔ readBase64 text = .ok bs :=
  mapError_eq_ok_iff

theorem decode_auto_of_ok {text : String} {bs : Bytes} (h : base64.decode text = .ok bs) :
    auto.decode text = .ok bs := by
  rw [decode, decode_base64_eq_ok_iff.mp h]

/-- Every text that `hex` accepts is accepted by `base64`. -/
theorem exists_decode_base64_of_hex {text : String} {key : Bytes} (h : hex.decode text = .ok key) :
    ∃ bs, base64.decode text = .ok bs := by
  have hdigits :=
    Hex.lowercased_eq_encode_iff.mp (Hex.decode_eq_ok_iff.mp (mapError_eq_ok_iff.mp h))
  obtain ⟨values, -, -, -, hread⟩ := exists_readBase64_of_digits hdigits
  exact ⟨_, decode_base64_eq_ok_iff.mpr hread⟩

/-- `auto` never reads a secret as hexadecimal, because every text that `hex` accepts is accepted by
`base64`. It accepts every text, as `base64` or else as the bytes of the text. So for a key that was
stored as hexadecimal digits it gives three bytes for every two of the key, and never the key. -/
theorem auto_never_reads_hex (text : String) :
    (∀ key, hex.decode text = .ok key → ∃ bs, base64.decode text = .ok bs) ∧
    (∀ bs, base64.decode text = .ok bs → auto.decode text = .ok bs) ∧
    (∀ fault, base64.decode text = .error fault → auto.decode text = .ok (utf8 text)) ∧
    ∀ key, key ≠ [] → Hex.lowercased text = Hex.encode key →
      hex.decode text = .ok key ∧
        ∃ bs, auto.decode text = .ok bs ∧ bs.length = 3 * key.length / 2 ∧ bs ≠ key := by
  refine ⟨fun _ => exists_decode_base64_of_hex, fun _ => decode_auto_of_ok, fun fault h => ?_, ?_⟩
  · cases hhex : Hex.decode text with
    | ok key =>
      obtain ⟨bs, hbs⟩ := exists_decode_base64_of_hex (mapError_eq_ok_iff.mpr hhex)
      rw [hbs] at h
      cases h
    | error _ =>
      obtain ⟨_, hread, -⟩ := mapError_eq_error_iff.mp h
      rw [decode, hread, hhex]
  · intro key hne hstored
    have hdigits := Hex.lowercased_eq_encode_iff.mp hstored
    obtain ⟨values, hs, htext, hlength, hread⟩ := exists_readBase64_of_digits hdigits
    refine ⟨mapError_eq_ok_iff.mpr (Hex.decode_eq_ok_iff.mpr hstored),
      Base64.packed values, ?_, ?_, ?_⟩
    · exact decode_auto_of_ok (decode_base64_eq_ok_iff.mpr hread)
    · rw [Base64.length_packed]
      omega
    · exact Base64.packed_ne_of_digits hs hne (htext ▸ hdigits)

/-- A key of three bytes gives another one of four. -/
example : hex.decode "0a0b0c" = .ok [0x0a, 0x0b, 0x0c] ∧
    auto.decode "0a0b0c" = .ok [0xd1, 0xad, 0x1b, 0xd1] := by
  constructor <;> cbv

end SecretForm

end SealedToken
