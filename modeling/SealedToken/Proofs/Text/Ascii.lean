import SealedToken.Bytes

/-!
# Texts of ASCII characters

A text whose UTF-8 form has only bytes below 128 is spelled by these bytes, one for each character.

* `utf8EncodeChar_of_lt`, `le_of_mem_utf8EncodeChar`: a character below 128 is one byte, and all
  others have only bytes of 128 and above.
* `utf8_ofLatin1`: such bytes, taken as characters, are their own UTF-8 form.
* `eq_ofLatin1_iff`: a text is spelled by such bytes exactly if they are its UTF-8 form.
-/

namespace SealedToken

/-- Every byte is below 128. -/
def Ascii (bs : Bytes) : Prop := ∀ b ∈ bs, b.toNat < 128

theorem Ascii.cons {b : UInt8} {bs : Bytes} (h : Ascii (b :: bs)) : b.toNat < 128 ∧ Ascii bs :=
  List.forall_mem_cons.mp h

theorem toNat_charOfByte (b : UInt8) : (Char.ofNat b.toNat).toNat = b.toNat := by
  have hb : b.toNat < 256 := b.toNat_lt
  have hv : b.toNat.isValidChar := Or.inl (by omega)
  rw [Char.ofNat, dif_pos hv]
  rfl

/-- The UTF-8 form of a character below 128 is one byte. -/
theorem utf8EncodeChar_charOfByte {b : UInt8} (h : b.toNat < 128) :
    String.utf8EncodeChar (Char.ofNat b.toNat) = [b] := by
  have hn := toNat_charOfByte b
  unfold String.utf8EncodeChar
  simp only [Char.toNat] at hn
  simp [hn, show b.toNat ≤ 127 by omega]

theorem utf8EncodeChar_of_lt {c : Char} (h : c.toNat < 128) :
    String.utf8EncodeChar c = [UInt8.ofNat c.toNat] := by
  have hc : (UInt8.ofNat c.toNat).toNat = c.toNat := by
    rw [UInt8.toNat_ofNat', Nat.mod_eq_of_lt (by omega)]
  have hchar := utf8EncodeChar_charOfByte (hc.symm ▸ h)
  rwa [hc, Char.ofNat_toNat] at hchar

/-- The UTF-8 bytes of every other character are at least 128. -/
theorem le_of_mem_utf8EncodeChar {c : Char} {b : UInt8} (hc : 128 ≤ c.toNat)
    (hb : b ∈ String.utf8EncodeChar c) : 128 ≤ b.toNat := by
  simp only [Char.toNat] at hc
  unfold String.utf8EncodeChar at hb
  simp only [show ¬ c.val.toNat ≤ 127 by omega, ↓reduceIte] at hb
  split at hb
  · simp only [List.mem_cons, List.not_mem_nil, or_false] at hb
    rcases hb with rfl | rfl <;> rw [UInt8.toNat_ofNat'] <;> omega
  · split at hb
    · simp only [List.mem_cons, List.not_mem_nil, or_false] at hb
      rcases hb with rfl | rfl | rfl <;> rw [UInt8.toNat_ofNat'] <;> omega
    · simp only [List.mem_cons, List.not_mem_nil, or_false] at hb
      rcases hb with rfl | rfl | rfl | rfl <;> rw [UInt8.toNat_ofNat'] <;> omega

theorem utf8_ofList (cs : List Char) :
    utf8 (String.ofList cs) = cs.flatMap String.utf8EncodeChar := by
  rw [utf8, String.toByteArray_ofList]
  simp [List.utf8Encode]

theorem utf8_eq_flatMap (text : String) :
    utf8 text = text.toList.flatMap String.utf8EncodeChar := by
  rw [← utf8_ofList, String.ofList_toList]

theorem utf8_ofLatin1 {bs : Bytes} (h : Ascii bs) : utf8 (ofLatin1 bs) = bs := by
  rw [ofLatin1, utf8_ofList]
  induction bs with
  | nil => rfl
  | cons b bs ih =>
    obtain ⟨hb, hbs⟩ := h.cons
    rw [List.map_cons, List.flatMap_cons, utf8EncodeChar_charOfByte hb, ih hbs]
    rfl

theorem eq_ofLatin1_iff {bs : Bytes} (h : Ascii bs) {text : String} :
    text = ofLatin1 bs ↔ utf8 text = bs := by
  constructor
  · rintro rfl
    exact utf8_ofLatin1 h
  · intro ht
    apply utf8_injective
    rw [ht, utf8_ofLatin1 h]

end SealedToken
