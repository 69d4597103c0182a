import SealedToken.Proofs.Text.Ascii

/-!
# Well-formed UTF-8

A code point stands in one to four bytes. The first byte begins with bits that say how many there
are, each other one with the bits 10, and all bits that are left are those of the code point, the
highest first. Bytes are well-formed if they are groups of this form, each as short as its code
point allows, of code points that are no surrogates and not above U+10FFFF.

* `Utf8.Group`: the bytes that carry the bits of a number, with or without leading zeros.
* `Utf8.Encodes`, `Utf8.WellFormed`: the shortest group of a code point that a text may have, and
  rows of such groups.
* `Utf8.encodes_iff`: such a group is what is written for a character.
* `Utf8.wellFormed_iff`: bytes are those of a text exactly if they are well-formed.
-/

namespace SealedToken

theorem toNat_charOfNat {n : Nat} (h : n.isValidChar) : (Char.ofNat n).toNat = n := by
  rw [Char.ofNat, dif_pos h]
  rfl

namespace Utf8

/-- The two highest bits of the byte are 10, as in every byte of a group but the first. -/
def Continues (b : UInt8) : Prop := b.toNat / 64 = 2

/-- The bytes carry the bits of a number. -/
inductive Group : Bytes → Nat → Prop where
  | one {a : UInt8} {n : Nat} (ha : a.toNat < 128) (hn : n = a.toNat) : Group [a] n
  | two {a b : UInt8} {n : Nat} (ha : a.toNat / 32 = 6) (hb : Continues b)
    (hn : n = a.toNat % 32 * 64 + b.toNat % 64) : Group [a, b] n
  | three {a b c : UInt8} {n : Nat} (ha : a.toNat / 16 = 14) (hb : Continues b) (hc : Continues c)
    (hn : n = a.toNat % 16 * 4096 + b.toNat % 64 * 64 + c.toNat % 64) : Group [a, b, c] n
  | four {a b c d : UInt8} {n : Nat} (ha : a.toNat / 8 = 30) (hb : Continues b)
    (hc : Continues c) (hd : Continues d)
    (hn : n = a.toNat % 8 * 262144 + b.toNat % 64 * 4096 + c.toNat % 64 * 64 + d.toNat % 64) :
      Group [a, b, c, d] n

/-- The bytes are the shortest group of the code point, which is at most 0x10ffff and no
surrogate. -/
structure Encodes (bs : Bytes) (n : Nat) : Prop where
  group : Group bs n
  shortest : ∀ bs', Group bs' n → bs.length ≤ bs'.length
  not_surrogate : ¬ (0xd800 ≤ n ∧ n ≤ 0xdfff)
  le_max : n ≤ 0x10ffff

/-- The bytes are encodings of code points, one after the other. -/
inductive WellFormed : Bytes → Prop where
  | nil : WellFormed []
  | append {bs rest : Bytes} {n : Nat} (hbs : Encodes bs n) (hrest : WellFormed rest) :
    WellFormed (bs ++ rest)

variable {bs bs' : Bytes} {n : Nat}

/-! ## Groups and characters -/

/-- A number has at most one group of each length. -/
theorem Group.unique (h : Group bs n) (h' : Group bs' n) (hlen : bs.length = bs'.length) :
    bs = bs' := by
  cases h with
  | one ha hn =>
    cases h' with
    | one ha' hn' => rw [UInt8.toNat_inj.mp (hn.symm.trans hn')]
    | two | three | four => cases hlen
  | @two a b _ ha hb hn =>
    cases h' with
    | @two a' b' _ ha' hb' hn' =>
      unfold Continues at hb hb'
      obtain rfl : a = a' := UInt8.toNat_inj.mp (by omega)
      obtain rfl : b = b' := UInt8.toNat_inj.mp (by omega)
      rfl
    | one | three | four => cases hlen
  | @three a b c _ ha hb hc hn =>
    cases h' with
    | @three a' b' c' _ ha' hb' hc' hn' =>
      unfold Continues at hb hc hb' hc'
      obtain rfl : a = a' := UInt8.toNat_inj.mp (by omega)
      obtain rfl : b = b' := UInt8.toNat_inj.mp (by omega)
      obtain rfl : c = c' := UInt8.toNat_inj.mp (by omega)
      rfl
    | one | two | four => cases hlen
  | @four a b c d _ ha hb hc hd hn =>
    cases h' with
    | @four a' b' c' d' _ ha' hb' hc' hd' hn' =>
      unfold Continues at hb hc hd hb' hc' hd'
      obtain rfl : a = a' := UInt8.toNat_inj.mp (by omega)
      obtain rfl : b = b' := UInt8.toNat_inj.mp (by omega)
      obtain rfl : c = c' := UInt8.toNat_inj.mp (by omega)
      obtain rfl : d = d' := UInt8.toNat_inj.mp (by omega)
      rfl
    | one | two | three => cases hlen

/-- `String.utf8EncodeChar` gives a group of the code point. -/
theorem group_utf8EncodeChar (c : Char) : Group (String.utf8EncodeChar c) c.toNat := by
  have hvalid : c.toNat.isValidChar := c.valid
  unfold Nat.isValidChar at hvalid
  have hc : c.val.toNat = c.toNat := rfl
  unfold String.utf8EncodeChar
  dsimp only
  rw [hc]
  split
  · exact .one (by rw [UInt8.toNat_ofNat']; omega) (by rw [UInt8.toNat_ofNat']; omega)
  split
  · refine .two ?_ ?_ ?_ <;> simp only [Continues, UInt8.toNat_ofNat'] <;> omega
  split
  · refine .three ?_ ?_ ?_ ?_ <;> simp only [Continues, UInt8.toNat_ofNat'] <;> omega
  · refine .four ?_ ?_ ?_ ?_ ?_ <;> simp only [Continues, UInt8.toNat_ofNat'] <;> omega

/-- `String.utf8EncodeChar` gives the shortest group of the code point. -/
theorem length_utf8EncodeChar_le {c : Char} (h : Group bs c.toNat) :
    (String.utf8EncodeChar c).length ≤ bs.length := by
  have hc : c.val.toNat = c.toNat := rfl
  unfold String.utf8EncodeChar
  dsimp only
  rw [hc]
  cases h with
  | one ha hn =>
    rw [if_pos (by omega)]
    exact Nat.le_refl _
  | two ha hb hn =>
    split
    · exact Nat.le_succ _
    rw [if_pos (by omega)]
    exact Nat.le_refl _
  | three ha hb hc hn =>
    split
    · exact Nat.le_add_right 1 2
    split
    · exact Nat.le_succ _
    rw [if_pos (by omega)]
    exact Nat.le_refl _
  | four ha hb hc hd hn =>
    split
    · exact Nat.le_add_right 1 3
    split
    · exact Nat.le_add_right 2 2
    split
    · exact Nat.le_succ _
    · exact Nat.le_refl _

/-- The encoding of a code point is what `String.utf8EncodeChar` gives for its character. -/
theorem encodes_iff : Encodes bs n ↔ ∃ c : Char, c.toNat = n ∧ bs = String.utf8EncodeChar c := by
  constructor
  · rintro ⟨hgroup, hshortest, hsurrogate, hmax⟩
    have hvalid : n.isValidChar := by
      unfold Nat.isValidChar
      omega
    obtain ⟨c, rfl⟩ : ∃ c : Char, c.toNat = n := ⟨Char.ofNat n, toNat_charOfNat hvalid⟩
    have hwritten := group_utf8EncodeChar c
    have hlen := Nat.le_antisymm (hshortest _ hwritten) (length_utf8EncodeChar_le hgroup)
    exact ⟨c, rfl, hgroup.unique hwritten hlen⟩
  · rintro ⟨c, rfl, rfl⟩
    have hvalid : c.toNat.isValidChar := c.valid
    unfold Nat.isValidChar at hvalid
    exact ⟨group_utf8EncodeChar c, fun bs' => length_utf8EncodeChar_le, by omega, by omega⟩

/-! ## Texts -/

/-- Bytes are well-formed exactly if they are the UTF-8 form of a text. -/
theorem wellFormed_iff : WellFormed bs ↔ ∃ text, bs = utf8 text := by
  constructor
  · intro h
    induction h with
    | nil => exact ⟨"", rfl⟩
    | append hbs hrest ih =>
      obtain ⟨c, -, rfl⟩ := encodes_iff.mp hbs
      obtain ⟨text, rfl⟩ := ih
      refine ⟨String.ofList (c :: text.toList), ?_⟩
      rw [utf8_ofList, List.flatMap_cons, utf8_eq_flatMap]
  · rintro ⟨text, rfl⟩
    rw [utf8_eq_flatMap]
    induction text.toList with
    | nil => exact .nil
    | cons c cs ih => exact .append (encodes_iff.mpr ⟨c, rfl, rfl⟩) ih

end Utf8

end SealedToken
