import SealedToken.Text.Hex
import SealedToken.Proofs.Outcome
import SealedToken.Proofs.Text.Ascii

/-!
# Hexadecimal text and the bytes it spells

* `Hex.lowercased`: a text with its hexadecimal letters in lower case, as `encode` writes them.
* `Hex.value?_eq_some_iff`: the sixteen digits, each in one or two cases.
* `Hex.decode_eq_ok_iff`: `decode` gives a byte string exactly if the text in lower case is its
  `encode`.
-/

namespace SealedToken.Hex

/-! ## Letter case -/

/-- The byte, with the letters A to F in lower case. -/
def lowerByte (b : UInt8) : UInt8 := if 65 ≤ b.toNat ∧ b.toNat ≤ 70 then b + 32 else b

/-- A character with the letters A to F in lower case. -/
def lowerChar (c : Char) : Char :=
  if 65 ≤ c.toNat ∧ c.toNat ≤ 70 then Char.ofNat (c.toNat + 32) else c

/-- The text, with the letters A to F in lower case. -/
def lowercased (text : String) : String := text.map lowerChar

theorem lowerByte_of_le {b : UInt8} (h : 128 ≤ b.toNat) : lowerByte b = b :=
  if_neg (by omega)

/-- Lowering the letters of a text lowers its bytes: the letters are ASCII, and the bytes of other
characters are above them. -/
theorem utf8EncodeChar_lowerChar (c : Char) :
    String.utf8EncodeChar (lowerChar c) = (String.utf8EncodeChar c).map lowerByte := by
  by_cases hc : c.toNat < 128
  · obtain ⟨b, rfl⟩ : ∃ b : UInt8, c = Char.ofNat b.toNat :=
      ⟨UInt8.ofNat c.toNat, by
        rw [UInt8.toNat_ofNat', Nat.mod_eq_of_lt (by omega), Char.ofNat_toNat]⟩
    rw [toNat_charOfByte] at hc
    rw [utf8EncodeChar_charOfByte hc, lowerChar, toNat_charOfByte]
    split
    · next hr =>
      have hb : b.toNat + 32 = (b + 32).toNat := by
        rw [UInt8.toNat_add]
        show _ = (b.toNat + 32) % 256
        omega
      rw [hb, utf8EncodeChar_charOfByte (by omega), List.map_singleton, lowerByte, if_pos hr]
    · next hr => rw [utf8EncodeChar_charOfByte hc, List.map_singleton, lowerByte, if_neg hr]
  · rw [lowerChar, if_neg (by omega), List.map_congr_left (g := id), List.map_id]
    exact fun b hb => lowerByte_of_le (le_of_mem_utf8EncodeChar (Nat.le_of_not_lt hc) hb)

theorem utf8_lowercased (text : String) : utf8 (lowercased text) = (utf8 text).map lowerByte := by
  have hl : lowercased text = String.ofList (text.toList.map lowerChar) := by
    rw [lowercased, ← String.toList_inj, String.toList_map, String.toList_ofList]
  rw [hl, utf8_ofList, utf8_eq_flatMap, List.flatMap_map, List.map_flatMap]
  simp only [utf8EncodeChar_lowerChar]

/-! ## Digits -/

theorem toNat_digit {n : Nat} (h : n < 16) :
    (digit n).toNat = if n < 10 then 48 + n else 87 + n := by
  rw [digit, UInt8.toNat_ofNat']
  split <;> omega

theorem value?_eq_some_iff {b : UInt8} {n : Nat} :
    value? b = some n ↔ n < 16 ∧ lowerByte b = digit n := by
  have hb : b.toNat < 256 := b.toNat_lt
  have hlow : (lowerByte b).toNat =
      if 65 ≤ b.toNat ∧ b.toNat ≤ 70 then b.toNat + 32 else b.toNat := by
    unfold lowerByte
    split
    · rw [UInt8.toNat_add]
      show (b.toNat + 32) % 256 = _
      omega
    · rfl
  constructor
  · intro h
    have hn : n < 16 := by
      unfold value? at h
      dsimp only at h
      split at h
      · cases h; omega
      · split at h
        · cases h; omega
        · split at h
          · cases h; omega
          · cases h
    refine ⟨hn, UInt8.toNat_inj.mp ?_⟩
    rw [hlow, toNat_digit hn]
    unfold value? at h
    grind
  · rintro ⟨hn, h⟩
    have h := congrArg UInt8.toNat h
    rw [hlow, toNat_digit hn] at h
    unfold value?
    grind

theorem ascii_digits (bs : Bytes) : Ascii (digits bs) := by
  intro d hd
  obtain ⟨b, -, hb⟩ := List.mem_flatMap.mp hd
  have := b.toNat_lt
  simp only [List.mem_cons, List.not_mem_nil, or_false] at hb
  rcases hb with rfl | rfl <;> rw [toNat_digit (by omega)] <;> split <;> omega

/-! ## Reading and writing -/

theorem readDigit_eq_ok_iff {b : UInt8} {position n : Nat} :
    readDigit b position = .ok n ↔ n < 16 ∧ lowerByte b = digit n := by
  rw [← value?_eq_some_iff, readDigit]
  cases value? b <;> simp

theorem digits_cons (b : UInt8) (bs : Bytes) :
    digits (b :: bs) = digit (b.toNat / 16) :: digit (b.toNat % 16) :: digits bs := rfl

/-- Bytes that are the digits of a byte string but for letter case have digit values. -/
theorem exists_value?_of_mem {input bs : Bytes} {b : UInt8}
    (h : input.map lowerByte = digits bs) (hb : b ∈ input) :
    ∃ n, value? b = some n := by
  have hmem : lowerByte b ∈ digits bs := h ▸ List.mem_map_of_mem hb
  obtain ⟨byte, -, hdigit⟩ := List.mem_flatMap.mp hmem
  have hbyte : byte.toNat < 256 := byte.toNat_lt
  simp only [List.mem_cons, List.not_mem_nil, or_false] at hdigit
  rcases hdigit with hdigit | hdigit
  · exact ⟨_, value?_eq_some_iff.mpr ⟨by omega, hdigit⟩⟩
  · exact ⟨_, value?_eq_some_iff.mpr ⟨by omega, hdigit⟩⟩

theorem length_digits (bs : Bytes) : (digits bs).length = 2 * bs.length := by
  induction bs with
  | nil => rfl
  | cons b bs ih =>
    rw [digits_cons, List.length_cons, List.length_cons, ih, List.length_cons]; omega

/-- Two digits are those of a byte exactly if their values are its halves. -/
theorem digit_halves_iff {h l : Nat} (hh : h < 16) (hl : l < 16) {b : UInt8} :
    (digit h = digit (b.toNat / 16) ∧ digit l = digit (b.toNat % 16)) ↔
      UInt8.ofNat (16 * h + l) = b := by
  have hb : b.toNat < 256 := b.toNat_lt
  simp only [← UInt8.toNat_inj, UInt8.toNat_ofNat', toNat_digit hh, toNat_digit hl,
    toNat_digit (show b.toNat / 16 < 16 by omega), toNat_digit (show b.toNat % 16 < 16 by omega)]
  grind

theorem readPairs_eq_ok_iff {position : Nat} {input bs : Bytes} :
    readPairs position input = .ok bs ↔ input.map lowerByte = digits bs := by
  fun_induction readPairs position input generalizing bs with
  | case1 => cases bs <;> simp [digits]
  | case2 =>
    refine ⟨nofun, fun h => ?_⟩
    have := congrArg List.length h
    rw [length_digits, List.length_map, List.length_singleton] at this
    omega
  | case3 position high low rest ih =>
    simp only [bind_eq_ok_iff, pure_eq_ok_iff, readDigit_eq_ok_iff, ih]
    constructor
    · rintro ⟨h, ⟨hh, hhigh⟩, l, ⟨hl, hlow⟩, tail, htail, rfl⟩
      obtain ⟨h1, h2⟩ := (digit_halves_iff hh hl).mpr rfl
      rw [List.map_cons, List.map_cons, hhigh, hlow, htail, digits_cons, ← h1, ← h2]
    · intro hd
      cases bs with
      | nil => cases hd
      | cons b bs =>
        have hb : b.toNat < 256 := b.toNat_lt
        rw [digits_cons, List.map_cons, List.map_cons, List.cons.injEq, List.cons.injEq] at hd
        obtain ⟨hhigh, hlow, htail⟩ := hd
        refine ⟨_, ⟨by omega, hhigh⟩, _, ⟨by omega, hlow⟩, bs, htail, ?_⟩
        rw [(digit_halves_iff (by omega) (by omega)).mp ⟨rfl, rfl⟩]

/-- `encode` gives a text, but for letter case, exactly if the bytes of the text are the digits. -/
theorem lowercased_eq_encode_iff {text : String} {bs : Bytes} :
    lowercased text = encode bs ↔ (utf8 text).map lowerByte = digits bs := by
  rw [encode, eq_ofLatin1_iff (ascii_digits bs), utf8_lowercased]

/-- Reading accepts what writing produces, in either letter case, and nothing else. -/
theorem decode_eq_ok_iff {text : String} {bs : Bytes} :
    decode text = .ok bs ↔ lowercased text = encode bs := by
  have hpairs : readPairs 0 (utf8 text) = .ok bs ↔ _ := readPairs_eq_ok_iff
  rw [lowercased_eq_encode_iff, ← hpairs, decode]
  split
  · next hodd =>
    refine ⟨nofun, fun h => ?_⟩
    have := congrArg List.length (readPairs_eq_ok_iff.mp h)
    rw [length_digits, List.length_map] at this
    omega
  · rfl

theorem lowerByte_digit {n : Nat} (h : n < 16) : lowerByte (digit n) = digit n := by
  apply if_neg
  rw [toNat_digit h]
  split <;> omega

/-- `encode` writes lower case. -/
theorem lowercased_encode (bs : Bytes) : lowercased (encode bs) = encode bs := by
  apply utf8_injective
  rw [utf8_lowercased, encode, utf8_ofLatin1 (ascii_digits bs), digits, List.map_flatMap]
  congr 1
  funext b
  have hb : b.toNat < 256 := b.toNat_lt
  rw [List.map_cons, List.map_singleton, lowerByte_digit (by omega), lowerByte_digit (by omega)]

end SealedToken.Hex
