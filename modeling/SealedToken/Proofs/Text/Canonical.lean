import Mathlib.Algebra.Group.Nat.Defs
import Mathlib.Data.List.Induction
import Mathlib.Data.List.Nodup
import SealedToken.Proofs.Text.Form

/-!
# The one text of a token

A text of symbols stands for a row of bits, some of which may be left over after the last whole
byte. It is the text of a token if fewer bits than a symbol has are left over, and these are zero.

* `TextForm.alphabet`, `TextForm.symbolBits`: the symbols of a text form, and the number of bits of
  each.
* `TextForm.Spelled`: the texts that `encode` writes, by their symbols and their length.
* `TextForm.spelled_iff_values`: the same for the values of the symbols.
* `TextForm.exists_encode_iff`: they are the texts of byte strings.
* `TextForm.canonical_text`: `readToken` reads such a text as its byte string and refuses any other.
-/

namespace SealedToken

theorem toList_ofLatin1 (bs : Bytes) : (ofLatin1 bs).toList = bs.map fun b => Char.ofNat b.toNat :=
  String.toList_ofList

namespace TextForm

/-! ## Symbols -/

/-- The symbols of a text form, in the order of their values. -/
def alphabet : TextForm → String
  | base64Url => "ABCDEFGHIJKLMNOPQRSTUVWXYZabcdefghijklmnopqrstuvwxyz0123456789-_"
  | base64Standard => "ABCDEFGHIJKLMNOPQRSTUVWXYZabcdefghijklmnopqrstuvwxyz0123456789+/"
  | hex => "0123456789abcdef"

/-- The number of bits that a symbol stands for. -/
def symbolBits : TextForm → Nat
  | base64Url | base64Standard => 6
  | hex => 4

/-- The number of bits that are left over after the last whole byte of so many symbols. -/
def spareBits (form : TextForm) (count : Nat) : Nat := form.symbolBits * count % 8

/-- All characters are symbols, they make up whole bytes, and the bits left over after
these are zero. -/
structure Spelled (form : TextForm) (text : String) : Prop where
  symbols : ∀ c ∈ text.toList, c ∈ form.alphabet.toList
  whole : form.spareBits text.length < form.symbolBits
  spare : ∀ c ∈ text.toList.getLast?, 2 ^ form.spareBits text.length ∣ form.alphabet.toList.idxOf c

theorem spelled_iff {form : TextForm} {text : String} :
    form.Spelled text ↔ (∀ c ∈ text.toList, c ∈ form.alphabet.toList) ∧
      form.spareBits text.length < form.symbolBits ∧
      ∀ c ∈ text.toList.getLast?, 2 ^ form.spareBits text.length ∣ form.alphabet.toList.idxOf c :=
  ⟨fun ⟨hsymbols, hwhole, hspare⟩ => ⟨hsymbols, hwhole, hspare⟩,
    fun ⟨hsymbols, hwhole, hspare⟩ => ⟨hsymbols, hwhole, hspare⟩⟩

-- only the characters of the text are looked at, not all that there are
instance (form : TextForm) (text : String) : Decidable (form.Spelled text) :=
  let _ : Decidable (∀ c ∈ text.toList, c ∈ form.alphabet.toList) := List.decidableBAll _ _
  let _ : Decidable (∀ c ∈ text.toList.getLast?,
      2 ^ form.spareBits text.length ∣ form.alphabet.toList.idxOf c) := Option.decidableForallMem _
  decidable_of_iff' _ spelled_iff

/-- The symbol of a value. -/
def symbol : TextForm → Nat → UInt8
  | base64Url => Base64.Alphabet.symbol .urlSafe
  | base64Standard => Base64.Alphabet.symbol .standard
  | hex => Hex.digit

/-- The symbol of a value as a character. -/
def symbolChar (form : TextForm) (value : Nat) : Char := Char.ofNat (form.symbol value).toNat

theorem toList_alphabet (form : TextForm) :
    form.alphabet.toList = (List.range (2 ^ form.symbolBits)).map form.symbolChar := by
  cases form <;> decide

theorem nodup_alphabet (form : TextForm) : form.alphabet.toList.Nodup := by
  cases form <;> decide

variable {form : TextForm} {text : String} {values : List Nat} {v : Nat}

theorem mem_alphabet_iff {c : Char} :
    c ∈ form.alphabet.toList ↔ ∃ v, v < 2 ^ form.symbolBits ∧ form.symbolChar v = c := by
  simp only [toList_alphabet, List.mem_map, List.mem_range]

/-- `alphabet` has the symbol of a value at the index of the value. -/
theorem idxOf_symbolChar (h : v < 2 ^ form.symbolBits) :
    form.alphabet.toList.idxOf (form.symbolChar v) = v := by
  have hlength : v < form.alphabet.toList.length := by
    rw [toList_alphabet, List.length_map, List.length_range]
    exact h
  have hget : form.alphabet.toList[v] = form.symbolChar v := by simp [toList_alphabet]
  rw [← hget]
  exact form.nodup_alphabet.idxOf_getElem v hlength

/-! ## Values -/

/-- All values are below the number of symbols, they make up whole bytes, and the bits left
over are zero. -/
structure Whole (form : TextForm) (values : List Nat) : Prop where
  lt : ∀ v ∈ values, v < 2 ^ form.symbolBits
  whole : form.spareBits values.length < form.symbolBits
  spare : ∀ v ∈ values.getLast?, 2 ^ form.spareBits values.length ∣ v

theorem whole_iff {form : TextForm} {values : List Nat} :
    form.Whole values ↔ (∀ v ∈ values, v < 2 ^ form.symbolBits) ∧
      form.spareBits values.length < form.symbolBits ∧
      ∀ v ∈ values.getLast?, 2 ^ form.spareBits values.length ∣ v :=
  ⟨fun ⟨hlt, hwhole, hspare⟩ => ⟨hlt, hwhole, hspare⟩,
    fun ⟨hlt, hwhole, hspare⟩ => ⟨hlt, hwhole, hspare⟩⟩

theorem spelled_iff_values :
    form.Spelled text ↔ ∃ values, form.Whole values ∧ text.toList = values.map form.symbolChar := by
  constructor
  · rintro ⟨hsymbols, hwhole, hspare⟩
    have hback :
        (text.toList.map form.alphabet.toList.idxOf).map form.symbolChar = text.toList := by
      have hid : ∀ c ∈ text.toList, (form.symbolChar ∘ form.alphabet.toList.idxOf) c = id c := by
        intro c hc
        obtain ⟨v, hv, rfl⟩ := mem_alphabet_iff.mp (hsymbols c hc)
        rw [Function.comp_apply, idxOf_symbolChar hv, id]
      rw [List.map_map, List.map_congr_left hid, List.map_id]
    refine ⟨text.toList.map form.alphabet.toList.idxOf, ⟨?_, ?_, ?_⟩, hback.symm⟩
    · intro _ hmem
      obtain ⟨c, hc, rfl⟩ := List.mem_map.mp hmem
      obtain ⟨v, hv, rfl⟩ := mem_alphabet_iff.mp (hsymbols c hc)
      rw [idxOf_symbolChar hv]
      exact hv
    · rwa [List.length_map, String.length_toList]
    · rw [List.getLast?_map, List.length_map, String.length_toList]
      intro v hv
      obtain ⟨c, hc, rfl⟩ := Option.map_eq_some_iff.mp hv
      exact hspare c hc
  · rintro ⟨values, ⟨hlt, hwhole, hspare⟩, htext⟩
    have hlength : text.length = values.length := by
      rw [← String.length_toList, htext, List.length_map]
    refine ⟨?_, ?_, ?_⟩
    · intro c hc
      rw [htext] at hc
      obtain ⟨v, hv, rfl⟩ := List.mem_map.mp hc
      exact mem_alphabet_iff.mpr ⟨v, hlt v hv, rfl⟩
    · rwa [hlength]
    · rw [htext, List.getLast?_map, hlength]
      intro c hc
      obtain ⟨v, hv, rfl⟩ := Option.map_eq_some_iff.mp hc
      rw [idxOf_symbolChar (hlt v (List.mem_of_getLast? hv))]
      exact hspare v hv

end TextForm

/-! ## Base64 -/

namespace Base64

theorem dvd_last_iff {values : List Nat} (h : values.length % 4 ≠ 1) :
    spareBitsZero (lastGroup values) ↔ ∀ v ∈ values.getLast?, 2 ^ (6 * values.length % 8) ∣ v := by
  fun_induction packed values with
  | case1 a b c d rest ih =>
    by_cases hrest : rest = []
    · subst hrest
      rw [lastGroup_eq_self (by simp)]
      simp [spareBitsZero]
    · have hlen : rest.length % 4 ≠ 1 := by
        simp only [List.length_cons] at h
        omega
      rw [lastGroup_cons_four hrest, ih hlen]
      obtain ⟨e, rest, rfl⟩ := List.exists_cons_of_ne_nil hrest
      have hbits : 6 * (a :: b :: c :: d :: e :: rest).length % 8 = 6 * (e :: rest).length % 8 := by
        simp only [List.length_cons]
        omega
      rw [hbits]
      simp only [List.getLast?_cons_cons]
  | case2 a b c =>
    rw [lastGroup_eq_self (by simp)]
    simp [spareBitsZero, Nat.dvd_iff_mod_eq_zero]
  | case3 a b =>
    rw [lastGroup_eq_self (by simp)]
    simp [spareBitsZero, Nat.dvd_iff_mod_eq_zero]
  | case4 values hfour hthree htwo =>
    obtain rfl | ⟨a, rfl⟩ := eq_nil_or_singleton hfour hthree htwo
    · simp [lastGroup, spareBitsZero]
    · exact absurd rfl h

/-- The values that `sextets` gives are those that make up whole bytes with zero bits left over. -/
theorem exists_sextets_iff {values : List Nat} :
    (∃ bs, sextets bs = values) ↔ Sextets values ∧ 6 * values.length % 8 < 6 ∧
      ∀ v ∈ values.getLast?, 2 ^ (6 * values.length % 8) ∣ v := by
  have hlength : values.length % 4 ≠ 1 ↔ 6 * values.length % 8 < 6 := by omega
  rw [← hlength]
  constructor
  · rintro ⟨bs, rfl⟩
    obtain ⟨hlen, hspare⟩ := sextets_wellFormed bs
    exact ⟨sextets_sextets bs, hlen, (dvd_last_iff hlen).mp hspare⟩
  · rintro ⟨hs, hlen, hlast⟩
    exact ⟨packed values, sextets_packed hs hlen ((dvd_last_iff hlen).mpr hlast)⟩

end Base64

/-! ## Hexadecimal -/

namespace Hex

/-- The two halves of each byte, the high one first. -/
def halves (bs : Bytes) : List Nat := bs.flatMap fun b => [b.toNat / 16, b.toNat % 16]

theorem digits_eq_map (bs : Bytes) : digits bs = (halves bs).map digit := by
  rw [halves, List.map_flatMap]
  rfl

theorem exists_halves_iff {values : List Nat} :
    (∃ bs, halves bs = values) ↔ (∀ v ∈ values, v < 16) ∧ values.length % 2 = 0 := by
  constructor
  · rintro ⟨bs, rfl⟩
    refine ⟨fun v hv => ?_, ?_⟩
    · obtain ⟨b, -, hb⟩ := List.mem_flatMap.mp hv
      have := b.toNat_lt
      simp only [List.mem_cons, List.not_mem_nil, or_false] at hb
      omega
    · have hlength := length_digits bs
      rw [digits_eq_map, List.length_map] at hlength
      omega
  · rintro ⟨hlt, heven⟩
    -- two values at a time make up a byte
    induction values using List.twoStepInduction with
    | nil => exact ⟨[], rfl⟩
    | singleton v => cases heven
    | cons_cons h l values ih _ =>
      obtain ⟨hh, hl, hlt⟩ : h < 16 ∧ l < 16 ∧ ∀ v ∈ values, v < 16 := by simpa using hlt
      have hrest : values.length % 2 = 0 := by
        simp only [List.length_cons] at heven
        omega
      obtain ⟨bs, rfl⟩ := ih hlt hrest
      refine ⟨UInt8.ofNat (16 * h + l) :: bs, ?_⟩
      have hbyte : (UInt8.ofNat (16 * h + l)).toNat = 16 * h + l := by
        rw [UInt8.toNat_ofNat']
        omega
      have hhigh : (16 * h + l) / 16 = h := by omega
      have hlow : (16 * h + l) % 16 = l := by omega
      rw [halves, List.flatMap_cons, hbyte, hhigh, hlow]
      rfl

end Hex

/-! ## All text forms -/

namespace TextForm

variable {form : TextForm} {text : String}

/-- The values of the symbols in the text that `encode` writes. -/
def values : TextForm → Bytes → List Nat
  | base64Url | base64Standard => Base64.sextets
  | hex => Hex.halves

theorem toList_encode (form : TextForm) (bs : Bytes) :
    (form.encode bs).toList = (form.values bs).map form.symbolChar := by
  cases form with
  | base64Url | base64Standard =>
    rw [encode, Base64.encode, toList_ofLatin1, List.map_map]
    rfl
  | hex =>
    rw [encode, Hex.encode, toList_ofLatin1, Hex.digits_eq_map, List.map_map]
    rfl

/-- The values of byte strings are the lists that are `Whole`. -/
theorem exists_values_iff {values : List Nat} :
    (∃ bs, form.values bs = values) ↔ form.Whole values := by
  cases form with
  | base64Url | base64Standard =>
    rw [whole_iff]
    exact Base64.exists_sextets_iff
  | hex =>
    have hbits : hex.spareBits values.length = 4 * values.length % 8 := rfl
    rw [whole_iff, TextForm.values, Hex.exists_halves_iff]
    constructor
    · rintro ⟨hlt, heven⟩
      have hnone : hex.spareBits values.length = 0 := by omega
      refine ⟨hlt, ?_, ?_⟩
      · rw [hnone]
        decide
      · intro v _
        rw [hnone]
        exact Nat.one_dvd v
    · rintro ⟨hlt, hwhole, -⟩
      have hless : hex.spareBits values.length < 4 := hwhole
      exact ⟨hlt, by omega⟩

/-- `encode` writes exactly the texts that are `Spelled`. -/
theorem exists_encode_iff : (∃ bs, text = form.encode bs) ↔ form.Spelled text := by
  simp only [spelled_iff_values, ← exists_values_iff, ← String.toList_inj, toList_encode]
  constructor
  · rintro ⟨bs, htext⟩
    exact ⟨_, ⟨bs, rfl⟩, htext⟩
  · rintro ⟨_, ⟨bs, rfl⟩, htext⟩
    exact ⟨bs, htext⟩

-- the byte 97, a bit set beyond the byte, less than a byte, and padding
example : base64Url.Spelled "YQ" ∧ ¬ base64Url.Spelled "YR" ∧ ¬ base64Url.Spelled "Y" ∧
    ¬ base64Url.Spelled "YQ==" := by
  decide

theorem exists_readToken_iff :
    (∃ bs, form.readToken text = .ok bs) ↔ form.Spelled (form.normalized text) := by
  simp only [readToken_eq_ok_iff, exists_encode_iff]

/-- `readToken` refuses exactly the texts that are not `Spelled`, and always with `encoding`. -/
theorem exists_fault_iff :
    (∃ fault, form.readToken text = .error (.encoding form fault)) ↔
      ¬ form.Spelled (form.normalized text) := by
  rw [← exists_readToken_iff, readToken]
  cases form.decode text with
  | error fault => simp [Except.mapError]
  | ok bs => simp [Except.mapError]

theorem mem_alphabet_of_mem_encode {bs : Bytes} {c : Char} (h : c ∈ (form.encode bs).toList) :
    c ∈ form.alphabet.toList :=
  (exists_encode_iff.mp ⟨bs, rfl⟩).symbols c h

/-- `readToken` reads a text as exactly the bytes for which `encode` writes that text, but for the
case of hexadecimal letters. It accepts the texts of symbols that make up whole bytes with zero bits
left over, and refuses every other text with `encoding`. No symbol is the padding character. -/
theorem canonical_text (form : TextForm) :
    (∀ text bs, form ≠ hex → (form.readToken text = .ok bs ↔ text = form.encode bs)) ∧
    (∀ text bs, hex.readToken text = .ok bs ↔ Hex.lowercased text = hex.encode bs) ∧
    (∀ text, (∃ bs, form.readToken text = .ok bs) ↔ form.Spelled (form.normalized text)) ∧
    (∀ text, (∃ fault, form.readToken text = .error (.encoding form fault)) ↔
      ¬ form.Spelled (form.normalized text)) ∧
    ∀ bs, ∀ c ∈ (form.encode bs).toList, c ∈ form.alphabet.toList ∧ c ≠ '=' := by
  refine ⟨?_, ?_, ?_, ?_, ?_⟩
  · intro text bs hform
    rw [readToken_eq_ok_iff, normalized_of_ne_hex hform]
  · exact fun text bs => readToken_eq_ok_iff
  · exact fun text => exists_readToken_iff
  · exact fun text => exists_fault_iff
  · intro bs c hc
    have hmem := mem_alphabet_of_mem_encode hc
    refine ⟨hmem, ?_⟩
    rintro rfl
    revert hmem
    cases form <;> decide

end TextForm

end SealedToken
