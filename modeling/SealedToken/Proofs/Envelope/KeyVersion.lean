import Mathlib.Algebra.Group.Nat.Defs
import SealedToken.Envelope.KeyVersion
import SealedToken.Proofs.Text.Utf8

/-!
# Key versions and their bytes

* `ofLittleEndian_littleEndian`: a number comes back from its bytes if these are enough for it.
  `eq_littleEndian_iff`: each byte is a digit of the number to the base 256, the lowest first.
* `KeyVersion.ofBytes_eq_ok_iff`: `ofBytes` accepts exactly the bytes that `toBytes` writes, each
  under the kind of its version.
* `KeyVersion.bytes_one_to_one`: `toBytes` and `ofBytes` are inverse on the versions of a kind, and
  the accepted bytes are well-formed UTF-8 for labels and eight in number for numbers.
-/

namespace SealedToken

theorem ofLittleEndian_lt (bs : Bytes) : ofLittleEndian bs < 256 ^ bs.length := by
  induction bs with
  | nil => exact Nat.one_pos
  | cons b bs ih =>
    have hb : b.toNat < 256 := b.toNat_lt
    rw [ofLittleEndian, List.length_cons, Nat.pow_succ]
    omega

theorem ofLittleEndian_littleEndian {count n : Nat} (h : n < 256 ^ count) :
    ofLittleEndian (littleEndian count n) = n := by
  induction count generalizing n with
  | zero => rw [Nat.pow_zero] at h; rw [littleEndian, ofLittleEndian]; omega
  | succ count ih =>
    rw [Nat.pow_succ] at h
    rw [littleEndian, ofLittleEndian, ih (by omega), UInt8.toNat_ofNat']
    omega

/-- `littleEndian` gives the digits of a number to the base 256, the lowest first. -/
theorem eq_littleEndian_iff {bs : Bytes} {n : Nat} :
    bs = littleEndian bs.length n ↔ ∀ i, ∀ b ∈ bs[i]?, b.toNat = n / 256 ^ i % 256 := by
  induction bs generalizing n with
  | nil => exact ⟨fun _ _ _ h => (by cases h), fun _ => rfl⟩
  | cons b bs ih =>
    rw [List.length_cons, littleEndian, List.cons.injEq, ih]
    simp only [Nat.div_div_eq_div_mul, ← Nat.pow_succ']
    constructor
    · rintro ⟨rfl, hbs⟩ i digit hdigit
      cases i with
      | zero =>
        cases hdigit
        simp
      | succ i => exact hbs i digit hdigit
    · intro h
      refine ⟨?_, fun i => h (i + 1)⟩
      have hb := h 0 b rfl
      apply UInt8.toNat_inj.mp
      rw [UInt8.toNat_ofNat']
      simpa using hb

namespace KeyVersion

theorem label_ofBytes_eq_ok_iff {bs : Bytes} {version : KeyVersion} :
    ofBytes .label bs = .ok version ↔ ∃ text, version = label text ∧ bs = utf8 text := by
  rw [ofBytes]
  constructor
  · intro h
    split at h
    · next text ht => exact ⟨text, by cases h; rfl, ofUtf8?_eq_some_iff.mp ht⟩
    · cases h
  · rintro ⟨text, rfl, rfl⟩
    rw [ofUtf8?_utf8]

theorem number_ofBytes_eq_ok_iff {bs : Bytes} {version : KeyVersion} :
    ofBytes .number bs = .ok version ↔
      ∃ value, version = number value ∧ bs = littleEndian numberVersionLength value.toNat := by
  have hpow : 256 ^ numberVersionLength = UInt64.size := rfl
  rw [ofBytes]
  constructor
  · intro h
    split at h
    · next hl =>
      cases h
      have hlt := ofLittleEndian_lt bs
      rw [hl, hpow] at hlt
      refine ⟨_, rfl, ?_⟩
      rw [UInt64.toNat_ofNat_of_lt' hlt, ← hl, littleEndian_ofLittleEndian]
    · cases h
  · rintro ⟨value, rfl, rfl⟩
    have hlt : value.toNat < 256 ^ numberVersionLength := value.toNat_lt
    rw [if_pos (length_littleEndian _ _), ofLittleEndian_littleEndian hlt, UInt64.ofNat_toNat]

/-- `ofBytes` reads bytes that fit into an entry as exactly the version of the kind for which
`toBytes` gives them. -/
theorem ofBytes_eq_ok_iff {kind : Kind} {bs : Bytes} {version : KeyVersion}
    (h : bs.length ≤ maxLabelLength) :
    ofBytes kind bs = .ok version ↔ version.kind = kind ∧ version.toBytes = .ok bs := by
  cases kind with
  | label =>
    rw [label_ofBytes_eq_ok_iff]
    constructor
    · rintro ⟨text, rfl, rfl⟩
      exact ⟨rfl, if_neg (by omega)⟩
    · rintro ⟨hk, hb⟩
      cases version with
      | number value => cases hk
      | label text =>
        refine ⟨text, rfl, ?_⟩
        rw [toBytes] at hb
        split at hb
        · cases hb
        · cases hb; rfl
  | number =>
    rw [number_ofBytes_eq_ok_iff]
    constructor
    · rintro ⟨value, rfl, rfl⟩
      exact ⟨rfl, rfl⟩
    · rintro ⟨hk, hb⟩
      cases version with
      | label text => cases hk
      | number value => exact ⟨value, rfl, by cases hb; rfl⟩

/-- The bytes that `toBytes` gives fit into an entry. -/
theorem length_of_toBytes {version : KeyVersion} {bs : Bytes} (h : version.toBytes = .ok bs) :
    bs.length ≤ maxLabelLength := by
  cases version with
  | label text =>
    rw [toBytes] at h
    split at h
    · cases h
    · next hl => cases h; omega
  | number value =>
    cases h
    rw [length_littleEndian]
    decide

theorem kind_of_ofBytes {kind : Kind} {bs : Bytes} {version : KeyVersion}
    (h : ofBytes kind bs = .ok version) :
    version.kind = kind := by
  cases kind with
  | label =>
    obtain ⟨text, rfl, -⟩ := label_ofBytes_eq_ok_iff.mp h
    rfl
  | number =>
    obtain ⟨value, rfl, -⟩ := number_ofBytes_eq_ok_iff.mp h
    rfl

/-- `toBytes` is injective on the versions of one kind. -/
theorem eq_of_toBytes {version version' : KeyVersion} {bs : Bytes}
    (hkind : version.kind = version'.kind)
    (h : version.toBytes = .ok bs) (h' : version'.toBytes = .ok bs) : version = version' := by
  have hlen := length_of_toBytes h
  have hread := (ofBytes_eq_ok_iff hlen).mpr ⟨rfl, h⟩
  rw [hkind, (ofBytes_eq_ok_iff hlen).mpr ⟨rfl, h'⟩] at hread
  exact (Except.ok.inj hread).symm

theorem exists_label_iff {bs : Bytes} :
    (∃ version, ofBytes .label bs = .ok version) ↔ Utf8.WellFormed bs := by
  simp only [label_ofBytes_eq_ok_iff, Utf8.wellFormed_iff]
  constructor
  · rintro ⟨_, text, rfl, hbs⟩
    exact ⟨text, hbs⟩
  · rintro ⟨text, hbs⟩
    exact ⟨label text, text, rfl, hbs⟩

theorem ofBytes_eq_number_iff {bs : Bytes} {value : UInt64} :
    ofBytes .number bs = .ok (number value) ↔
    bs.length = numberVersionLength ∧
      ∀ i, ∀ b ∈ bs[i]?, b.toNat = value.toNat / 256 ^ i % 256 := by
  rw [number_ofBytes_eq_ok_iff, ← eq_littleEndian_iff]
  constructor
  · rintro ⟨_, ⟨⟩, rfl⟩
    rw [length_littleEndian]
    exact ⟨rfl, rfl⟩
  · rintro ⟨hlen, hbs⟩
    exact ⟨value, rfl, hlen ▸ hbs⟩

theorem exists_number_iff {bs : Bytes} :
    (∃ version, ofBytes .number bs = .ok version) ↔ bs.length = numberVersionLength := by
  constructor
  · rintro ⟨version, h⟩
    obtain ⟨value, -, rfl⟩ := number_ofBytes_eq_ok_iff.mp h
    exact length_littleEndian _ _
  · intro hlen
    exact ⟨_, if_pos hlen⟩

/-- `ofBytes` and `toBytes` are inverse to each other between the versions of a kind and the bytes
that fit into an entry. The bytes of labels are well-formed UTF-8, those of numbers are eight, the
digits of the number to the base 256 with the lowest first, and every number has some. `ofBytes`
gives versions of the kind that is asked for only, and two versions of a kind never share their
bytes. -/
theorem bytes_one_to_one :
    (∀ kind bs version, bs.length ≤ maxLabelLength → version.kind = kind →
      (ofBytes kind bs = .ok version ↔ version.toBytes = .ok bs)) ∧
    (∀ bs, (∃ version, ofBytes .label bs = .ok version) ↔ Utf8.WellFormed bs) ∧
    (∀ bs, (∃ version, ofBytes .number bs = .ok version) ↔ bs.length = numberVersionLength) ∧
    (∀ bs value, ofBytes .number bs = .ok (number value) ↔ bs.length = numberVersionLength ∧
      ∀ i, ∀ b ∈ bs[i]?, b.toNat = value.toNat / 256 ^ i % 256) ∧
    (∀ value, ∃ bs, ofBytes .number bs = .ok (number value)) ∧
    (∀ kind bs version, ofBytes kind bs = .ok version → version.kind = kind) ∧
    ∀ (version version' : KeyVersion) bs, version.kind = version'.kind → version.toBytes = .ok bs →
      version'.toBytes = .ok bs → version = version' := by
  refine ⟨fun kind bs version hlen hkind => ?_, fun bs => exists_label_iff,
    fun bs => exists_number_iff, fun bs value => ofBytes_eq_number_iff,
    fun value => ⟨_, number_ofBytes_eq_ok_iff.mpr ⟨value, rfl, rfl⟩⟩,
    fun kind bs version => kind_of_ofBytes, fun version version' bs => eq_of_toBytes⟩
  rw [ofBytes_eq_ok_iff hlen]
  exact ⟨fun h => h.2, fun h => ⟨hkind, h⟩⟩

theorem bytes_one_to_one_highest :
    ([255, 255, 255, 255, 255, 255, 255, 255] : Bytes).length ≤ maxLabelLength ∧
    (number 0xffffffffffffffff).kind = .number ∧
      ofBytes .number [255, 255, 255, 255, 255, 255, 255, 255] = .ok (number 0xffffffffffffffff) :=
  ⟨by decide, rfl,
    (bytes_one_to_one.1 .number _ (number 0xffffffffffffffff) (by decide) rfl).mpr rfl⟩

end KeyVersion

end SealedToken
