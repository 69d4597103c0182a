import Mathlib.Data.List.Basic
import Mathlib.Data.Nat.Bitwise
import SealedToken.Proofs.Text.Base64

/-!
# Symbols and bytes as rows of bits

Six-bit values and the bytes that they spell are one row of bits, cut in two ways. The row of the
values may be longer, by less than a byte.

* `bits`: a number as a row of bits. `bits_append`, `bits_eq_iff`: rows behind each other, and the
  injectivity of `bits`.
* `flatMap_bits_eq_iff`: rows of one width are injective in the list of numbers.
* `byteBits`: the row of a byte string.
* `Base64.byteBits_packed`: `packed` gives the whole bytes of the row of the values.
* `Base64.packed_eq_packed_iff`: two lists of values have the same bytes exactly if they are equal
  up to the spare bits of the last value.
-/

namespace SealedToken

/-- The lowest `width` bits of `n`, the highest of them first. -/
def bits : (width n : Nat) → List Bool
  | 0, _ => []
  | width + 1, n => n.testBit width :: bits width n

variable {w k m n : Nat}

@[simp] theorem length_bits (w n : Nat) : (bits w n).length = w := by
  induction w with
  | zero => rfl
  | succ w ih => rw [bits, List.length_cons, ih]

/-- The lowest `w + k` bits are the lowest `w` of those above the lowest `k`, and then these. -/
theorem bits_append (w k n : Nat) : bits (w + k) n = bits w (n / 2 ^ k) ++ bits k n := by
  induction w with
  | zero => rw [Nat.zero_add, bits, List.nil_append]
  | succ w ih =>
    rw [Nat.succ_add_eq_add_succ, Nat.add_succ, bits, bits, ih, Nat.testBit_div_two_pow,
      List.cons_append]

theorem bits_eq_iff : bits w m = bits w n ↔ m % 2 ^ w = n % 2 ^ w := by
  have hbits : bits w m = bits w n ↔ ∀ i < w, m.testBit i = n.testBit i := by
    induction w with
    | zero => simp [bits]
    | succ w ih => rw [bits, bits, List.cons.injEq, ih, Nat.forall_lt_succ_right, and_comm]
  rw [hbits]
  constructor
  · intro h
    refine Nat.eq_of_testBit_eq fun i => ?_
    rw [Nat.testBit_mod_two_pow, Nat.testBit_mod_two_pow]
    by_cases hi : i < w
    · rw [h i hi]
    · rw [decide_eq_false hi, Bool.false_and, Bool.false_and]
  · intro h i hi
    have htest := congrArg (Nat.testBit · i) h
    simpa only [Nat.testBit_mod_two_pow, decide_eq_true hi, Bool.true_and] using htest

/-- A number below `2 ^ k` supplies the lowest `k` bits of a sum with a multiple of `2 ^ k`. -/
theorem bits_mul_add {a b : Nat} (hb : b < 2 ^ k) :
    bits (w + k) (a * 2 ^ k + b) = bits w a ++ bits k b := by
  have hhigh : (a * 2 ^ k + b) / 2 ^ k = a := by
    rw [Nat.mul_comm, Nat.mul_add_div (Nat.two_pow_pos k), Nat.div_eq_of_lt hb, Nat.add_zero]
  have hlow : (a * 2 ^ k + b) % 2 ^ k = b % 2 ^ k := Nat.mul_add_mod_self_right a (2 ^ k) b
  rw [bits_append, hhigh, bits_eq_iff.mpr hlow]

/-! ## Rows of rows -/

theorem length_flatMap_bits (values : List Nat) :
    (values.flatMap (bits w)).length = w * values.length := by
  rw [length_flatMap_of_length (length_bits w), Nat.mul_comm]

theorem flatMap_bits_eq_iff {xs ys : List Nat} (hlength : xs.length = ys.length)
    (hx : ∀ x ∈ xs, x < 2 ^ w) (hy : ∀ y ∈ ys, y < 2 ^ w) :
    xs.flatMap (bits w) = ys.flatMap (bits w) ↔ xs = ys := by
  refine ⟨fun h => ?_, fun h => by rw [h]⟩
  refine flatMap_inj_of_length (length_bits w) hlength (fun x hxs y hys hbits => ?_) h
  rwa [bits_eq_iff, Nat.mod_eq_of_lt (hx x hxs), Nat.mod_eq_of_lt (hy y hys)] at hbits

/-- The bits of a byte string, those of the first byte first. -/
def byteBits (bs : Bytes) : List Bool := bs.flatMap fun b => bits 8 b.toNat

theorem byteBits_eq_flatMap (bs : Bytes) : byteBits bs = (bs.map UInt8.toNat).flatMap (bits 8) := by
  rw [byteBits, List.flatMap_map]

theorem length_byteBits (bs : Bytes) : (byteBits bs).length = 8 * bs.length := by
  rw [byteBits_eq_flatMap, length_flatMap_bits, List.length_map]

theorem byteBits_inj {bs cs : Bytes} : byteBits bs = byteBits cs ↔ bs = cs := by
  refine ⟨fun h => ?_, fun h => by rw [h]⟩
  have hbyte : ∀ ds : Bytes, ∀ n ∈ ds.map UInt8.toNat, n < 2 ^ 8 := by
    intro ds n hn
    obtain ⟨b, -, rfl⟩ := List.mem_map.mp hn
    exact b.toNat_lt
  have hlength : bs.length = cs.length := by
    have := congrArg List.length h
    rw [length_byteBits, length_byteBits] at this
    omega
  rw [byteBits_eq_flatMap, byteBits_eq_flatMap,
    flatMap_bits_eq_iff (by rw [List.length_map, List.length_map, hlength])
      (hbyte bs) (hbyte cs)] at h
  exact List.map_injective_iff.mpr (fun _ _ => UInt8.toNat_inj.mp) h

/-! ## The bytes of six-bit values -/

namespace Base64

/-- `UInt8.ofNat` keeps the lowest eight bits. -/
theorem bits_toNat_ofNat (n : Nat) : bits 8 (UInt8.ofNat n).toNat = bits 8 n := by
  rw [UInt8.toNat_ofNat']
  exact bits_eq_iff.mpr (Nat.mod_mod n _)

variable {a b c d : Nat}

/-- The bits of the first byte that a group spells: the first value, and two bits of the second. -/
theorem bits_first (hb : b < 64) :
    bits 8 (UInt8.ofNat (a * 4 + b / 16)).toNat = bits 6 a ++ bits 2 (b / 16) := by
  rw [bits_toNat_ofNat]
  exact bits_mul_add (w := 6) (k := 2) (by omega)

theorem bits_second (hc : c < 64) :
    bits 8 (UInt8.ofNat (b % 16 * 16 + c / 4)).toNat = bits 4 b ++ bits 4 (c / 4) := by
  have hb : b % 16 % 2 ^ 4 = b % 2 ^ 4 := Nat.mod_mod b _
  rw [bits_toNat_ofNat, ← bits_eq_iff.mpr hb]
  exact bits_mul_add (w := 4) (k := 4) (by omega)

theorem bits_third (hd : d < 64) :
    bits 8 (UInt8.ofNat (c % 4 * 64 + d)).toNat = bits 2 c ++ bits 6 d := by
  have hc : c % 4 % 2 ^ 2 = c % 2 ^ 2 := Nat.mod_mod c _
  rw [bits_toNat_ofNat, ← bits_eq_iff.mpr hc]
  exact bits_mul_add (w := 2) (k := 6) (by omega)

theorem byteBits_packed {values : List Nat} (hs : Sextets values) :
    byteBits (packed values) = (values.flatMap (bits 6)).take (8 * (6 * values.length / 8)) := by
  fun_induction packed values with
  | case1 a b c d rest ih =>
    simp only [sextets_cons_iff] at hs
    obtain ⟨-, hb, hc, hd, hrest⟩ := hs
    have hgroup : 8 * (6 * (a :: b :: c :: d :: rest).length / 8) =
        (bits 6 a ++ bits 6 b ++ bits 6 c ++ bits 6 d).length + 8 * (6 * rest.length / 8) := by
      simp only [List.length_append, length_bits, List.length_cons]
      omega
    have hbits : (a :: b :: c :: d :: rest).flatMap (bits 6) =
        (bits 6 a ++ bits 6 b ++ bits 6 c ++ bits 6 d) ++ rest.flatMap (bits 6) := by
      simp only [List.flatMap_cons, List.append_assoc]
    rw [hgroup, hbits, List.take_length_add_append, ← ih hrest, byteBits,
      List.flatMap_cons, List.flatMap_cons, List.flatMap_cons, bits_first hb, bits_second hc,
      bits_third hd, ← byteBits, bits_append 2 4 b, bits_append 4 2 c]
    simp only [List.append_assoc]
    rfl
  | case2 a b c =>
    simp only [sextets_cons_iff] at hs
    obtain ⟨-, hb, hc, -⟩ := hs
    have hbits : [a, b, c].flatMap (bits 6) =
        (bits 6 a ++ bits 2 (b / 16) ++ (bits 4 b ++ bits 4 (c / 4))) ++ bits 2 c := by
      simp only [List.flatMap_cons, List.flatMap_nil, bits_append 2 4 b,
        bits_append 4 2 c, List.append_assoc, List.append_nil]
      rfl
    rw [byteBits, List.flatMap_cons, List.flatMap_cons, bits_first hb,
      bits_second hc, List.flatMap_nil, List.append_nil, hbits]
    exact (List.take_left' (by simp)).symm
  | case3 a b =>
    simp only [sextets_cons_iff] at hs
    obtain ⟨-, hb, -⟩ := hs
    have hbits : [a, b].flatMap (bits 6) = (bits 6 a ++ bits 2 (b / 16)) ++ bits 4 b := by
      simp only [List.flatMap_cons, List.flatMap_nil, bits_append 2 4 b,
        List.append_assoc, List.append_nil]
      rfl
    rw [byteBits, List.flatMap_cons, bits_first hb, List.flatMap_nil, List.append_nil, hbits]
    exact (List.take_left' (by simp)).symm
  | case4 values hfour hthree htwo =>
    obtain rfl | ⟨a, rfl⟩ := eq_nil_or_singleton hfour hthree htwo
    · rfl
    · simp [byteBits]

/-- The last whole byte ends within the last value, above its spare bits. -/
theorem take_flatMap_bits {init : List Nat} {v count spare : Nat} (hcount : init.length + 1 = count)
    (hspare : 6 * count % 8 = spare) :
    ((init ++ [v]).flatMap (bits 6)).take (8 * (6 * count / 8)) =
      init.flatMap (bits 6) ++ bits (6 - spare) (v / 2 ^ spare) := by
  have hlast : bits 6 v = bits (6 - spare) (v / 2 ^ spare) ++ bits spare v := by
    rw [← bits_append]
    congr 1
    omega
  rw [List.flatMap_append, List.flatMap_cons, List.flatMap_nil, List.append_nil,
    hlast, ← List.append_assoc]
  apply List.take_left'
  rw [List.length_append, length_flatMap_bits, length_bits]
  omega

/-- The number of values follows from the number of bytes that they spell, unless it is one more
than a multiple of four. -/
theorem length_eq_of_length_packed {values : List Nat} (h : values.length % 4 ≠ 1) :
    values.length = (4 * (packed values).length + 2) / 3 := by
  obtain hrest | hrest | hrest : values.length % 4 = 0 ∨ values.length % 4 = 2 ∨
    values.length % 4 = 3 := by omega
  all_goals
    rw [length_packed]
    omega

/-- Equally many values spell the same bytes exactly if they are equal but for the spare bits of the
last one. -/
theorem packed_concat_eq_iff {xs ys : List Nat} {x y spare : Nat} (hx : Sextets (xs ++ [x]))
    (hy : Sextets (ys ++ [y]))
    (hlength : xs.length = ys.length) (hspare : 6 * (xs ++ [x]).length % 8 = spare) :
    packed (xs ++ [x]) = packed (ys ++ [y]) ↔ xs = ys ∧ x / 2 ^ spare = y / 2 ^ spare := by
  obtain ⟨hxs, hxlast⟩ := List.forall_mem_append.mp hx
  obtain ⟨hys, hylast⟩ := List.forall_mem_append.mp hy
  have hle : spare ≤ 6 := by omega
  have hdiv : ∀ {v : Nat}, v < 64 → v / 2 ^ spare < 2 ^ (6 - spare) := by
    intro v hv
    rw [Nat.div_lt_iff_lt_mul (Nat.two_pow_pos spare), ← Nat.pow_add, Nat.sub_add_cancel hle]
    exact hv
  have hsame : (ys ++ [y]).length = (xs ++ [x]).length := by simp [hlength]
  rw [← byteBits_inj, byteBits_packed hx, byteBits_packed hy, hsame,
    take_flatMap_bits (by simp) hspare, take_flatMap_bits (by simp [hlength]) hspare]
  constructor
  · intro h
    obtain ⟨hfront, hend⟩ :=
      List.append_inj h (by rw [length_flatMap_bits, length_flatMap_bits, hlength])
    rw [bits_eq_iff, Nat.mod_eq_of_lt (hdiv (hxlast x (List.mem_singleton_self x))),
      Nat.mod_eq_of_lt (hdiv (hylast y (List.mem_singleton_self y)))] at hend
    exact ⟨(flatMap_bits_eq_iff hlength hxs hys).mp hfront, hend⟩
  · rintro ⟨rfl, hend⟩
    rw [hend]

theorem packed_eq_packed_iff {xs ys : List Nat} (hx : Sextets xs) (hy : Sextets ys)
    (hxs : xs.length % 4 ≠ 1) (hys : ys.length % 4 ≠ 1) :
    packed xs = packed ys ↔ xs.length = ys.length ∧ xs.dropLast = ys.dropLast ∧
      ∀ x ∈ xs.getLast?, ∀ y ∈ ys.getLast?,
        x / 2 ^ (6 * xs.length % 8) = y / 2 ^ (6 * xs.length % 8) := by
  suffices hsame : xs.length = ys.length → (packed xs = packed ys ↔ xs.dropLast = ys.dropLast ∧
      ∀ x ∈ xs.getLast?, ∀ y ∈ ys.getLast?,
        x / 2 ^ (6 * xs.length % 8) = y / 2 ^ (6 * xs.length % 8)) by
    constructor
    · intro h
      have hl : xs.length = ys.length := by
        rw [length_eq_of_length_packed hxs, h, ← length_eq_of_length_packed hys]
      exact ⟨hl, (hsame hl).mp h⟩
    · rintro ⟨hl, h⟩
      exact (hsame hl).mpr h
  intro hl
  rcases List.eq_nil_or_concat' xs with rfl | ⟨xs, x, rfl⟩
  · obtain rfl := List.length_eq_zero_iff.mp hl.symm
    simp
  · rcases List.eq_nil_or_concat' ys with rfl | ⟨ys, y, rfl⟩
    · simp at hl
    · rw [packed_concat_eq_iff hx hy (by simpa using hl) rfl]
      simp

end Base64

end SealedToken
