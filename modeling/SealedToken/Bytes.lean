/-!
# Byte strings

Tokens, keys, nonces and authentication codes are byte strings.

* `Bytes`: a byte string, a list of bytes.
* `utf8`, `ofUtf8?`: the UTF-8 form of a text and its reading; `ofUtf8?_eq_some_iff` says that
  each undoes the other.
* `littleEndian`, `bigEndian`, `ofLittleEndian`, `ofBigEndian`: numbers as byte strings.
* `xorBytes`: the bytewise exclusive or.
* `blocks`, `allBlocks`: a byte string cut into blocks of one size.
* `length_flatMap_of_length`, `flatMap_inj_of_length`: the length of joined pieces of one size, and
  that the whole gives the pieces back.
-/

namespace SealedToken

/-- A byte string. -/
abbrev Bytes := List UInt8

/-! ## Text -/

/-- The UTF-8 form of a text. -/
def utf8 (text : String) : Bytes := text.toByteArray.data.toList

/-- The text of which `bs` is the UTF-8 form. -/
def ofUtf8? (bs : Bytes) : Option String := String.fromUTF8? ⟨bs.toArray⟩

/-- The text whose characters have the given bytes as their code points. -/
def ofLatin1 (bs : Bytes) : String := String.ofList (bs.map fun b => Char.ofNat b.toNat)

theorem ofUtf8?_utf8 (text : String) : ofUtf8? (utf8 text) = some text := by
  have h : (⟨text.toByteArray.data.toList.toArray⟩ : ByteArray) = text.toByteArray := rfl
  rw [ofUtf8?, utf8, h, String.fromUTF8?, dif_pos text.isValidUTF8]
  rfl

/-- `ofUtf8?` reads exactly the bytes that `utf8` writes. -/
theorem ofUtf8?_eq_some_iff {bs : Bytes} {text : String} :
    ofUtf8? bs = some text ↔ bs = utf8 text := by
  refine ⟨fun h => ?_, fun h => h ▸ ofUtf8?_utf8 text⟩
  rw [ofUtf8?, String.fromUTF8?] at h
  split at h
  · cases h; rfl
  · cases h

theorem utf8_injective {s t : String} (h : utf8 s = utf8 t) : s = t := by
  have := ofUtf8?_utf8 s
  rw [h, ofUtf8?_utf8] at this
  exact (Option.some.inj this).symm

/-! ## Numbers -/

/-- The lowest `count` bytes of `n`, the lowest first. -/
def littleEndian : (count n : Nat) → Bytes
  | 0, _ => []
  | count + 1, n => UInt8.ofNat n :: littleEndian count (n / 256)

/-- The lowest `count` bytes of `n`, the highest of them first. -/
def bigEndian (count n : Nat) : Bytes := (littleEndian count n).reverse

/-- The number of which `bs` is the little-endian form. -/
def ofLittleEndian : Bytes → Nat
  | [] => 0
  | b :: bs => b.toNat + 256 * ofLittleEndian bs

/-- The number of which `bs` is the big-endian form. -/
def ofBigEndian (bs : Bytes) : Nat := bs.foldl (fun n b => n * 256 + b.toNat) 0

@[simp] theorem length_littleEndian (count n : Nat) : (littleEndian count n).length = count := by
  induction count generalizing n with
  | zero => rfl
  | succ count ih => simp [littleEndian, ih]

@[simp] theorem length_bigEndian (count n : Nat) : (bigEndian count n).length = count := by
  simp [bigEndian]

theorem littleEndian_ofLittleEndian (bs : Bytes) :
    littleEndian bs.length (ofLittleEndian bs) = bs := by
  induction bs with
  | nil => rfl
  | cons b bs ih =>
    have hb : b.toNat < 256 := b.toNat_lt
    have hd : (b.toNat + 256 * ofLittleEndian bs) / 256 = ofLittleEndian bs := by omega
    have hm : UInt8.ofNat (b.toNat + 256 * ofLittleEndian bs) = b := by
      apply UInt8.toNat_inj.mp
      rw [UInt8.toNat_ofNat']
      omega
    rw [List.length_cons, ofLittleEndian, littleEndian, hd, hm, ih]

/-! ## Combining and cutting -/

/-- The bytewise exclusive or, as long as the shorter of the two. -/
def xorBytes (xs ys : Bytes) : Bytes := List.zipWith (· ^^^ ·) xs ys

theorem length_xorBytes (xs ys : Bytes) :
    (xorBytes xs ys).length = min xs.length ys.length := by
  simp [xorBytes]

/-- `xorBytes` with a mask at least as long, applied twice, gives the bytes back. -/
theorem xorBytes_xorBytes {xs mask : Bytes} (h : xs.length ≤ mask.length) :
    xorBytes (xorBytes xs mask) mask = xs := by
  induction xs generalizing mask with
  | nil => rfl
  | cons x xs ih =>
    match mask with
    | [] => simp at h
    | m :: mask =>
      have hx : x ^^^ m ^^^ m = x := by rw [UInt8.xor_assoc, UInt8.xor_self, UInt8.xor_zero]
      have := @ih mask (by simpa using h)
      simp only [xorBytes, List.zipWith_cons_cons] at this ⊢
      rw [hx, this]

/-- The first `count` blocks of `size` bytes; the last may be shorter. -/
def blocks (size : Nat) : (count : Nat) → Bytes → List Bytes
  | 0, _ => []
  | count + 1, bs => bs.take size :: blocks size count (bs.drop size)

theorem length_blocks (size count : Nat) (bs : Bytes) : (blocks size count bs).length = count := by
  induction count generalizing bs with
  | zero => rfl
  | succ count ih => rw [blocks, List.length_cons, ih]

/-- The whole of `bs` in blocks of `size` bytes, of which the last may be shorter. -/
def allBlocks (size : Nat) (bs : Bytes) : List Bytes :=
  blocks size ((bs.length + size - 1) / size) bs

/-- The length of a `flatMap` whose lists all have `size` elements. -/
theorem length_flatMap_of_length {α β : Type} {size : Nat} {f : α → List β}
    (h : ∀ x, (f x).length = size) (xs : List α) : (xs.flatMap f).length = xs.length * size := by
  induction xs with
  | nil => simp
  | cons x xs ih =>
    rw [List.flatMap_cons, List.length_append, h, ih, List.length_cons, Nat.succ_mul,
      Nat.add_comm]

/-- A `flatMap` whose lists all have `size` elements is injective if its function is. -/
theorem flatMap_inj_of_length {α β : Type} {size : Nat} {f : α → List β}
    (hsize : ∀ x, (f x).length = size) {xs ys : List α} (hlength : xs.length = ys.length)
    (hinj : ∀ x ∈ xs, ∀ y ∈ ys, f x = f y → x = y) (h : xs.flatMap f = ys.flatMap f) :
    xs = ys := by
  induction xs generalizing ys with
  | nil => exact (List.length_eq_zero_iff.mp hlength.symm).symm
  | cons x xs ih =>
    match ys with
    | [] => cases hlength
    | y :: ys =>
      rw [List.flatMap_cons, List.flatMap_cons] at h
      obtain ⟨hhead, htail⟩ := List.append_inj h ((hsize x).trans (hsize y).symm)
      have hfirst : x = y := hinj x List.mem_cons_self y List.mem_cons_self hhead
      have hrest : xs = ys := ih (Nat.succ.inj hlength)
        (fun x' hx y' hy => hinj x' (List.mem_cons_of_mem x hx) y' (List.mem_cons_of_mem y hy))
        htail
      rw [hfirst, hrest]

/-- `count` zero bytes. -/
def zeroBytes (count : Nat) : Bytes := List.replicate count 0

/-- The zero bytes that fill `length` up to a multiple of `size`. -/
def zeroFill (size length : Nat) : Bytes := zeroBytes ((size - length % size) % size)

end SealedToken
