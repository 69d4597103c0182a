import SealedToken.Proofs.Outcome
import SealedToken.Proofs.Text.Ascii
import SealedToken.Text.Base64

/-!
# Base64 text and the bytes it spells

* `Base64.Alphabet.value?_eq_some_iff`: the sixty-four symbols of an alphabet.
* `Base64.readSextets_eq_ok_iff`: `readSextets` accepts the symbols of six-bit values, not one alone
  in the last group, and with zero spare bits where others are refused.
* `Base64.packed_sextets`, `Base64.sextets_packed`: bytes as six-bit values and back; the way back
  loses nothing but spare bits.
* `Base64.decode_refused_eq_ok_iff`: where spare bits must be zero, `decode` accepts exactly what
  `encode` writes. `Base64.decode_ignored_eq_ok_iff`: the bytes of a text where they are ignored.
-/

namespace SealedToken.Base64

/-! ## Symbols -/

theorem Alphabet.toNat_symbol (alphabet : Alphabet) (v : Nat) :
    (alphabet.symbol v).toNat =
      if v < 26 then 65 + v
      else if v < 52 then 71 + v
      else if v < 62 then v - 4
      else match alphabet with
        | .standard => if v = 62 then 43 else 47
        | .urlSafe => if v = 62 then 45 else 95 := by
  unfold symbol
  rw [UInt8.toNat_ofNat']
  cases alphabet
  · exact Nat.mod_eq_of_lt (by grind)
  · exact Nat.mod_eq_of_lt (by grind)

theorem Alphabet.value?_eq_some_iff {alphabet : Alphabet} {b : UInt8} {v : Nat} :
    alphabet.value? b = some v ↔ v < 64 ∧ b = alphabet.symbol v := by
  have hb : b.toNat < 256 := b.toNat_lt
  constructor
  · intro h
    have hv : v < 64 := by
      unfold value? at h
      cases alphabet <;> grind
    refine ⟨hv, UInt8.toNat_inj.mp ?_⟩
    rw [toNat_symbol]
    unfold value? at h
    cases alphabet <;> grind
  · rintro ⟨hv, h⟩
    have h := congrArg UInt8.toNat h
    rw [toNat_symbol] at h
    unfold value?
    split at h
    · grind
    · split at h
      · grind
      · split at h
        · grind
        · cases alphabet <;> grind

theorem Alphabet.symbol_ne_padding {alphabet : Alphabet} {v : Nat} (h : v < 64) :
    alphabet.symbol v ≠ padding := by
  intro hp
  have hp := congrArg UInt8.toNat hp
  rw [toNat_symbol] at hp
  have : padding.toNat = 61 := rfl
  cases alphabet <;> grind

/-- Every value is below 64. -/
def Sextets (values : List Nat) : Prop := ∀ v ∈ values, v < 64

theorem sextets_cons_iff {v : Nat} {values : List Nat} :
    Sextets (v :: values) ↔ v < 64 ∧ Sextets values := List.forall_mem_cons

theorem ascii_symbols {alphabet : Alphabet} {values : List Nat} (h : Sextets values) :
    Ascii (values.map alphabet.symbol) := by
  intro b hb
  obtain ⟨v, hv, rfl⟩ := List.mem_map.mp hb
  have := h v hv
  rw [Alphabet.toNat_symbol]
  cases alphabet <;> grind

/-- Bytes that are symbols are the symbols of some six-bit values. -/
theorem exists_sextets_of_forall {alphabet : Alphabet} {input : Bytes}
    (h : ∀ b ∈ input, ∃ v, alphabet.value? b = some v) :
    ∃ values, Sextets values ∧ input = values.map alphabet.symbol := by
  induction input with
  | nil => exact ⟨[], nofun, rfl⟩
  | cons b input ih =>
    obtain ⟨⟨v, hv⟩, hrest⟩ := List.forall_mem_cons.mp h
    obtain ⟨values, hs, rfl⟩ := ih hrest
    obtain ⟨hlt, rfl⟩ := Alphabet.value?_eq_some_iff.mp hv
    exact ⟨v :: values, sextets_cons_iff.mpr ⟨hlt, hs⟩, rfl⟩

/-! ## Reading symbols -/

theorem readSymbols_eq_ok_iff {alphabet : Alphabet} {offset : Nat}
    {bs : Bytes} {values : List Nat} :
    readSymbols alphabet offset bs = .ok values ↔
      Sextets values ∧ bs = values.map alphabet.symbol := by
  fun_induction readSymbols alphabet offset bs generalizing values with
  | case1 => cases values <;> simp [Sextets]
  | case2 offset byte rest hv =>
    refine ⟨nofun, ?_⟩
    rintro ⟨hs, h⟩
    match values with
    | [] => cases h
    | v :: values =>
      rw [List.map_cons, List.cons.injEq] at h
      rw [Alphabet.value?_eq_some_iff.mpr ⟨(sextets_cons_iff.mp hs).1, h.1⟩] at hv
      cases hv
  | case3 offset byte rest value hv ih =>
    obtain ⟨hlt, hbyte⟩ := Alphabet.value?_eq_some_iff.mp hv
    simp only [bind_eq_ok_iff, pure_eq_ok_iff, ih]
    constructor
    · rintro ⟨tail, ⟨hs, rfl⟩, rfl⟩
      exact ⟨sextets_cons_iff.mpr ⟨hlt, hs⟩, by rw [List.map_cons, hbyte]⟩
    · rintro ⟨hs, h⟩
      match values with
      | [] => cases h
      | v :: values =>
        rw [List.map_cons, List.cons.injEq] at h
        obtain ⟨hv', hs'⟩ := sextets_cons_iff.mp hs
        rw [Alphabet.value?_eq_some_iff.mpr ⟨hv', h.1⟩, Option.some.injEq] at hv
        exact ⟨values, ⟨hs', h.2⟩, by rw [hv]⟩

/-- `readLastGroup` reports padding that it has met. -/
theorem isSome_of_readLastGroup {alphabet : Alphabet} {index offset first : Nat} {bs : Bytes}
    {values : List Nat} {pad : Option Nat}
    (h : readLastGroup alphabet index offset (some first) bs = .ok (values, pad)) : pad.isSome := by
  induction bs generalizing index offset first values with
  | nil => cases h; rfl
  | cons byte rest ih =>
    unfold readLastGroup at h
    split at h
    · split at h
      · cases h
      · exact ih h
    · cases h

/-- `readLastGroup` reports no padding exactly if it reads the group as `readSymbols` does. -/
theorem readLastGroup_eq_ok_iff {alphabet : Alphabet} {index offset : Nat} {bs : Bytes}
    {values : List Nat} :
    readLastGroup alphabet index offset none bs = .ok (values, none) ↔
      readSymbols alphabet offset bs = .ok values := by
  induction bs generalizing index offset values with
  | nil => simp [readLastGroup, readSymbols, eq_comm]
  | cons byte rest ih =>
    unfold readLastGroup readSymbols
    by_cases hp : byte = padding
    · rw [if_pos hp]
      have hv : alphabet.value? byte = none := by
        cases hv : alphabet.value? byte with
        | none => rfl
        | some v =>
          obtain ⟨hlt, rfl⟩ := Alphabet.value?_eq_some_iff.mp hv
          exact absurd hp (Alphabet.symbol_ne_padding hlt)
      rw [hv]
      refine ⟨fun h => ?_, nofun⟩
      split at h
      · cases h
      · cases isSome_of_readLastGroup h
    · rw [if_neg hp]
      cases alphabet.value? byte with
      | none => exact ⟨nofun, nofun⟩
      | some value =>
        simp only [bind_eq_ok_iff, pure_eq_ok_iff, Prod.exists, Prod.mk.injEq]
        constructor
        · rintro ⟨tail, pad, h, rfl, rfl⟩
          exact ⟨tail, ih.mp h, rfl⟩
        · rintro ⟨tail, h, rfl⟩
          exact ⟨tail, none, ih.mpr h, rfl, rfl⟩

/-- The values of the last group: one to four of them, unless there are none at all. -/
def lastGroup (values : List Nat) : List Nat := values.drop (lastGroupStart values.length)

theorem lastGroupStart_le (length : Nat) : lastGroupStart length ≤ length := by
  rw [lastGroupStart]
  omega

theorem length_lastGroup_lt_two_iff {values : List Nat} (h : values ≠ []) :
    (lastGroup values).length < 2 ↔ values.length % 4 = 1 := by
  have := List.length_pos_iff.mpr h
  rw [lastGroup, List.length_drop, lastGroupStart]
  omega

theorem loneByteFault?_symbols {alphabet : Alphabet} {values : List Nat} (h : Sextets values) :
    loneByteFault? alphabet (values.map alphabet.symbol) = none := by
  rw [loneByteFault?, List.getLast?_map]
  cases hl : values.getLast? with
  | none => rfl
  | some v =>
    have hv := h v (List.mem_of_getLast? hl)
    simp [Alphabet.value?_eq_some_iff.mpr ⟨hv, rfl⟩]

theorem readSextets_eq_ok_iff {alphabet : Alphabet} {spare : SpareBits} {input : Bytes}
    {values : List Nat} :
    readSextets alphabet spare input = .ok values ↔
      Sextets values ∧ input = values.map alphabet.symbol ∧ values.length % 4 ≠ 1 ∧
        (spare = .refused → spareBitsZero (lastGroup values)) := by
  unfold readSextets
  constructor
  · intro h
    split at h
    · simp [bind, Except.bind, throw, throwThe, MonadExceptOf.throw] at h
    · simp only [bind_eq_ok_iff, check_eq_ok_iff, pure_eq_ok_iff] at h
      obtain ⟨body, hbody, ⟨group, pad⟩, hgroup, hlen, hpad, hspare, rfl⟩ := h
      obtain rfl : pad = none := by simpa using hpad
      rw [readLastGroup_eq_ok_iff] at hgroup
      obtain ⟨hb, hbody⟩ := readSymbols_eq_ok_iff.mp hbody
      obtain ⟨hg, hgroup⟩ := readSymbols_eq_ok_iff.mp hgroup
      have hinput : input = (body ++ group).map alphabet.symbol := by
        rw [List.map_append, ← hbody, ← hgroup, List.take_append_drop]
      have hlast : lastGroup (body ++ group) = group := by
        have hl := congrArg List.length hbody
        rw [List.length_take, List.length_map, Nat.min_eq_left (lastGroupStart_le _)] at hl
        rw [lastGroup, ← List.length_map (f := alphabet.symbol), ← hinput, hl, List.drop_left]
      refine ⟨fun v hv => (List.mem_append.mp hv).elim (hb v) (hg v), hinput, ?_, ?_⟩
      · intro hm
        have hne : body ++ group ≠ [] := by
          intro he
          rw [he] at hm
          cases hm
        have := (length_lastGroup_lt_two_iff hne).mpr hm
        rw [hlast] at this
        exact hlen ⟨by rw [hinput]; simpa using hne, this⟩
      · intro hr
        rw [hlast]
        simpa [hr] using hspare
  · rintro ⟨hs, rfl, hlen, hspare⟩
    rw [loneByteFault?_symbols hs]
    simp only [bind_eq_ok_iff, check_eq_ok_iff, pure_eq_ok_iff]
    rw [← List.map_take, ← List.map_drop, List.length_map]
    have hgroup : Sextets (lastGroup values) := fun v hv => hs v (List.mem_of_mem_drop hv)
    refine ⟨_, readSymbols_eq_ok_iff.mpr ⟨fun v hv => hs v (List.mem_of_mem_take hv), rfl⟩,
      (lastGroup values, none),
      readLastGroup_eq_ok_iff.mpr (readSymbols_eq_ok_iff.mpr ⟨hgroup, rfl⟩),
      ?_, Bool.false_ne_true, ?_, List.take_append_drop _ _⟩
    · rintro ⟨hne, hlt⟩
      exact hlen ((length_lastGroup_lt_two_iff (by simpa using hne)).mp hlt)
    · rintro ⟨hr, hz⟩
      simp [hspare hr] at hz

/-! ## Bytes as six-bit values -/

theorem lastGroup_eq_self {values : List Nat} (h : values.length ≤ 4) :
    lastGroup values = values := by
  rw [lastGroup,
    show lastGroupStart values.length = 0 by rw [lastGroupStart]; omega, List.drop_zero]

theorem lastGroup_cons_four {a b c d : Nat} {rest : List Nat} (h : rest ≠ []) :
    lastGroup (a :: b :: c :: d :: rest) = lastGroup rest := by
  have hl := List.length_pos_iff.mpr h
  have hs : lastGroupStart (a :: b :: c :: d :: rest).length = lastGroupStart rest.length + 4 := by
    simp only [lastGroupStart, List.length_cons]
    omega
  rw [lastGroup, hs]
  rfl

theorem sextets_eq_nil_iff {bs : Bytes} : sextets bs = [] ↔ bs = [] := by
  refine ⟨fun h => ?_, fun h => by rw [h]; rfl⟩
  match bs with
  | [] => rfl
  | [_] | [_, _] | _ :: _ :: _ :: _ => cases h

theorem sextets_sextets (bs : Bytes) : Sextets (sextets bs) := by
  fun_induction sextets bs with
  | case1 a b c rest ih =>
    have := a.toNat_lt
    have := b.toNat_lt
    have := c.toNat_lt
    simp only [sextets_cons_iff]
    exact ⟨by omega, by omega, by omega, by omega, ih⟩
  | case2 a b =>
    have := a.toNat_lt
    have := b.toNat_lt
    simp only [sextets_cons_iff]
    exact ⟨by omega, by omega, by omega, nofun⟩
  | case3 a =>
    have := a.toNat_lt
    simp only [sextets_cons_iff]
    exact ⟨by omega, by omega, nofun⟩
  | case4 => exact nofun

/-- `sextets` gives no group of one value, and zero spare bits. -/
theorem sextets_wellFormed (bs : Bytes) :
    (sextets bs).length % 4 ≠ 1 ∧ spareBitsZero (lastGroup (sextets bs)) := by
  fun_induction sextets bs with
  | case1 a b c rest ih =>
    by_cases hr : rest = []
    · subst hr
      rw [sextets, lastGroup_eq_self (by simp)]
      exact ⟨by simp, rfl⟩
    · rw [lastGroup_cons_four (mt sextets_eq_nil_iff.mp hr)]
      refine ⟨?_, ih.2⟩
      simp only [List.length_cons]
      omega
  | case2 a b =>
    refine ⟨by simp, ?_⟩
    rw [lastGroup_eq_self (by simp)]
    exact decide_eq_true (by omega)
  | case3 a =>
    refine ⟨by simp, ?_⟩
    rw [lastGroup_eq_self (by simp)]
    exact decide_eq_true (by omega)
  | case4 => exact ⟨by decide, rfl⟩

/-- A number that is that of a byte makes up the byte. -/
theorem ofNat_eq_of_toNat {n : Nat} {b : UInt8} (h : n = b.toNat) : UInt8.ofNat n = b := by
  rw [h, UInt8.ofNat_toNat]

theorem packed_sextets (bs : Bytes) : packed (sextets bs) = bs := by
  fun_induction sextets bs with
  | case1 a b c rest ih =>
    have ha := a.toNat_lt
    have hb := b.toNat_lt
    have hc := c.toNat_lt
    rw [packed, ih, ofNat_eq_of_toNat (b := a) (by omega), ofNat_eq_of_toNat (b := b) (by omega),
      ofNat_eq_of_toNat (b := c) (by omega)]
  | case2 a b =>
    have ha := a.toNat_lt
    have hb := b.toNat_lt
    rw [packed, ofNat_eq_of_toNat (b := a) (by omega), ofNat_eq_of_toNat (b := b) (by omega)]
  | case3 a =>
    have ha := a.toNat_lt
    rw [packed, ofNat_eq_of_toNat (b := a) (by omega)]
  | case4 => rfl

/-- Values that match none of the groups of `packed` are at most one. -/
theorem eq_nil_or_singleton {values : List Nat}
    (hfour : ∀ a b c d rest, values = a :: b :: c :: d :: rest → False)
    (hthree : ∀ a b c, values = [a, b, c] → False) (htwo : ∀ a b, values = [a, b] → False) :
    values = [] ∨ ∃ a, values = [a] := by
  rcases values with _ | ⟨a, _ | ⟨b, _ | ⟨c, _ | ⟨d, rest⟩⟩⟩⟩
  · exact .inl rfl
  · exact .inr ⟨a, rfl⟩
  · exact (htwo a b rfl).elim
  · exact (hthree a b c rfl).elim
  · exact (hfour a b c d rest rfl).elim

theorem sextets_packed {values : List Nat} (hs : Sextets values) (hlen : values.length % 4 ≠ 1)
    (hspare : spareBitsZero (lastGroup values)) : sextets (packed values) = values := by
  fun_induction packed values with
  | case1 a b c d rest ih =>
    simp only [sextets_cons_iff] at hs
    obtain ⟨ha, hb, hc, hd, hr⟩ := hs
    have hrest : sextets (packed rest) = rest := by
      by_cases he : rest = []
      · rw [he]; rfl
      · rw [lastGroup_cons_four he] at hspare
        simp only [List.length_cons] at hlen
        exact ih hr (by omega) hspare
    simp only [sextets, hrest, UInt8.toNat_ofNat']
    congr 1
    · omega
    congr 1
    · omega
    congr 1
    · omega
    congr 1
    omega
  | case2 a b c =>
    simp only [sextets_cons_iff] at hs
    rw [lastGroup_eq_self (by simp)] at hspare
    have hz : c % 4 = 0 := of_decide_eq_true hspare
    simp only [sextets, UInt8.toNat_ofNat']
    congr 1
    · omega
    congr 1
    · omega
    congr 1
    omega
  | case3 a b =>
    simp only [sextets_cons_iff] at hs
    rw [lastGroup_eq_self (by simp)] at hspare
    have hz : b % 16 = 0 := of_decide_eq_true hspare
    simp only [sextets, UInt8.toNat_ofNat']
    congr 1
    · omega
    congr 1
    omega
  | case4 values hfour hthree htwo =>
    obtain rfl | ⟨a, rfl⟩ := eq_nil_or_singleton hfour hthree htwo
    · rfl
    · exact absurd rfl hlen

/-- `packed` gives one byte for every eight bits. -/
theorem length_packed (values : List Nat) : (packed values).length = 6 * values.length / 8 := by
  fun_induction packed values with
  | case1 a b c d rest ih =>
    simp only [List.length_cons, ih]
    omega
  | case2 a b c => simp
  | case3 a b => simp
  | case4 values hfour hthree htwo =>
    obtain rfl | ⟨a, rfl⟩ := eq_nil_or_singleton hfour hthree htwo
    · rfl
    · simp

/-- The first byte of `packed` is made of the first two values. -/
theorem head?_packed (a b : Nat) (rest : List Nat) :
    (packed (a :: b :: rest)).head? = some (UInt8.ofNat (a * 4 + b / 16)) := by
  match rest with
  | [] | [_] | _ :: _ :: _ => rfl

/-! ## Texts -/

/-- `decode` that ignores spare bits accepts exactly the texts of symbols whose number is not one
more than a multiple of four. -/
theorem decode_ignored_eq_ok_iff {alphabet : Alphabet} {text : String} {bs : Bytes} :
    decode alphabet .ignored text = .ok bs ↔ ∃ values, Sextets values ∧
      utf8 text = values.map alphabet.symbol ∧ values.length % 4 ≠ 1 ∧ bs = packed values := by
  rw [decode]
  simp only [map_eq_ok_iff, readSextets_eq_ok_iff, reduceCtorEq, false_implies, and_true]
  constructor
  · rintro ⟨values, ⟨hs, htext, hlen⟩, rfl⟩
    exact ⟨values, hs, htext, hlen, rfl⟩
  · rintro ⟨values, hs, htext, hlen, rfl⟩
    exact ⟨values, ⟨hs, htext, hlen⟩, rfl⟩

/-- `decode` that refuses spare bits accepts exactly what `encode` produces. -/
theorem decode_refused_eq_ok_iff {alphabet : Alphabet} {text : String} {bs : Bytes} :
    decode alphabet .refused text = .ok bs ↔ text = encode alphabet bs := by
  rw [encode, eq_ofLatin1_iff (ascii_symbols (sextets_sextets bs)), decode]
  simp only [map_eq_ok_iff, readSextets_eq_ok_iff]
  constructor
  · rintro ⟨values, ⟨hs, htext, hlen, hspare⟩, rfl⟩
    rw [sextets_packed hs hlen (hspare trivial), htext]
  · intro h
    obtain ⟨hlen, hspare⟩ := sextets_wellFormed bs
    exact ⟨sextets bs, ⟨sextets_sextets bs, h, hlen, fun _ => hspare⟩, packed_sextets bs⟩

end SealedToken.Base64
