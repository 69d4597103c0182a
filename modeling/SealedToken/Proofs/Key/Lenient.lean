import SealedToken.Proofs.Key.SecretForm
import SealedToken.Proofs.Text.Bits
import SealedToken.Proofs.Text.Canonical

/-!
# Lenient base64 secrets

`SecretForm.base64` ignores line breaks, wherever they stand, and the spare bits of the last symbol.

* `LineBroken`: a text with line breaks put in. `SecretForm.joinLines_of_lineBroken`: `joinLines`
  takes them out.
* `SecretForm.SameButSpare`: texts of the same symbols up to the spare bits of the last one.
* `SecretForm.exists_decode_base64_iff`, `SecretForm.byteBits_of_decode_base64`: the accepted texts,
  and the bits of the bytes of each.
* `SecretForm.decode_base64_inj`: the texts of the same bytes.
* `SecretForm.lenient_base64`: all of this, and that every such respelling of a key's text gives the
  key.
-/

namespace SealedToken

/-! ## Line breaks -/

/-- The second text is the first one with line breaks inserted anywhere. -/
inductive LineBroken : List Char → List Char → Prop
  | nil : LineBroken [] []
  | keep {cs ds : List Char} (c : Char) : LineBroken cs ds → LineBroken (c :: cs) (c :: ds)
  | carriageReturn {cs ds : List Char} : LineBroken cs ds → LineBroken cs ('\r' :: ds)
  | lineFeed {cs ds : List Char} : LineBroken cs ds → LineBroken cs ('\n' :: ds)

namespace SecretForm

theorem joinLines_of_lineBroken {s t : String} (h : LineBroken s.toList t.toList) :
    joinLines t = joinLines s := by
  suffices hfilter : ∀ {cs ds : List Char}, LineBroken cs ds →
      ds.filter (fun c => c ≠ '\r' ∧ c ≠ '\n') = cs.filter (fun c => c ≠ '\r' ∧ c ≠ '\n') by
    rw [joinLines, joinLines, hfilter h]
  intro cs ds h
  induction h with
  | nil => rfl
  | keep c _ ih => rw [List.filter_cons, List.filter_cons, ih]
  | carriageReturn _ ih => rw [List.filter_cons_of_neg (by decide), ih]
  | lineFeed _ ih => rw [List.filter_cons_of_neg (by decide), ih]

/-! ## Symbols -/

/-- The symbols of the standard base64 alphabet. -/
def symbols : List Char := TextForm.base64Standard.alphabet.toList

/-- The six bits that a symbol stands for, as a number. -/
def symbolValue (c : Char) : Nat := symbols.idxOf c

/-- The symbol of a six-bit value. -/
def symbolOf (v : Nat) : Char := TextForm.base64Standard.symbolChar v

/-- The bits of a text, those of the first symbol first. -/
def symbolBits (text : String) : List Bool := text.toList.flatMap fun c => bits 6 (symbolValue c)

variable {s t text : String} {key : Bytes} {v : Nat} {values : List Nat}

theorem mem_symbols_iff {c : Char} : c ∈ symbols ↔ ∃ v < 64, symbolOf v = c :=
  TextForm.mem_alphabet_iff

theorem symbolValue_symbolOf (h : v < 64) : symbolValue (symbolOf v) = v :=
  TextForm.idxOf_symbolChar h

theorem symbolValue_lt_iff {c : Char} : symbolValue c < 64 ↔ c ∈ symbols := by
  have hlength : symbols.length = 64 := by decide
  rw [← hlength]
  exact List.idxOf_lt_length_iff

/-- A text of symbols is spelled by their six-bit values. -/
theorem exists_values_of_symbols (h : ∀ c ∈ text.toList, c ∈ symbols) :
    ∃ values, Base64.Sextets values ∧ text.toList = values.map symbolOf := by
  generalize text.toList = cs at h ⊢
  induction cs with
  | nil => exact ⟨[], nofun, rfl⟩
  | cons c cs ih =>
    obtain ⟨hc, hcs⟩ := List.forall_mem_cons.mp h
    obtain ⟨v, hv, rfl⟩ := mem_symbols_iff.mp hc
    obtain ⟨values, hs, rfl⟩ := ih hcs
    exact ⟨v :: values, Base64.sextets_cons_iff.mpr ⟨hv, hs⟩, rfl⟩

theorem mem_symbols_of_values (hs : Base64.Sextets values)
    (htext : text.toList = values.map symbolOf) :
    ∀ c ∈ text.toList, c ∈ symbols := by
  intro c hc
  rw [htext] at hc
  obtain ⟨v, hv, rfl⟩ := List.mem_map.mp hc
  exact mem_symbols_iff.mpr ⟨v, hs v hv, rfl⟩

theorem length_of_values (htext : text.toList = values.map symbolOf) :
    text.length = values.length := by
  rw [← String.length_toList, htext, List.length_map]

theorem symbolBits_of_values (hs : Base64.Sextets values)
    (htext : text.toList = values.map symbolOf) :
    symbolBits text = values.flatMap (bits 6) := by
  rw [symbolBits, htext, List.flatMap_map]
  refine List.flatMap_congr fun v hv => ?_
  rw [symbolValue_symbolOf (hs v hv)]

/-- A text of symbols contains no line breaks. -/
theorem joinLines_of_symbols (h : ∀ c ∈ text.toList, c ∈ symbols) : joinLines text = text := by
  have hbreaks : '\r' ∉ symbols ∧ '\n' ∉ symbols := by decide
  have hfilter : text.toList.filter (fun c => c ≠ '\r' ∧ c ≠ '\n') = text.toList := by
    refine List.filter_eq_self.mpr fun c hc => decide_eq_true ⟨?_, ?_⟩
    · rintro rfl
      exact hbreaks.1 (h _ hc)
    · rintro rfl
      exact hbreaks.2 (h _ hc)
  rw [joinLines, hfilter, String.ofList_toList]

/-! ## Accepted texts -/

/-- `base64` gives the whole bytes of the six-bit values that spell the text without its line
breaks, if their number is not one more than a multiple of four. -/
theorem decode_base64_iff_values : base64.decode text = .ok key ↔ ∃ values, Base64.Sextets values ∧
    (joinLines text).toList = values.map symbolOf ∧ values.length % 4 ≠ 1 ∧
    key = Base64.packed values := by
  rw [decode_base64_eq_ok_iff, readBase64, Base64.decode_ignored_eq_ok_iff]
  refine exists_congr fun values => and_congr_right fun hs => ?_
  rw [← eq_ofLatin1_iff (Base64.ascii_symbols hs), ← String.toList_inj,
    toList_ofLatin1, List.map_map]
  rfl

theorem exists_decode_base64_iff : (∃ key, base64.decode text = .ok key) ↔
    (∀ c ∈ (joinLines text).toList, c ∈ symbols) ∧ (joinLines text).length % 4 ≠ 1 := by
  simp only [decode_base64_iff_values]
  constructor
  · rintro ⟨_, values, hs, htext, hlen, rfl⟩
    exact ⟨mem_symbols_of_values hs htext, by rwa [length_of_values htext]⟩
  · rintro ⟨hsymbols, hlen⟩
    obtain ⟨values, hs, htext⟩ := exists_values_of_symbols hsymbols
    exact ⟨_, values, hs, htext, by rwa [← length_of_values htext], rfl⟩

/-- The bits of the key are the first of those of the symbols, as many as make up whole bytes. -/
theorem byteBits_of_decode_base64 (h : base64.decode text = .ok key) :
    key.length = 6 * (joinLines text).length / 8 ∧
      byteBits key = (symbolBits (joinLines text)).take (8 * key.length) := by
  obtain ⟨values, hs, htext, -, rfl⟩ := decode_base64_iff_values.mp h
  rw [Base64.byteBits_packed hs, Base64.length_packed,
    symbolBits_of_values hs htext, length_of_values htext]
  exact ⟨rfl, rfl⟩

/-! ## Texts for the same key -/

/-- The texts have the same length and the same symbols, but the last symbols may differ in the bits
that are left over after the last whole byte. -/
structure SameButSpare (s t : String) : Prop where
  length : s.length = t.length
  init : s.toList.dropLast = t.toList.dropLast
  last : ∀ c ∈ s.toList.getLast?, ∀ d ∈ t.toList.getLast?,
    symbolValue c / 2 ^ (6 * s.length % 8) = symbolValue d / 2 ^ (6 * s.length % 8)

theorem sameButSpare_iff_values {xs ys : List Nat} (hx : Base64.Sextets xs) (hy : Base64.Sextets ys)
    (hs : s.toList = xs.map symbolOf) (ht : t.toList = ys.map symbolOf) :
    SameButSpare s t ↔ xs.length = ys.length ∧ xs.dropLast = ys.dropLast ∧
      ∀ x ∈ xs.getLast?, ∀ y ∈ ys.getLast?,
        x / 2 ^ (6 * xs.length % 8) = y / 2 ^ (6 * xs.length % 8) := by
  have hback : ∀ {zs : List Nat}, Base64.Sextets zs →
      (zs.dropLast.map symbolOf).map symbolValue = zs.dropLast := by
    intro zs hz
    have hid : ∀ v ∈ zs.dropLast, (symbolValue ∘ symbolOf) v = id v := fun v hv =>
      symbolValue_symbolOf (hz v ((List.dropLast_subset zs) hv))
    rw [List.map_map, List.map_congr_left hid, List.map_id]
  constructor
  · rintro ⟨hlength, hinit, hlast⟩
    rw [length_of_values hs] at hlength hlast
    refine ⟨hlength.trans (length_of_values ht), ?_, ?_⟩
    · rw [hs, ht, ← List.map_dropLast, ← List.map_dropLast] at hinit
      rw [← hback hx, hinit, hback hy]
    · intro x hxlast y hylast
      have h := hlast (symbolOf x)
        (by rw [hs, List.getLast?_map]; exact Option.mem_map_of_mem symbolOf hxlast)
        (symbolOf y) (by rw [ht, List.getLast?_map]; exact Option.mem_map_of_mem symbolOf hylast)
      rwa [symbolValue_symbolOf (hx x (List.mem_of_getLast? hxlast)),
        symbolValue_symbolOf (hy y (List.mem_of_getLast? hylast))] at h
  · rintro ⟨hlength, hinit, hlast⟩
    refine ⟨?_, ?_, ?_⟩
    · rw [length_of_values hs, length_of_values ht, hlength]
    · rw [hs, ht, ← List.map_dropLast, ← List.map_dropLast, hinit]
    · rw [hs, ht, List.getLast?_map, List.getLast?_map, length_of_values hs]
      intro c hc d hd
      obtain ⟨x, hxlast, rfl⟩ := Option.mem_map.mp hc
      obtain ⟨y, hylast, rfl⟩ := Option.mem_map.mp hd
      rw [symbolValue_symbolOf (hx x (List.mem_of_getLast? hxlast)),
        symbolValue_symbolOf (hy y (List.mem_of_getLast? hylast))]
      exact hlast x hxlast y hylast

/-- Two texts are read for the same key exactly if, without their line breaks, they are equal but
for spare bits. -/
theorem decode_base64_inj {key' : Bytes} (hs : base64.decode s = .ok key)
    (ht : base64.decode t = .ok key') :
    key = key' ↔ SameButSpare (joinLines s) (joinLines t) := by
  obtain ⟨xs, hx, hxs, hxlen, rfl⟩ := decode_base64_iff_values.mp hs
  obtain ⟨ys, hy, hys, hylen, rfl⟩ := decode_base64_iff_values.mp ht
  rw [sameButSpare_iff_values hx hy hxs hys, Base64.packed_eq_packed_iff hx hy hxlen hylen]

/-- A character whose bits above the spare ones are those of a symbol is a symbol. -/
theorem mem_symbols_of_agree {c d : Char} {spare : Nat} (hspare : spare ≤ 6) (hc : c ∈ symbols)
    (h : symbolValue c / 2 ^ spare = symbolValue d / 2 ^ spare) : d ∈ symbols := by
  have hpow : 64 = 2 ^ (6 - spare) * 2 ^ spare := by
    rw [← Nat.pow_add, Nat.sub_add_cancel hspare]
  rw [← symbolValue_lt_iff, hpow, ← Nat.div_lt_iff_lt_mul (Nat.two_pow_pos spare)] at hc ⊢
  rwa [← h]

theorem SameButSpare.symbols (h : SameButSpare s t) (hs : ∀ c ∈ s.toList, c ∈ symbols) :
    ∀ c ∈ t.toList, c ∈ SecretForm.symbols := by
  obtain ⟨hlength, hinit, hlast⟩ := h
  rw [← String.length_toList, ← String.length_toList] at hlength
  rcases List.eq_nil_or_concat' t.toList with ht | ⟨ts, d, ht⟩
  · rw [ht]
    exact nofun
  rcases List.eq_nil_or_concat' s.toList with hnil | ⟨ss, c, hcons⟩
  · rw [ht, hnil] at hlength
    simp at hlength
  rw [ht, hcons, List.dropLast_concat, List.dropLast_concat] at hinit
  rw [hcons] at hs
  obtain ⟨hss, hc⟩ := List.forall_mem_append.mp hs
  rw [ht, ← hinit]
  refine List.forall_mem_append.mpr ⟨hss, ?_⟩
  have hagree :=
    hlast c (by rw [hcons, List.getLast?_concat]; rfl) d (by rw [ht, List.getLast?_concat]; rfl)
  intro d' hd'
  obtain rfl := List.mem_singleton.mp hd'
  exact mem_symbols_of_agree (by omega) (hc c (List.mem_singleton_self c)) hagree

/-! ## The text of a key -/

/-- `base64` reads a key from its own text, which contains no line breaks. -/
theorem decode_base64_encode (key : Bytes) :
    joinLines (TextForm.base64Standard.encode key) = TextForm.base64Standard.encode key ∧
      base64.decode (TextForm.base64Standard.encode key) = .ok key := by
  have hs := Base64.sextets_sextets key
  have htext : (TextForm.base64Standard.encode key).toList = (Base64.sextets key).map symbolOf :=
    TextForm.toList_encode .base64Standard key
  have hjoin := joinLines_of_symbols (mem_symbols_of_values hs htext)
  refine ⟨hjoin, decode_base64_iff_values.mpr ⟨_, hs, ?_, (Base64.sextets_wellFormed key).1, ?_⟩⟩
  · rw [hjoin, htext]
  · rw [Base64.packed_sextets]

/-- `base64` reads a key from its own text with other spare bits and with line breaks inserted. -/
theorem decode_of_changed {varied : String}
    (hvaried : SameButSpare (TextForm.base64Standard.encode key) varied)
    (hbroken : LineBroken varied.toList text.toList) : base64.decode text = .ok key := by
  obtain ⟨hjoin, hread⟩ := decode_base64_encode key
  obtain ⟨hsymbols, hlen⟩ := exists_decode_base64_iff.mp ⟨key, hread⟩
  rw [hjoin] at hsymbols hlen
  have hjoined : joinLines text = varied := by
    rw [joinLines_of_lineBroken hbroken, joinLines_of_symbols (hvaried.symbols hsymbols)]
  obtain ⟨key', hkey'⟩ : ∃ key', base64.decode text = .ok key' := by
    rw [exists_decode_base64_iff, hjoined, ← hvaried.length]
    exact ⟨hvaried.symbols hsymbols, hlen⟩
  have hsame : SameButSpare (joinLines (TextForm.base64Standard.encode key)) (joinLines text) := by
    rw [hjoin, hjoined]
    exact hvaried
  rw [hkey', ← (decode_base64_inj hread hkey').mpr hsame]

/-- `base64` accepts a text exactly if, without its line breaks, it consists of symbols whose number
is not one more than a multiple of four, and gives the whole bytes of their bits. So it reads a key
from its own text with line breaks inserted anywhere and with other spare bits, and so does `auto`.
Two texts are read for the same key exactly if they are equal but for line breaks and spare bits. -/
theorem lenient_base64 :
    (∀ text, (∃ key, base64.decode text = .ok key) ↔
      (∀ c ∈ (joinLines text).toList, c ∈ TextForm.base64Standard.alphabet.toList) ∧
        (joinLines text).length % 4 ≠ 1) ∧
    (∀ text key, base64.decode text = .ok key → key.length = 6 * (joinLines text).length / 8 ∧
      byteBits key = (symbolBits (joinLines text)).take (8 * key.length)) ∧
    (∀ key varied text, SameButSpare (TextForm.base64Standard.encode key) varied →
      LineBroken varied.toList text.toList →
        base64.decode text = .ok key ∧ auto.decode text = .ok key) ∧
    ∀ s t key key', base64.decode s = .ok key → base64.decode t = .ok key' →
      (key = key' ↔ SameButSpare (joinLines s) (joinLines t)) := by
  refine ⟨fun text => exists_decode_base64_iff, fun text key h => byteBits_of_decode_base64 h, ?_,
    fun s t key key' => decode_base64_inj⟩
  intro key varied text hvaried hbroken
  have hread := decode_of_changed hvaried hbroken
  exact ⟨hread, decode_auto_of_ok hread⟩

-- the text of the two bytes is "abc", and the lowest two bits of its last symbol are spare
theorem lenient_base64_two_bytes :
    SameButSpare (TextForm.base64Standard.encode [0x69, 0xb7]) "abd" ∧
    LineBroken "abd".toList "a\nbd\r\n".toList ∧ base64.decode "a\nbd\r\n" = .ok [0x69, 0xb7] ∧
    auto.decode "a\nbd\r\n" = .ok [0x69, 0xb7] := by
  have htext : TextForm.base64Standard.encode [0x69, 0xb7] = "abc" := by decide +kernel
  have hvaried : SameButSpare (TextForm.base64Standard.encode [0x69, 0xb7]) "abd" := by
    rw [htext]
    refine ⟨by decide, by simp, ?_⟩
    rintro c ⟨⟩ d ⟨⟩
    decide
  have hbroken : LineBroken "abd".toList "a\nbd\r\n".toList :=
    .keep 'a' (.lineFeed (.keep 'b' (.keep 'd' (.carriageReturn (.lineFeed .nil)))))
  exact ⟨hvaried, hbroken, lenient_base64.2.2.1 _ _ _ hvaried hbroken⟩

end SecretForm

end SealedToken
