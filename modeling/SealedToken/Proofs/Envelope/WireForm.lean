import SealedToken.Proofs.Envelope.Row

/-!
# The wire forms of an envelope

* `Envelope.encode_eq_ok_iff`: the envelopes that are written, and their bytes.
* `Envelope.Fits`: a dialect has a place for all parts of the envelope.
* `Envelope.IsRow`, `Envelope.decode_eq_ok_iff`: accepted bytes have the two entries in either
  order.
* `Envelope.exists_head_of_decode`: the payload is the rest after them.
* `Envelope.decode_eq_ok_iff_encode`: without a place for nonces, `decode` accepts exactly what
  `encode` produces.
* `Envelope.decode_of_encode`: `decode` gives the encoded envelope, less an empty nonce, and with
  `Envelope.reread` of a version of another kind than the reader's.
* `Envelope.exists_decode_iff`: a reader of any kind finds the nonce and the payload that were
  written, and there is a kind whose reader succeeds. `Envelope.nonce_injective`: different nonces
  are written differently.
-/

namespace SealedToken.Envelope

/-! ## Writing -/

theorem entry_none (tag : EntryTag) : entry tag none = [] := rfl

theorem versionBytes_none_iff {raw : Option Bytes} : versionBytes none = .ok raw ↔ raw = none := by
  simp [versionBytes, eq_comm]

theorem versionBytes_some_iff {version : KeyVersion} {raw : Option Bytes} :
    versionBytes (some version) = .ok raw ↔ ∃ bs, version.toBytes = .ok bs ∧ raw = some bs := by
  rw [versionBytes, map_eq_ok_iff]
  simp only [eq_comm]

theorem writtenNonce_none : writtenNonce none = none := rfl

theorem writtenNonce_nil : writtenNonce (some []) = none := rfl

theorem writtenNonce_some {nonce : Bytes} (h : nonce ≠ []) :
    writtenNonce (some nonce) = some nonce := by
  rw [writtenNonce, Option.filter_some, if_pos (decide_eq_true h)]

/-- `encode` succeeds exactly if the version has bytes and the nonce is at most 255 bytes long. It
writes no entry for an empty nonce. -/
theorem encode_eq_ok_iff {envelope : Envelope} {bytes : Bytes} :
    envelope.encode = .ok bytes ↔
      (∀ nonce ∈ envelope.nonce, nonce.length ≤ maxNonceLength) ∧
      ∃ raw, versionBytes envelope.version = .ok raw ∧
        bytes = entry .version raw ++ entry .nonce (writtenNonce envelope.nonce) ++
          EntryTag.terminal.code :: envelope.payload := by
  have hlen : ¬ maxNonceLength < ((writtenNonce envelope.nonce).getD []).length ↔
      ∀ nonce ∈ envelope.nonce, nonce.length ≤ maxNonceLength := by
    cases envelope.nonce with
    | none => simp [writtenNonce_none]
    | some nonce =>
      by_cases hn : nonce = []
      · simp [hn, writtenNonce_nil]
      · simp [writtenNonce_some hn]
  rw [encode]
  simp only [bind_eq_ok_iff, check_eq_ok_iff, pure_eq_ok_iff, hlen]
  constructor
  · rintro ⟨raw, hraw, hl, rfl⟩
    exact ⟨hl, raw, hraw, rfl⟩
  · rintro ⟨hl, raw, hraw, rfl⟩
    exact ⟨raw, hraw, hl, rfl⟩

theorem encode_eq_ok_iff_of_nonce_eq_none {version : Option KeyVersion} {payload bytes : Bytes} :
    encode ⟨version, none, payload⟩ = .ok bytes ↔
      ∃ raw, versionBytes version = .ok raw ∧
        bytes = entry .version raw ++ EntryTag.terminal.code :: payload := by
  simp only [encode_eq_ok_iff, writtenNonce_none, entry_none, List.append_nil]
  exact and_iff_right nofun

/-! ## Reading -/

/-- The version is of the kind of the dialect, and a nonce is allowed by it and at most 255
bytes long. -/
structure Fits (options : Dialect) (envelope : Envelope) : Prop where
  kind_eq : ∀ version ∈ envelope.version, version.kind = options.kind
  nonce_fits : ∀ nonce ∈ envelope.nonce, options.allowNonce ∧ nonce.length ≤ maxNonceLength

variable {options : Dialect} {rest : Bytes} {envelope : Envelope}

/-- After both entries only the terminal tag and the payload can follow. -/
theorem read_after_both {version : KeyVersion} {nonce : Bytes} :
    Found.read options ⟨some version, some nonce⟩ rest = .ok envelope ↔
      envelope.version = some version ∧ envelope.nonce = some nonce ∧
        rest = EntryTag.terminal.code :: envelope.payload := by
  rw [Found.read_eq_ok_iff]
  simp only [Found.record_eq_ok_iff, reduceCtorEq, false_and, and_false, or_false, exists_false]
  exact ⟨fun ⟨hr, hv, hn⟩ => ⟨hv, hn, hr⟩, fun ⟨hv, hn, hr⟩ => ⟨hr, hv, hn⟩⟩

/-- After the version entry, a nonce entry may follow before the payload. -/
theorem read_after_version {version : KeyVersion} :
    Found.read options ⟨some version, none⟩ rest = .ok envelope ↔
      envelope.version = some version ∧
      (∀ nonce ∈ envelope.nonce, options.allowNonce ∧ nonce.length ≤ maxNonceLength) ∧
        rest = entry .nonce envelope.nonce ++ EntryTag.terminal.code :: envelope.payload := by
  rw [Found.read_eq_ok_iff]
  simp only [Found.record_eq_ok_iff, reduceCtorEq, false_and, and_false, false_or, true_and]
  constructor
  · rintro (⟨hr, hv, hn⟩ | ⟨tag, value, tail, next, rfl, hallow, hlen, ⟨rfl, rfl⟩, hread⟩)
    · rw [hn]
      exact ⟨hv, nofun, hr⟩
    · obtain ⟨hv, hn, rfl⟩ := read_after_both.mp hread
      rw [hn]
      refine ⟨hv, ?_, rfl⟩
      rintro _ ⟨⟩
      exact ⟨hallow rfl, hlen⟩
  · rintro ⟨hv, hfits, hr⟩
    cases hn : envelope.nonce with
    | none =>
      rw [hn, entry_none] at hr
      exact .inl ⟨hr, hv, rfl⟩
    | some nonce =>
      obtain ⟨hallow, hlen⟩ := hfits nonce hn
      rw [hn] at hr
      exact .inr ⟨.nonce, nonce, _, _, hr, fun _ => hallow, hlen, ⟨rfl, rfl⟩,
        read_after_both.mpr ⟨hv, hn, rfl⟩⟩

/-- After the nonce entry, a version entry may follow before the payload. -/
theorem read_after_nonce {nonce : Bytes} :
    Found.read options ⟨none, some nonce⟩ rest = .ok envelope ↔
      envelope.nonce = some nonce ∧ (∀ version ∈ envelope.version, version.kind = options.kind) ∧
      ∃ raw, versionBytes envelope.version = .ok raw ∧
        rest = entry .version raw ++ EntryTag.terminal.code :: envelope.payload := by
  rw [Found.read_eq_ok_iff]
  simp only [Found.record_eq_ok_iff, reduceCtorEq, false_and, and_false, or_false, true_and]
  constructor
  · rintro (⟨hr, hv, hn⟩ | ⟨tag, value, tail, next, rfl, -, hlen, ⟨rfl, version, hof, rfl⟩, hread⟩)
    · rw [hv]
      exact ⟨hn, nofun, none, rfl, hr⟩
    · obtain ⟨hv, hn, rfl⟩ := read_after_both.mp hread
      obtain ⟨hkind, hto⟩ := (KeyVersion.ofBytes_eq_ok_iff hlen).mp hof
      rw [hv]
      refine ⟨hn, ?_, some value, versionBytes_some_iff.mpr ⟨value, hto, rfl⟩, rfl⟩
      rintro _ ⟨⟩
      exact hkind
  · rintro ⟨hn, hkind, raw, hraw, hr⟩
    cases hv : envelope.version with
    | none =>
      rw [hv, versionBytes_none_iff] at hraw
      rw [hraw, entry_none] at hr
      exact .inl ⟨hr, rfl, hn⟩
    | some version =>
      rw [hv, versionBytes_some_iff] at hraw
      obtain ⟨bs, hto, rfl⟩ := hraw
      have hlen := KeyVersion.length_of_toBytes hto
      exact .inr ⟨.version, bs, _, _, hr, nofun, hlen,
        ⟨rfl, version, (KeyVersion.ofBytes_eq_ok_iff hlen).mpr ⟨hkind version hv, hto⟩, rfl⟩,
        read_after_both.mpr ⟨hv, hn, rfl⟩⟩

theorem decode_version_first {version : KeyVersion} {bs : Bytes}
    (hv : envelope.version = some version)
    (hto : version.toBytes = .ok bs) (hfits : envelope.Fits options) :
    decode options (entry .version (some bs) ++
      (entry .nonce envelope.nonce ++ EntryTag.terminal.code :: envelope.payload)) =
        .ok envelope := by
  have hlen := KeyVersion.length_of_toBytes hto
  have hne : EntryTag.version ≠ .terminal := nofun
  have hrecord : Found.record options {} .version bs = .ok ⟨some version, none⟩ :=
    Found.record_eq_ok_iff.mpr (.inl ⟨rfl, rfl, version,
      (KeyVersion.ofBytes_eq_ok_iff hlen).mpr ⟨hfits.kind_eq version hv, hto⟩, rfl⟩)
  rw [decode_eq_read, Found.read_entry hne nofun hlen, hrecord]
  exact read_after_version.mpr ⟨hv, hfits.nonce_fits, rfl⟩

theorem decode_nonce_first {nonce : Bytes} {raw : Option Bytes} (hn : envelope.nonce = some nonce)
    (hraw : versionBytes envelope.version = .ok raw) (hfits : envelope.Fits options) :
    decode options (entry .nonce (some nonce) ++
      (entry .version raw ++ EntryTag.terminal.code :: envelope.payload)) = .ok envelope := by
  obtain ⟨hallow, hlen⟩ := hfits.nonce_fits nonce hn
  have hne : EntryTag.nonce ≠ .terminal := nofun
  rw [decode_eq_read, Found.read_entry hne (fun _ => hallow) hlen]
  exact read_after_nonce.mpr ⟨hn, hfits.kind_eq, raw, hraw, rfl⟩

/-- The bytes are the version entry and the nonce entry, where the envelope has them, in either
order, and then the terminal tag and the payload. -/
def IsRow (envelope : Envelope) (bytes : Bytes) : Prop :=
  ∃ raw, versionBytes envelope.version = .ok raw ∧
    (bytes = entry .version raw ++ (entry .nonce envelope.nonce ++
        EntryTag.terminal.code :: envelope.payload) ∨
      bytes = entry .nonce envelope.nonce ++ (entry .version raw ++
        EntryTag.terminal.code :: envelope.payload))

theorem fits_and_isRow_of_decode {bytes : Bytes} (h : decode options bytes = .ok envelope) :
    envelope.Fits options ∧ envelope.IsRow bytes := by
  rw [decode_eq_read, Found.read_eq_ok_iff] at h
  simp only [Found.record_eq_ok_iff, true_and] at h
  -- the first entry is the terminal one, a version or a nonce
  rcases h with ⟨hr, hv, hn⟩ | ⟨tag, value, tail, next, rfl, hallow, hlen,
    ⟨rfl, version, hof, rfl⟩ | ⟨rfl, rfl⟩, hread⟩
  · refine ⟨⟨by rw [hv]; exact nofun, by rw [hn]; exact nofun⟩, none, by rw [hv]; rfl, .inl ?_⟩
    rw [hn]
    exact hr
  · obtain ⟨hv, hfits, rfl⟩ := read_after_version.mp hread
    obtain ⟨hkind, hto⟩ := (KeyVersion.ofBytes_eq_ok_iff hlen).mp hof
    have hraw : versionBytes envelope.version = .ok (some value) := by
      rw [hv]
      exact versionBytes_some_iff.mpr ⟨value, hto, rfl⟩
    refine ⟨⟨?_, hfits⟩, some value, hraw, .inl rfl⟩
    rw [hv]
    rintro _ ⟨⟩
    exact hkind
  · obtain ⟨hn, hkind, raw, hraw, rfl⟩ := read_after_nonce.mp hread
    refine ⟨⟨hkind, ?_⟩, raw, hraw, .inr (by rw [hn])⟩
    rw [hn]
    rintro _ ⟨⟩
    exact ⟨hallow rfl, hlen⟩

theorem decode_of_isRow {bytes : Bytes} (hfits : envelope.Fits options) (h : envelope.IsRow bytes) :
    decode options bytes = .ok envelope := by
  obtain ⟨raw, hraw, hbytes⟩ := h
  cases hv : envelope.version with
  | none =>
    have hnone := versionBytes_none_iff.mp (hv ▸ hraw)
    cases hn : envelope.nonce with
    | none =>
      have hpayload : decode options (EntryTag.terminal.code :: envelope.payload) =
          .ok ⟨none, none, envelope.payload⟩ := by
        rw [decode_eq_read, Found.read_terminal]
      rw [← hv, ← hn] at hpayload
      rw [hn, hnone] at hbytes
      rw [hbytes.elim id id]
      exact hpayload
    | some nonce =>
      have hfirst := decode_nonce_first hn hraw hfits
      rw [hn] at hbytes
      rw [hnone, entry_none, List.nil_append] at hbytes hfirst
      rw [hbytes.elim id id, hfirst]
  | some version =>
    obtain ⟨bs, hto, hsome⟩ := versionBytes_some_iff.mp (hv ▸ hraw)
    have hfirst := decode_version_first hv hto hfits
    rcases hbytes with h | h
    · rw [h, hsome, hfirst]
    · cases hn : envelope.nonce with
      | none =>
        rw [hn, entry_none, List.nil_append] at hfirst h
        rw [h, hsome, hfirst]
      | some nonce => rw [h, hn, decode_nonce_first hn hraw hfits]

/-- `decode` gives exactly the envelopes that fit the dialect and of which the bytes are a row. -/
theorem decode_eq_ok_iff {bytes : Bytes} :
    decode options bytes = .ok envelope ↔ envelope.Fits options ∧ envelope.IsRow bytes :=
  ⟨fits_and_isRow_of_decode, fun ⟨hfits, hrow⟩ => decode_of_isRow hfits hrow⟩

/-- The payload is all that follows the terminal tag, and any other payload could stand in its
place. -/
theorem exists_head_of_decode {bytes : Bytes} (h : decode options bytes = .ok envelope) :
    ∃ head, bytes = head ++ envelope.payload ∧
      ∀ payload, decode options (head ++ payload) = .ok { envelope with payload } := by
  obtain ⟨hfits, raw, hraw, horder⟩ := decode_eq_ok_iff.mp h
  have hread : ∀ payload bytes, IsRow { envelope with payload } bytes →
      decode options bytes = .ok { envelope with payload } :=
    fun payload bytes hrow => decode_of_isRow ⟨hfits.kind_eq, hfits.nonce_fits⟩ hrow
  rcases horder with rfl | rfl
  · refine ⟨entry .version raw ++ (entry .nonce envelope.nonce ++ [EntryTag.terminal.code]),
      by simp, ?_⟩
    intro payload
    exact hread payload _ ⟨raw, hraw, .inl (by simp)⟩
  · refine ⟨entry .nonce envelope.nonce ++ (entry .version raw ++ [EntryTag.terminal.code]),
      by simp, ?_⟩
    intro payload
    exact hread payload _ ⟨raw, hraw, .inr (by simp)⟩

/-- Where nonces are not allowed, `decode` accepts exactly the bytes that `encode` produces. -/
theorem decode_eq_ok_iff_encode {bytes : Bytes} (h : options.allowNonce = false) :
    decode options bytes = .ok envelope ↔
      envelope.nonce = none ∧ (∀ version ∈ envelope.version, version.kind = options.kind) ∧
        envelope.encode = .ok bytes := by
  rw [decode_eq_ok_iff, encode_eq_ok_iff]
  constructor
  · rintro ⟨hfits, raw, hraw, hbytes⟩
    cases hn : envelope.nonce with
    | none =>
      rw [hn] at hbytes
      exact ⟨rfl, hfits.kind_eq, nofun, raw, hraw,
        by simpa [entry_none, writtenNonce_none] using hbytes⟩
    | some nonce =>
      have hallow := (hfits.nonce_fits nonce hn).1
      rw [h] at hallow
      cases hallow
  · rintro ⟨hn, hkind, -, raw, hraw, rfl⟩
    refine ⟨⟨hkind, by rw [hn]; exact nofun⟩, raw, hraw, .inl ?_⟩
    rw [hn, writtenNonce_none, List.append_assoc]

/-! ## Reading what was written -/

theorem getD_writtenNonce (nonce : Bytes) : (writtenNonce (some nonce)).getD [] = nonce := by
  by_cases h : nonce = []
  · rw [h, writtenNonce_nil, Option.getD_none]
  · rw [writtenNonce_some h, Option.getD_some]

theorem length_of_writtenNonce {envelope : Envelope} {nonce : Bytes}
    (hlen : ∀ nonce ∈ envelope.nonce, nonce.length ≤ maxNonceLength)
    (h : writtenNonce envelope.nonce = some nonce) : nonce.length ≤ maxNonceLength :=
  hlen nonce (Option.eq_some_of_filter_eq_some h)

/-- The version that a reader of the given kind takes the bytes of another version for. -/
def reread (kind : KeyVersion.Kind) : Option KeyVersion → Except EnvelopeError (Option KeyVersion)
  | some version => do
    let bs ← version.toBytes
    (KeyVersion.ofBytes kind bs).map some
  | none => .ok none

/-- `reread` gives a version of the kind with the same bytes, or no version for none. -/
theorem reread_eq_ok_iff {kind : KeyVersion.Kind} {version found : Option KeyVersion} :
    reread kind version = .ok found ↔
      (∀ v ∈ found, v.kind = kind) ∧
        ∃ raw, versionBytes version = .ok raw ∧ versionBytes found = .ok raw := by
  cases version with
  | none =>
    simp only [reread, versionBytes_none_iff]
    constructor
    · rintro ⟨⟩
      exact ⟨nofun, none, rfl, rfl⟩
    · rintro ⟨-, raw, rfl, hfound⟩
      cases found with
      | none => rfl
      | some v =>
        obtain ⟨bs, -, he⟩ := versionBytes_some_iff.mp hfound
        cases he
  | some version =>
    simp only [reread, bind_eq_ok_iff, map_eq_ok_iff, versionBytes_some_iff]
    constructor
    · rintro ⟨bs, hto, v, hof, rfl⟩
      obtain ⟨hkind, hv⟩ := (KeyVersion.ofBytes_eq_ok_iff (KeyVersion.length_of_toBytes hto)).mp hof
      refine ⟨?_, some bs, ⟨bs, hto, rfl⟩, versionBytes_some_iff.mpr ⟨bs, hv, rfl⟩⟩
      rintro _ ⟨⟩
      exact hkind
    · rintro ⟨hkind, raw, ⟨bs, hto, rfl⟩, hfound⟩
      cases found with
      | none =>
        cases versionBytes_none_iff.mp hfound
      | some v =>
        obtain ⟨bs', hv, he⟩ := versionBytes_some_iff.mp hfound
        cases he
        exact ⟨bs, hto, v,
          (KeyVersion.ofBytes_eq_ok_iff (KeyVersion.length_of_toBytes hto)).mpr ⟨hkind v rfl, hv⟩,
          rfl⟩

/-- `reread` of a version never gives no version. -/
theorem exists_of_reread_some {kind : KeyVersion.Kind} {version : KeyVersion}
    {found : Option KeyVersion}
    (h : reread kind (some version) = .ok found) : ∃ v, found = some v ∧ v.kind = kind := by
  obtain ⟨hkind, raw, hraw, hfound⟩ := reread_eq_ok_iff.mp h
  obtain ⟨bs, -, rfl⟩ := versionBytes_some_iff.mp hraw
  cases found with
  | none => cases versionBytes_none_iff.mp hfound
  | some v => exact ⟨v, rfl, hkind v rfl⟩

/-- `reread` gives a version of the kind back. -/
theorem reread_of_kind_eq {kind : KeyVersion.Kind}
    {version : Option KeyVersion} {raw : Option Bytes}
    (hraw : versionBytes version = .ok raw) (hkind : ∀ v ∈ version, v.kind = kind) :
    reread kind version = .ok version :=
  reread_eq_ok_iff.mpr ⟨hkind, raw, hraw, hraw⟩

theorem read_written {found : Found} {written : Option Bytes} (payload : Bytes)
    (hnone : found.nonce = none) (hlen : ∀ nonce ∈ written, nonce.length ≤ maxNonceLength)
    (hallow : written.isSome → options.allowNonce) :
    found.read options (entry .nonce written ++ EntryTag.terminal.code :: payload) =
      .ok ⟨found.version, written, payload⟩ := by
  cases written with
  | none => rw [entry_none, List.nil_append, Found.read_terminal, hnone]
  | some nonce =>
    have hne : EntryTag.nonce ≠ .terminal := nofun
    have hrecord : found.record options .nonce nonce = .ok { found with nonce := some nonce } :=
      Found.record_eq_ok_iff.mpr (.inr ⟨rfl, hnone, rfl⟩)
    rw [Found.read_entry hne (fun _ => hallow rfl) (hlen nonce rfl), hrecord]
    exact Found.read_terminal payload

/-- `decode` gives back what `encode` wrote, but for an empty nonce, which becomes none, and with
the version that `reread` gives. -/
theorem decode_of_encode {bytes : Bytes} (h : envelope.encode = .ok bytes)
    (hallow : (writtenNonce envelope.nonce).isSome → options.allowNonce) :
    decode options bytes = (reread options.kind envelope.version).map fun version =>
      ⟨version, writtenNonce envelope.nonce, envelope.payload⟩ := by
  obtain ⟨hfits, raw, hraw, rfl⟩ := encode_eq_ok_iff.mp h
  have hlen : ∀ nonce ∈ writtenNonce envelope.nonce, nonce.length ≤ maxNonceLength :=
    fun _ hn => length_of_writtenNonce hfits hn
  rw [decode_eq_read, List.append_assoc]
  cases hv : envelope.version with
  | none =>
    rw [hv, versionBytes_none_iff] at hraw
    rw [hraw, entry_none, List.nil_append, read_written _ rfl hlen hallow]
    rfl
  | some version =>
    rw [hv, versionBytes_some_iff] at hraw
    obtain ⟨bs, hto, rfl⟩ := hraw
    have hne : EntryTag.version ≠ .terminal := nofun
    rw [Found.read_entry hne nofun (KeyVersion.length_of_toBytes hto), reread, hto]
    show ((KeyVersion.ofBytes options.kind bs).map fun version => Found.mk (some version) none) >>=
      (fun found => found.read options _) = ((KeyVersion.ofBytes options.kind bs).map some).map _
    cases KeyVersion.ofBytes options.kind bs with
    | error e => rfl
    | ok version => exact read_written _ rfl hlen hallow

/-- For every kind of versions, `decode` finds the same nonce and payload in bytes that `encode`
wrote, and it succeeds for at least one kind. -/
theorem exists_decode_iff {envelope : Envelope} {bytes : Bytes} (allowNonce : Bool)
    (P : Option Bytes → Bytes → Prop) (h : envelope.encode = .ok bytes)
    (hallow : (writtenNonce envelope.nonce).isSome → allowNonce) :
    (∃ kind found, decode ⟨kind, allowNonce⟩ bytes = .ok found ∧ P found.nonce found.payload) ↔
      P (writtenNonce envelope.nonce) envelope.payload := by
  have hread : ∀ kind, decode ⟨kind, allowNonce⟩ bytes = (reread kind envelope.version).map
      fun version => ⟨version, writtenNonce envelope.nonce, envelope.payload⟩ :=
    fun kind => decode_of_encode h hallow
  constructor
  · rintro ⟨kind, found, hfound, hP⟩
    rw [hread, map_eq_ok_iff] at hfound
    obtain ⟨version, -, rfl⟩ := hfound
    exact hP
  · intro hP
    obtain ⟨-, raw, hraw, -⟩ := encode_eq_ok_iff.mp h
    let kind := (envelope.version.map KeyVersion.kind).getD .label
    have hkind : ∀ v ∈ envelope.version, v.kind = kind := by
      intro v hv
      simp [kind, Option.mem_def.mp hv]
    refine ⟨kind, ⟨envelope.version, writtenNonce envelope.nonce, envelope.payload⟩, ?_, hP⟩
    rw [hread, reread_of_kind_eq hraw hkind]
    rfl

/-- Envelopes with nonces that `encode` writes as the same bytes have the same nonce. -/
theorem nonce_injective {version version' : Option KeyVersion}
    {nonce nonce' payload payload' bytes : Bytes}
    (h : encode ⟨version, some nonce, payload⟩ = .ok bytes)
    (h' : encode ⟨version', some nonce', payload'⟩ = .ok bytes) : nonce = nonce' := by
  have hread :=
    exists_decode_iff true (fun found _ => found = writtenNonce (some nonce)) h fun _ => rfl
  have hread' :=
    exists_decode_iff true (fun found _ => found = writtenNonce (some nonce)) h' fun _ => rfl
  have hsame : writtenNonce (some nonce') = writtenNonce (some nonce) :=
    (hread.symm.trans hread').mp rfl
  calc nonce = (writtenNonce (some nonce)).getD [] := (getD_writtenNonce nonce).symm
    _ = (writtenNonce (some nonce')).getD [] := by rw [hsame]
    _ = nonce' := getD_writtenNonce nonce'

end SealedToken.Envelope
