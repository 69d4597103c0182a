import SealedToken.Proofs.Envelope.Fault

/-!
# The canonical form of an envelope

`Envelope.encode` writes one form for each envelope; `Envelope.decode` accepts others as well where
nonces are allowed.

* `Envelope.versionFirst`, `Envelope.nonceFirst`: the two orders of entries.
  `Envelope.encode_eq_ok_iff_versionFirst`: only the first is written.
* `Envelope.wireLength`: the length of the wire form, computed from the envelope.
* `Envelope.round_trip`: the envelopes that are written, their bytes, and that these are read back
  as the envelope.
* `Envelope.exists_orders_of_decode`: accepted bytes are one of the two orders, perhaps with an
  empty nonce.
* `Envelope.canonical_form`: accepted bytes are the written form of the envelope, unless the nonce
  leads or is empty.
-/

namespace SealedToken.Envelope

variable {options : Dialect} {bytes canonical : Bytes} {envelope : Envelope} {raw : Option Bytes}

/-! ## The two orders -/

/-- The bytes of an envelope with the version entry before the nonce entry. -/
def versionFirst (version nonce : Option Bytes) (payload : Bytes) : Bytes :=
  entry .version version ++ (entry .nonce nonce ++ EntryTag.terminal.code :: payload)

/-- The wire form with the nonce before the version. -/
def nonceFirst (version nonce : Option Bytes) (payload : Bytes) : Bytes :=
  entry .nonce nonce ++ (entry .version version ++ EntryTag.terminal.code :: payload)

/-- The length of an entry in bytes: tag, length byte and value, or zero if there is no entry. -/
def entryLength : Option Bytes → Nat
  | some value => 2 + value.length
  | none => 0

/-- The length of a wire form. -/
def wireLength (version nonce : Option Bytes) (payload : Bytes) : Nat :=
  entryLength version + entryLength nonce + 1 + payload.length

theorem length_entry (tag : EntryTag) (value : Option Bytes) :
    (entry tag value).length = entryLength value := by
  cases value with
  | none => rfl
  | some value =>
    rw [entry, entryLength, List.length_cons, List.length_cons]
    omega

theorem length_versionFirst (version nonce : Option Bytes) (payload : Bytes) :
    (versionFirst version nonce payload).length = wireLength version nonce payload := by
  rw [versionFirst, List.length_append, List.length_append, length_entry,
    length_entry, List.length_cons, wireLength]
  omega

theorem perm_nonceFirst (version nonce : Option Bytes) (payload : Bytes) :
    (versionFirst version nonce payload).Perm (nonceFirst version nonce payload) :=
  List.perm_append_comm_assoc _ _ _

theorem nonceFirst_none_left (nonce : Option Bytes) (payload : Bytes) :
    nonceFirst none nonce payload = versionFirst none nonce payload := rfl

theorem nonceFirst_none_right (version : Option Bytes) (payload : Bytes) :
    nonceFirst version none payload = versionFirst version none payload := rfl

/-- The two orders differ in the first byte. -/
theorem nonceFirst_ne_versionFirst (version nonce : Bytes) (nonce' : Option Bytes)
    (payload : Bytes) :
    nonceFirst (some version) (some nonce) payload ≠
      versionFirst (some version) nonce' payload := by
  intro h
  have hhead : EntryTag.nonce.code = EntryTag.version.code := List.head_eq_of_cons_eq h
  exact absurd hhead (by decide)

theorem encode_eq_ok_iff_versionFirst :
    envelope.encode = .ok bytes ↔
      (∀ nonce ∈ envelope.nonce, nonce.length ≤ maxNonceLength) ∧
      ∃ raw, versionBytes envelope.version = .ok raw ∧
        bytes = versionFirst raw (writtenNonce envelope.nonce) envelope.payload := by
  simp only [encode_eq_ok_iff, versionFirst, List.append_assoc]

/-! ## The round trip -/

/-- The bytes of a version are at most 255. -/
theorem length_of_versionBytes {version : Option KeyVersion} {bs : Bytes}
    (h : versionBytes version = .ok (some bs)) : bs.length ≤ 255 := by
  cases version with
  | none => cases h
  | some version =>
    obtain ⟨bs', hto, he⟩ := versionBytes_some_iff.mp h
    obtain rfl := Option.some.inj he
    exact KeyVersion.length_of_toBytes hto

/-- `decode` for the kind of the version gives back what `encode` wrote, with no nonce in place of
an empty one. -/
theorem decode_written (h : envelope.encode = .ok bytes)
    (hkind : ∀ version ∈ envelope.version, version.kind = options.kind)
    (hallow : ∀ nonce ∈ envelope.nonce, nonce ≠ [] → options.allowNonce = true) :
    decode options bytes = .ok { envelope with nonce := writtenNonce envelope.nonce } := by
  obtain ⟨-, raw, hraw, -⟩ := encode_eq_ok_iff.mp h
  have hplace : (writtenNonce envelope.nonce).isSome → options.allowNonce = true := by
    intro hsome
    obtain ⟨nonce, hn⟩ := Option.isSome_iff_exists.mp hsome
    obtain ⟨hmem, hne⟩ := Option.filter_eq_some_iff.mp hn
    exact hallow nonce hmem (of_decide_eq_true hne)
  rw [decode_of_encode h hplace, reread_of_kind_eq hraw hkind]
  rfl

/-- `encode` fails exactly for a label of more than 255 bytes, or else for a nonce of more than 255
bytes. What it writes is `wireLength` bytes long, and `decode` gives the envelope back, with no
nonce in place of an empty one. -/
theorem round_trip (envelope : Envelope) :
    (∀ e, envelope.encode = .error e ↔
      (∃ text, envelope.version = some (.label text) ∧ 255 < (utf8 text).length ∧
        e = .versionTooLong (utf8 text).length 255) ∨
      (LabelFits envelope.version ∧ ∃ nonce, envelope.nonce = some nonce ∧ 255 < nonce.length ∧
        e = .nonceTooLong nonce.length 255)) ∧
    (LabelFits envelope.version → (∀ nonce ∈ envelope.nonce, nonce.length ≤ 255) →
      ∃ raw bytes, versionBytes envelope.version = .ok raw ∧ envelope.encode = .ok bytes ∧
        bytes = versionFirst raw (writtenNonce envelope.nonce) envelope.payload ∧
        (∀ value, raw = some value ∨ writtenNonce envelope.nonce = some value →
          (UInt8.ofNat value.length).toNat = value.length) ∧
        bytes.length = wireLength raw (writtenNonce envelope.nonce) envelope.payload ∧
        ∀ options : Dialect, (∀ version ∈ envelope.version, version.kind = options.kind) →
          (∀ nonce ∈ envelope.nonce, nonce ≠ [] → options.allowNonce = true) →
          decode options bytes = .ok { envelope with nonce := writtenNonce envelope.nonce }) := by
  refine ⟨fun e => encode_eq_error_iff, fun hlabel hnonce => ?_⟩
  obtain ⟨raw, hraw⟩ := exists_versionBytes_iff.mpr hlabel
  have hencode : envelope.encode = .ok _ :=
    encode_eq_ok_iff_versionFirst.mpr ⟨hnonce, raw, hraw, rfl⟩
  refine ⟨raw, _, hraw, hencode, rfl, ?_, length_versionFirst _ _ _, fun options hkind hallow =>
    decode_written hencode hkind hallow⟩
  rintro value (rfl | hwritten)
  · exact toNat_ofNat_of_le (length_of_versionBytes hraw)
  · exact toNat_ofNat_of_le (length_of_writtenNonce hnonce hwritten)

/-! ## Other accepted forms -/

theorem writtenNonce_of_ne {nonce : Option Bytes} (h : nonce ≠ some []) :
    writtenNonce nonce = nonce := by
  cases nonce with
  | none => rfl
  | some nonce => exact writtenNonce_some fun he => h (by rw [he])

/-- The bytes are those of the envelope with both entries and the nonce entry first. -/
def NonceLeads (envelope : Envelope) (bytes : Bytes) : Prop :=
  ∃ raw nonce, versionBytes envelope.version = .ok (some raw) ∧ envelope.nonce = some nonce ∧
    bytes = nonceFirst (some raw) (some nonce) envelope.payload

/-- What is read is what is written, up to the order of the entries and an empty nonce. -/
theorem exists_orders_of_decode (h : decode options bytes = .ok envelope) :
    ∃ raw, versionBytes envelope.version = .ok raw ∧
      envelope.encode = .ok (versionFirst raw (writtenNonce envelope.nonce) envelope.payload) ∧
      (bytes = versionFirst raw envelope.nonce envelope.payload ∨ envelope.NonceLeads bytes) := by
  obtain ⟨hfits, raw, hraw, horder⟩ := decode_eq_ok_iff.mp h
  refine ⟨raw, hraw, encode_eq_ok_iff_versionFirst.mpr
    ⟨fun nonce hn => (hfits.nonce_fits nonce hn).2, raw, hraw, rfl⟩, ?_⟩
  rcases horder with hversion | hnonce
  · exact .inl hversion
  · have hbytes : bytes = nonceFirst raw envelope.nonce envelope.payload := hnonce
    -- without one of the entries both orders are the same
    cases raw with
    | none => exact .inl (hbytes.trans (nonceFirst_none_left _ _))
    | some raw =>
      cases hn : envelope.nonce with
      | none =>
        rw [hn] at hbytes
        exact .inl (hbytes.trans (nonceFirst_none_right _ _))
      | some nonce =>
        rw [hn] at hbytes
        exact .inr ⟨raw, nonce, hraw, hn, hbytes⟩

/-- An envelope that was read with an empty nonce is written two bytes shorter. -/
theorem length_add_two_of_decode (h : decode options bytes = .ok envelope)
    (hencode : envelope.encode = .ok canonical) (hempty : envelope.nonce = some []) :
    canonical.length + 2 = bytes.length := by
  obtain ⟨raw, hraw, hencode', horder⟩ := exists_orders_of_decode h
  obtain rfl := Except.ok.inj (hencode.symm.trans hencode')
  have hlength : bytes.length = wireLength raw (some []) envelope.payload := by
    rcases horder with rfl | ⟨raw', nonce, hraw', hnonce, rfl⟩
    · rw [length_versionFirst, hempty]
    · obtain rfl := Except.ok.inj (hraw.symm.trans hraw')
      obtain rfl := Option.some.inj (hempty.symm.trans hnonce)
      rw [← (perm_nonceFirst _ _ _).length_eq, length_versionFirst]
  rw [hlength, length_versionFirst, hempty, writtenNonce_nil]
  simp only [wireLength, entryLength, List.length_nil]
  omega

/-- `encode` of an envelope that was read gives other bytes exactly if the nonce entry came first or
was empty. -/
theorem ne_iff_of_decode (h : decode options bytes = .ok envelope)
    (hencode : envelope.encode = .ok canonical) :
    canonical ≠ bytes ↔ envelope.NonceLeads bytes ∨ envelope.nonce = some [] := by
  obtain ⟨raw, hraw, hencode', horder⟩ := exists_orders_of_decode h
  constructor
  · intro hne
    rcases horder with rfl | hleads
    · right
      apply Decidable.byContradiction
      intro hwritten
      obtain rfl := Except.ok.inj (hencode.symm.trans hencode')
      exact hne (by rw [writtenNonce_of_ne hwritten])
    · exact .inl hleads
  · rintro (⟨raw', nonce, hraw', -, rfl⟩ | hempty)
    · obtain rfl := Except.ok.inj (hencode.symm.trans hencode')
      obtain rfl := Except.ok.inj (hraw.symm.trans hraw')
      exact (nonceFirst_ne_versionFirst _ _ _ _).symm
    · rintro rfl
      have := length_add_two_of_decode h hencode hempty
      omega

/-- `encode` writes every envelope that `decode` reads, and `decode` gives it back from those bytes,
with no nonce in place of an empty one. The bytes differ from those that were read exactly if these
have the nonce entry before the version entry, or an empty nonce. Where nonces are not allowed they
never differ. -/
theorem canonical_form (options : Dialect) (bytes : Bytes) :
    (∀ envelope, decode options bytes = .ok envelope → ∃ canonical,
      envelope.encode = .ok canonical ∧
      decode options canonical = .ok { envelope with nonce := writtenNonce envelope.nonce } ∧
      (canonical ≠ bytes ↔ envelope.NonceLeads bytes ∨ envelope.nonce = some []) ∧
      (canonical ≠ bytes → options.allowNonce = true) ∧
      (envelope.NonceLeads bytes → ∃ raw nonce,
        bytes = nonceFirst (some raw) (some nonce) envelope.payload ∧
        canonical = versionFirst (some raw) (writtenNonce (some nonce)) envelope.payload ∧
        (nonce ≠ [] → canonical.Perm bytes)) ∧
      (envelope.nonce = some [] → canonical.length + 2 = bytes.length)) ∧
    (options.allowNonce = false →
      ((∃ envelope, decode options bytes = .ok envelope) ↔
        ∃ version payload, (∀ v ∈ version, v.kind = options.kind) ∧
          Envelope.encode ⟨version, none, payload⟩ = .ok bytes) ∧
      ∀ envelope bytes', decode options bytes = .ok envelope →
        decode options bytes' = .ok envelope →
        bytes' = bytes) := by
  constructor
  · intro envelope h
    obtain ⟨hfits, -⟩ := decode_eq_ok_iff.mp h
    obtain ⟨raw, hraw, hencode, -⟩ := exists_orders_of_decode h
    refine ⟨_, hencode,
      decode_written hencode hfits.kind_eq fun nonce hn _ => (hfits.nonce_fits nonce hn).1,
      ne_iff_of_decode h hencode, ?_, ?_, length_add_two_of_decode h hencode⟩
    · intro hne
      rcases (ne_iff_of_decode h hencode).mp hne with ⟨_, nonce, -, hnonce, -⟩ | hempty
      · exact (hfits.nonce_fits nonce hnonce).1
      · exact (hfits.nonce_fits [] hempty).1
    · rintro ⟨raw', nonce, hraw', hnonce, rfl⟩
      obtain rfl := Except.ok.inj (hraw.symm.trans hraw')
      refine ⟨raw', nonce, rfl, by rw [hnonce], fun hne => ?_⟩
      rw [hnonce, writtenNonce_some hne]
      exact perm_nonceFirst _ _ _
  · intro hno
    constructor
    · simp only [decode_eq_ok_iff_encode hno]
      constructor
      · rintro ⟨⟨version, _, payload⟩, rfl, hkind, hencode⟩
        exact ⟨version, payload, hkind, hencode⟩
      · rintro ⟨version, payload, hkind, hencode⟩
        exact ⟨⟨version, none, payload⟩, rfl, hkind, hencode⟩
    · intro envelope bytes' h h'
      obtain ⟨-, -, hencode⟩ := (decode_eq_ok_iff_encode hno).mp h
      obtain ⟨-, -, hencode'⟩ := (decode_eq_ok_iff_encode hno).mp h'
      exact Except.ok.inj (hencode'.symm.trans hencode)

end SealedToken.Envelope
