import SealedToken.Proofs.Envelope.Grammar

/-!
# The turns of the reader

`Scan.step` takes three turns for an entry, over its tag, its length and its value, and a second
entry of one tag is an error. So there are at most nine turns, however long the input is.

* `Scan.Advances`: one rule for each phase of a turn that goes on. `Scan.step_eq_next_iff`: they are
  those of `Scan.step`.
* `Scan.Reached`: the states that the reader comes to, with the number of turns before them.
* `Scan.Sound`: the invariant of these states. `Scan.Sound.advances`: a turn keeps it;
  `Scan.Reached.sound`: it holds of all of them, by induction.
* `Scan.Reached.exists_end`: the turns end, with the outcome of `Scan.run`.
* `Envelope.decode_within_bounds`: reading stays within the bytes and ends after at most nine turns.
-/

namespace SealedToken

namespace Scan

/-- The step of `Scan.step` to a next state, one rule for each phase. -/
inductive Advances (bytes : Bytes) (options : Dialect) (scan : Scan) : Scan → Prop where
  /-- the terminal tag leads to the payload -/
  | terminal (hphase : scan.phase = .expectTag)
    (hbyte : bytes[scan.pos]? = some EntryTag.terminal.code) :
    Advances bytes options scan { scan with phase := .terminal, pos := scan.pos + 1 }
  /-- any other tag of the dialect leads to its length byte -/
  | tag {tag : EntryTag} (hphase : scan.phase = .expectTag) (hplace : options.Allows tag)
    (hbyte : bytes[scan.pos]? = some tag.code) :
    Advances bytes options scan { scan with phase := .readLength tag, pos := scan.pos + 1 }
  /-- the length byte leads to the value -/
  | length {tag : EntryTag} {byte : UInt8} (hphase : scan.phase = .readLength tag)
    (hbyte : bytes[scan.pos]? = some byte) :
    Advances bytes options scan
      { scan with phase := .readValue tag byte.toNat, pos := scan.pos + 1 }
  /-- a value that `record` takes leads to the next tag -/
  | value {tag : EntryTag} {length : Nat} {found : Found}
    (hphase : scan.phase = .readValue tag length)
    (hcomplete : length ≤ bytes.length - scan.pos)
    (hrecord : (Found.mk scan.version scan.nonce).record options tag
      ((bytes.drop scan.pos).take length) = .ok found) :
    Advances bytes options scan (found.scan (scan.pos + length))

/-- The states that `Scan.step` reaches from `Scan.start`, with the number of steps. -/
inductive Reached (bytes : Bytes) (options : Dialect) : (turns : Nat) → Scan → Prop where
  | start : Reached bytes options 0 Scan.start
  | next {turns : Nat} {scan next : Scan} (hreached : Reached bytes options turns scan)
    (hstep : scan.step bytes options = .ok (.next next)) : Reached bytes options (turns + 1) next

/-- The number of entries read. -/
def entries (scan : Scan) : Nat := scan.version.toList.length + scan.nonce.toList.length

end Scan

/-- The number of steps over the current entry before the phase. -/
def Phase.turns : Phase → Nat
  | .expectTag => 0
  | .readLength _ => 1
  | .readValue _ _ => 2
  | .terminal => 1

/-- The number of entries that an envelope of the dialect can have. -/
def Dialect.maxEntries (options : Dialect) : Nat := if options.allowNonce then 2 else 1

/-- The number of turns that reading takes at most: three for each entry, and for one too many. -/
def Dialect.maxTurns (options : Dialect) : Nat := 3 * (options.maxEntries + 1)

theorem Dialect.maxTurns_eq (options : Dialect) :
    options.maxTurns = if options.allowNonce then 9 else 6 := by
  rw [maxTurns, maxEntries]
  split <;> rfl

namespace Scan

variable {bytes : Bytes} {options : Dialect} {scan next : Scan} {turns : Nat}

/-- The invariant of the states that are reached after `turns` steps. -/
structure Sound (bytes : Bytes) (options : Dialect) (turns : Nat) (scan : Scan) : Prop where
  pos_le : scan.pos ≤ bytes.length
  length_allowed : ∀ tag, scan.phase = .readLength tag → options.Allows tag
  value_allowed : ∀ tag length, scan.phase = .readValue tag length →
    options.Allows tag ∧ length ≤ 255
  nonce_slice : ∀ nonce ∈ scan.nonce, options.allowNonce = true ∧ nonce <:+: bytes
  turns_eq : turns = 3 * scan.entries + scan.phase.turns

/-! ## Turns -/

theorem Advances.step_eq (h : scan.Advances bytes options next) :
    scan.step bytes options = .ok (.next next) := by
  obtain ⟨phase, pos, version, nonce⟩ := scan
  cases h with
  | terminal hphase hbyte =>
    cases hphase
    show (Found.scan ⟨version, nonce⟩ pos).step bytes options = _
    rw [step_expectTag hbyte]
    rfl
  | tag hphase hplace hbyte =>
    cases hphase
    show (Found.scan ⟨version, nonce⟩ pos).step bytes options = _
    rw [step_expectTag hbyte, phaseAfterTag_of_tag? (Dialect.tag?_code hplace) hplace.ne_terminal]
    rfl
  | length hphase hbyte => exact step_readLength hphase hbyte
  | value hphase hcomplete hrecord =>
    rw [step_readValue hphase rfl, List.length_drop, if_pos hcomplete, hrecord]
    rfl

theorem advances_of_step (h : scan.step bytes options = .ok (.next next)) :
    scan.Advances bytes options next := by
  obtain ⟨phase, pos, version, nonce⟩ := scan
  cases phase with
  | expectTag =>
    cases hbyte : bytes[pos]? with
    | none => simp [step, hbyte] at h
    | some byte =>
      have hstep : (Found.scan ⟨version, nonce⟩ pos).step bytes options = .ok (.next next) := h
      rw [step_expectTag hbyte, phaseAfterTag_eq] at hstep
      cases htag : options.tag? byte with
      | none => rw [htag] at hstep; cases hstep
      | some tag =>
        obtain ⟨rfl, -⟩ := Dialect.tag?_eq_some_iff.mp htag
        rw [htag] at hstep
        cases tag with
        | terminal => cases hstep; exact .terminal rfl hbyte
        | version => cases hstep; exact .tag rfl trivial hbyte
        | nonce => cases hstep; exact .tag rfl (Dialect.allows_of_tag? htag (by decide)) hbyte
  | readLength tag =>
    cases hbyte : bytes[pos]? with
    | none => simp [step, hbyte] at h
    | some byte =>
      rw [step_readLength rfl hbyte] at h
      cases h
      exact .length rfl hbyte
  | readValue tag length =>
    rw [step_readValue rfl rfl, List.length_drop] at h
    by_cases hcomplete : length ≤ bytes.length - pos
    · rw [if_pos hcomplete, map_eq_ok_iff] at h
      obtain ⟨found, hrecord, he⟩ := h
      cases he
      exact .value rfl hcomplete hrecord
    · rw [if_neg hcomplete] at h
      cases h
  | terminal => cases h

theorem step_eq_next_iff :
    scan.step bytes options = .ok (.next next) ↔ scan.Advances bytes options next :=
  ⟨advances_of_step, Advances.step_eq⟩

/-- `Scan.step` finishes only after the terminal tag, with the remaining bytes as the payload. -/
theorem step_eq_finished {envelope : Envelope}
    (h : scan.step bytes options = .ok (.finished envelope)) :
    scan.phase = .terminal ∧ envelope = ⟨scan.version, scan.nonce, bytes.drop scan.pos⟩ := by
  obtain ⟨phase, pos, version, nonce⟩ := scan
  cases phase with
  | expectTag =>
    cases hbyte : bytes[pos]? with
    | none => simp [step, hbyte] at h
    | some byte =>
      have hstep : (Found.scan ⟨version, nonce⟩ pos).step bytes options =
        .ok (.finished envelope) := h
      rw [step_expectTag hbyte, map_eq_ok_iff] at hstep
      obtain ⟨_, -, he⟩ := hstep
      cases he
  | readLength tag =>
    cases hbyte : bytes[pos]? with
    | none => simp [step, hbyte] at h
    | some byte =>
      rw [step_readLength rfl hbyte] at h
      cases h
  | readValue tag length =>
    rw [step_readValue rfl rfl] at h
    split at h
    · rw [map_eq_ok_iff] at h
      obtain ⟨_, -, he⟩ := h
      cases he
    · cases h
  | terminal =>
    cases h
    exact ⟨rfl, rfl⟩

/-- `record` adds one entry. -/
theorem entries_of_record {found : Found} {tag : EntryTag} {value : Bytes} {pos : Nat}
    (h : (Found.mk scan.version scan.nonce).record options tag value = .ok found) :
    (found.scan pos).entries = scan.entries + 1 := by
  rcases Found.record_eq_ok_iff.mp h with ⟨-, hnone, version, -, rfl⟩ | ⟨-, hnone, rfl⟩
  · simp only at hnone
    simp [entries, Found.scan, hnone, Nat.add_comm]
  · simp only at hnone
    simp [entries, Found.scan, hnone]

theorem sound_start : Sound bytes options 0 start where
  pos_le := Nat.zero_le _
  length_allowed := nofun
  value_allowed := nofun
  nonce_slice := nofun
  turns_eq := rfl

theorem pos_lt {pos : Nat} {byte : UInt8} (h : bytes[pos]? = some byte) : pos < bytes.length :=
  (List.getElem?_eq_some_iff.mp h).1

/-- A step keeps the invariant. -/
theorem Sound.advances (h : Sound bytes options turns scan)
    (hnext : scan.Advances bytes options next) :
    Sound bytes options (turns + 1) next := by
  obtain ⟨hpos, hlength, hvalue, hnonce, hturns⟩ := h
  cases hnext with
  | terminal hphase hbyte =>
    refine ⟨pos_lt hbyte, nofun, nofun, hnonce, ?_⟩
    rw [hturns, hphase]
    rfl
  | tag hphase hplace hbyte =>
    refine ⟨pos_lt hbyte, ?_, nofun, hnonce, ?_⟩
    · rintro _ ⟨⟩
      exact hplace
    · rw [hturns, hphase]
      rfl
  | @length tag byte hphase hbyte =>
    refine ⟨pos_lt hbyte, nofun, ?_, hnonce, ?_⟩
    · rintro _ _ ⟨⟩
      exact ⟨hlength tag hphase, Nat.le_of_lt_succ byte.toNat_lt⟩
    · rw [hturns, hphase]
      rfl
  | @value tag length found hphase hcomplete hrecord =>
    have hend : scan.pos + length ≤ bytes.length := by omega
    refine ⟨hend, nofun, nofun, ?_, ?_⟩
    · rcases Found.record_eq_ok_iff.mp hrecord with ⟨-, -, version, -, rfl⟩ | ⟨rfl, -, rfl⟩
      · exact hnonce
      · rintro _ ⟨⟩
        exact ⟨(hvalue _ _ hphase).1,
          (List.take_prefix _ _).isInfix.trans (List.drop_suffix _ _).isInfix⟩
    · rw [hturns, hphase, entries_of_record hrecord]
      rfl

/-- Every state that is reached satisfies the invariant. -/
theorem Reached.sound (h : Reached bytes options turns scan) : Sound bytes options turns scan := by
  induction h with
  | start => exact sound_start
  | next hreached hstep ih => exact ih.advances (step_eq_next_iff.mp hstep)

/-! ## The number of turns -/

/-- There is at most one entry of each tag. -/
theorem Sound.entries_le (h : Sound bytes options turns scan) :
    scan.entries ≤ options.maxEntries := by
  have hversion : scan.version.toList.length ≤ 1 := by
    cases scan.version <;> simp
  have hnonce : scan.nonce.toList.length ≤ 1 := by
    cases scan.nonce <;> simp
  rw [entries, Dialect.maxEntries]
  split
  · omega
  · next hallow =>
    cases hfound : scan.nonce with
    | none => exact hversion
    | some nonce => exact absurd (h.nonce_slice nonce hfound).1 hallow

theorem Sound.turns_lt (h : Sound bytes options turns scan) : turns < options.maxTurns := by
  have hentries := h.entries_le
  have hphase : scan.phase.turns < 3 := by
    cases scan.phase <;> simp [Phase.turns]
  rw [h.turns_eq, Dialect.maxTurns]
  omega

/-- `Scan.run` from a state that is reached gives what `Envelope.decode` gives. -/
theorem Reached.run_eq (h : Reached bytes options turns scan) :
    scan.run bytes options = Envelope.decode options bytes := by
  induction h with
  | start => rfl
  | next hreached hstep ih => rw [← ih, run_of_next hstep]

/-- When all entries have been read, the step at one more value fails. -/
theorem Reached.exists_error {tag : EntryTag} {length : Nat} (h : Reached bytes options turns scan)
    (hphase : scan.phase = .readValue tag length) (hfull : scan.entries = options.maxEntries) :
    ∃ e, scan.step bytes options = .error e := by
  cases hstep : scan.step bytes options with
  | error e => exact ⟨e, rfl⟩
  | ok turn =>
    cases turn with
    | next next =>
      have hentries := (h.next hstep).sound.entries_le
      cases step_eq_next_iff.mp hstep with
      | value hphase' hcomplete hrecord =>
        rw [entries_of_record hrecord] at hentries
        omega
      | terminal hphase' | tag hphase' | length hphase' =>
        rw [hphase] at hphase'
        cases hphase'
    | finished envelope =>
      have hlast := (step_eq_finished hstep).1
      rw [hphase] at hlast
      cases hlast

/-- `scan.Ends bytes options outcome`: `Scan.step` ends at `scan` with that outcome. -/
inductive Ends (bytes : Bytes) (options : Dialect) (scan : Scan) :
    Except EnvelopeError Envelope → Prop where
  | finished {envelope : Envelope} (hstep : scan.step bytes options = .ok (.finished envelope)) :
    Ends bytes options scan (.ok envelope)
  | error {e : EnvelopeError} (hstep : scan.step bytes options = .error e) :
    Ends bytes options scan (.error e)

/-- From every state that is reached, steps lead to one that ends with the outcome of
`Envelope.decode`. -/
theorem Reached.exists_end (h : Reached bytes options turns scan) :
    ∃ turns' last, Reached bytes options turns' last ∧
      last.Ends bytes options (Envelope.decode options bytes) := by
  -- the bound on the turns that are left falls with each turn
  induction hleft : options.maxTurns - turns generalizing turns scan with
  | zero =>
    have hlt := h.sound.turns_lt
    omega
  | succ left ih =>
    cases hstep : scan.step bytes options with
    | error e =>
      refine ⟨turns, scan, h, ?_⟩
      rw [← h.run_eq, run_of_error hstep]
      exact .error hstep
    | ok turn =>
      cases turn with
      | finished envelope =>
        refine ⟨turns, scan, h, ?_⟩
        rw [← h.run_eq, run_of_finished hstep]
        exact .finished hstep
      | next next => exact ih (h.next hstep) (by omega)

end Scan

namespace Envelope

variable {options : Dialect} {bytes : Bytes}

/-- `decode` never reports the terminal tag as unexpected. -/
theorem decode_ne_unexpected_terminal :
    decode options bytes ≠ .error (.unexpectedTag EntryTag.terminal.code) := by
  obtain ⟨row, rest, hcut⟩ := exists_isCut options bytes
  obtain ⟨result, hending⟩ := hcut.exists_ending
  rw [decode_of_isCut hcut hending]
  rintro rfl
  cases hending with
  | unexpectedTag tail hterminal hplace => exact hterminal rfl

theorem slices_of_decode {envelope : Envelope} (h : decode options bytes = .ok envelope) :
    (∀ nonce ∈ envelope.nonce, nonce <:+: bytes) ∧ envelope.payload <:+ bytes := by
  obtain ⟨turns, last, hreached, hends⟩ :=
    (Scan.Reached.start : Scan.Reached bytes options 0 Scan.start).exists_end
  rw [h] at hends
  cases hends with
  | finished hstep =>
    obtain ⟨-, rfl⟩ := Scan.step_eq_finished hstep
    exact ⟨fun nonce hnonce => (hreached.sound.nonce_slice nonce hnonce).2, List.drop_suffix _ _⟩

/-- In every state that `Scan.step` reaches, the position is at most the number of bytes, and the
end of a value at most 255 more. No length or value is read for the terminal tag, and none for the
nonce tag where nonces are not allowed, so no value is ever refused for its tag. `Scan.step` ends
with the outcome of `Envelope.decode` in its ninth step at the latest, or in its sixth where nonces
are not allowed, because a value after an entry of each tag is an error. The nonce and the payload
are slices of the bytes. -/
theorem decode_within_bounds (options : Dialect) (bytes : Bytes) :
    (∀ turns scan, Scan.Reached bytes options turns scan →
      scan.pos ≤ bytes.length ∧
      (∀ tag, scan.phase = .readLength tag →
        tag ≠ .terminal ∧ (tag = .nonce → options.allowNonce = true)) ∧
      (∀ tag length, scan.phase = .readValue tag length →
        tag ≠ .terminal ∧ (tag = .nonce → options.allowNonce = true) ∧
        scan.pos + length ≤ bytes.length + 255 ∧
        (scan.entries = options.maxEntries → ∃ e, scan.step bytes options = .error e)) ∧
      scan.step bytes options ≠ .error (.unexpectedTag EntryTag.terminal.code) ∧
      turns + 1 ≤ if options.allowNonce then 9 else 6) ∧
    (∃ turns scan, Scan.Reached bytes options turns scan ∧
      scan.Ends bytes options (decode options bytes)) ∧
    ∀ envelope, decode options bytes = .ok envelope →
      (∀ nonce ∈ envelope.nonce, nonce <:+: bytes) ∧ envelope.payload <:+ bytes := by
  refine ⟨fun turns scan hreached => ?_, Scan.Reached.start.exists_end,
    fun envelope => slices_of_decode⟩
  have hsound := hreached.sound
  refine ⟨hsound.pos_le, fun tag hphase => ?_, fun tag length hphase => ?_, fun hstep => ?_, ?_⟩
  · have hplace := hsound.length_allowed tag hphase
    exact ⟨hplace.ne_terminal, hplace.nonce_allowed⟩
  · obtain ⟨hplace, hlength⟩ := hsound.value_allowed tag length hphase
    have hpos := hsound.pos_le
    exact ⟨hplace.ne_terminal, hplace.nonce_allowed, by omega, hreached.exists_error hphase⟩
  · have hdecode := hreached.run_eq
    rw [Scan.run_of_error hstep] at hdecode
    exact decode_ne_unexpected_terminal hdecode.symm
  · rw [← Dialect.maxTurns_eq]
    exact hsound.turns_lt

-- an empty version, an empty nonce, and the beginning of a second version: the bound is reached
theorem decode_within_bounds_third_entry :
    Scan.Reached [1, 0, 2, 0, 1, 0] ⟨.label, true⟩ 8
      ⟨.readValue .version 0, 6, some (.label ""), some []⟩ ∧
    ∃ e, Scan.step [1, 0, 2, 0, 1, 0] ⟨.label, true⟩
      ⟨.readValue .version 0, 6, some (.label ""), some []⟩ = .error e := by
  have hversion : Scan.Reached [1, 0, 2, 0, 1, 0] ⟨.label, true⟩ 3
      ⟨.expectTag, 2, some (.label ""), none⟩ :=
    .next (.next (.next .start rfl) rfl) (by cbv)
  have hnonce : Scan.Reached [1, 0, 2, 0, 1, 0] ⟨.label, true⟩ 6
      ⟨.expectTag, 4, some (.label ""), some []⟩ :=
    .next (.next (.next hversion rfl) rfl) rfl
  have hreached : Scan.Reached [1, 0, 2, 0, 1, 0] ⟨.label, true⟩ 8
      ⟨.readValue .version 0, 6, some (.label ""), some []⟩ := .next (.next hnonce rfl) rfl
  obtain ⟨-, -, hvalue, -⟩ :=
    (decode_within_bounds ⟨.label, true⟩ [1, 0, 2, 0, 1, 0]).1 8 _ hreached
  exact ⟨hreached, (hvalue .version 0 rfl).2.2.2 rfl⟩

end Envelope

end SealedToken
