import SealedToken.Envelope.Basic
import SealedToken.Envelope.Scan
import SealedToken.Proofs.Envelope.KeyVersion
import SealedToken.Proofs.Outcome

/-!
# Envelopes as rows of entries

`Scan.run` moves a position along one byte string. `Found.read` is the same as a recursion over the
bytes that are left, one entry at a time.

* `Found`: the entries found so far; `Found.record` adds one, `Found.read` reads all that follow.
* `Scan.run_eq_read`: `Scan.run` from a state before a tag is `Found.read` of the rest.
* `Found.read_eq_ok_iff`: accepted bytes start with the terminal entry, or with another entry that
  can be recorded and accepted bytes after it.
-/

namespace SealedToken

/-- A length of at most 255 is kept by its length byte. -/
theorem toNat_ofNat_of_le {n : Nat} (h : n ≤ 255) : (UInt8.ofNat n).toNat = n := by
  rw [UInt8.toNat_ofNat', Nat.mod_eq_of_lt (by omega)]

/-- The kind of entry behind a tag byte, if it has a place. -/
def Dialect.tag? (options : Dialect) (byte : UInt8) : Option EntryTag :=
  match EntryTag.ofCode? byte with
  | some .nonce => if options.allowNonce then some .nonce else none
  | tag => tag

/-- The version and the nonce entries read so far. -/
structure Found where
  version : Option KeyVersion := none
  nonce : Option Bytes := none
deriving DecidableEq, Repr

namespace Found

/-- The entries with one more, unless its tag was seen before or its value cannot be read. -/
def record (options : Dialect) (found : Found) (tag : EntryTag) (value : Bytes) :
    Except EnvelopeError Found :=
  match tag with
  | .version =>
    if found.version.isSome then .error (.duplicateEntry .version)
    else (KeyVersion.ofBytes options.kind value).map fun version =>
      { found with version := some version }
  | .nonce =>
    if found.nonce.isSome then .error (.duplicateEntry .nonce)
    else .ok { found with nonce := some value }
  | .terminal => .error (.unexpectedTag EntryTag.terminal.code)

/-- The envelope with the given entries that `rest` completes. -/
def read (options : Dialect) (found : Found) : (rest : Bytes) → Except EnvelopeError Envelope
  | [] => .error .missingTerminal
  | byte :: rest =>
    match options.tag? byte with
    | none => .error (.unexpectedTag byte)
    | some .terminal => .ok ⟨found.version, found.nonce, rest⟩
    | some tag =>
      match rest with
      | [] => .error (.truncated tag)
      | length :: rest =>
        if length.toNat ≤ rest.length then do
          let found ← found.record options tag (rest.take length.toNat)
          found.read options (rest.drop length.toNat)
        else .error (.lengthOutOfRange tag length.toNat rest.length)
termination_by rest => rest.length
decreasing_by simp only [List.length_cons, List.length_drop]; omega

/-- The state of the reader at a tag position, with these entries read. -/
def scan (found : Found) (pos : Nat) : Scan := ⟨.expectTag, pos, found.version, found.nonce⟩

end Found

/-! ## The reader and the recursion -/

/-- `tag?` gives a tag for its code, but not the nonce tag where nonces are not allowed. -/
theorem Dialect.tag?_eq_some_iff {options : Dialect} {byte : UInt8} {tag : EntryTag} :
    options.tag? byte = some tag ↔ byte = tag.code ∧ (tag = .nonce → options.allowNonce) := by
  rw [← EntryTag.ofCode?_eq_some_iff, tag?]
  cases EntryTag.ofCode? byte with
  | none => simp
  | some found => cases found <;> cases tag <;> simp

namespace Scan

variable {bytes : Bytes} {options : Dialect} {scan : Scan}

theorem run_of_next {next : Scan} (h : scan.step bytes options = .ok (.next next)) :
    scan.run bytes options = next.run bytes options := by
  rw [run]
  split <;> simp_all

theorem run_of_finished {envelope : Envelope}
    (h : scan.step bytes options = .ok (.finished envelope)) :
    scan.run bytes options = .ok envelope := by
  rw [run]
  split <;> simp_all

theorem run_of_error {e : EnvelopeError} (h : scan.step bytes options = .error e) :
    scan.run bytes options = .error e := by
  rw [run]
  split <;> simp_all

theorem phaseAfterTag_eq (options : Dialect) (byte : UInt8) :
    phaseAfterTag options byte =
      match options.tag? byte with
      | none => .error (.unexpectedTag byte)
      | some .terminal => .ok .terminal
      | some tag => .ok (.readLength tag) := by
  rw [phaseAfterTag, Dialect.tag?]
  cases EntryTag.ofCode? byte with
  | none => rfl
  | some tag => cases tag <;> cases options.allowNonce <;> rfl

theorem phaseAfterTag_of_tag? {byte : UInt8} {tag : EntryTag} (h : options.tag? byte = some tag)
    (hne : tag ≠ .terminal) : phaseAfterTag options byte = .ok (.readLength tag) := by
  rw [phaseAfterTag_eq, h]
  cases tag with
  | terminal => exact absurd rfl hne
  | version => rfl
  | nonce => rfl

theorem record_eq (options : Dialect) (scan : Scan) (tag : EntryTag) (value : Bytes) (pos : Nat) :
    scan.record options tag value pos =
      ((Found.mk scan.version scan.nonce).record options tag value).map (·.scan pos) := by
  cases tag with
  | terminal => rfl
  | version =>
    rw [record, Found.record]
    split
    · rfl
    · cases KeyVersion.ofBytes options.kind value <;> rfl
  | nonce =>
    rw [record, Found.record]
    split <;> rfl

/-- The byte at a position, and the bytes after it. -/
theorem drop_eq_cons {bytes rest : Bytes} {pos : Nat} {byte : UInt8}
    (h : bytes.drop pos = byte :: rest) :
    bytes[pos]? = some byte ∧ bytes.drop (pos + 1) = rest := by
  constructor
  · rw [← List.head?_drop, h, List.head?_cons]
  · rw [← List.tail_drop, h, List.tail_cons]

theorem getElem?_of_drop_eq_nil {pos : Nat} (h : bytes.drop pos = []) : bytes[pos]? = none := by
  rw [← List.head?_drop, h, List.head?_nil]

/-- `Scan.step` at a tag byte. -/
theorem step_expectTag {found : Found} {pos : Nat} {byte : UInt8} (h : bytes[pos]? = some byte) :
    (found.scan pos).step bytes options =
      (phaseAfterTag options byte).map fun phase =>
        .next { found.scan pos with phase, pos := pos + 1 } := by
  rw [step, Found.scan]
  dsimp only
  rw [h]
  dsimp only
  cases phaseAfterTag options byte <;> rfl

/-- `Scan.step` at a length byte. -/
theorem step_readLength {tag : EntryTag} {byte : UInt8} (hphase : scan.phase = .readLength tag)
    (h : bytes[scan.pos]? = some byte) :
    scan.step bytes options =
      .ok (.next { scan with phase := .readValue tag byte.toNat, pos := scan.pos + 1 }) := by
  rw [step, hphase]
  dsimp only
  rw [h]

/-- `Scan.step` at a value, with the bytes from its position on as `rest`. -/
theorem step_readValue {scan : Scan} {tag : EntryTag} {length : Nat} {rest : Bytes}
    (hphase : scan.phase = .readValue tag length) (hrest : bytes.drop scan.pos = rest) :
    scan.step bytes options =
      if length ≤ rest.length then
        ((Found.mk scan.version scan.nonce).record options tag (rest.take length)).map
          fun found => .next (found.scan (scan.pos + length))
      else .error (.lengthOutOfRange tag length rest.length) := by
  have hlen : bytes.length - scan.pos = rest.length := by rw [← hrest, List.length_drop]
  rw [step, hphase]
  dsimp only
  rw [hlen, hrest, record_eq]
  split
  · cases (Found.mk scan.version scan.nonce).record options tag (rest.take length) <;> rfl
  · rfl

/-- Two steps lead over a tag and a length byte to the value. -/
theorem run_eq_run_readValue {found : Found} {pos : Nat} {byte length : UInt8} {rest : Bytes}
    {tag : EntryTag} (hrest : bytes.drop pos = byte :: length :: rest)
    (htag : options.tag? byte = some tag) (hne : tag ≠ .terminal) :
    (found.scan pos).run bytes options =
      run bytes options ⟨.readValue tag length.toNat, pos + 1 + 1, found.version, found.nonce⟩ := by
  obtain ⟨hbyte, hdrop⟩ := drop_eq_cons hrest
  obtain ⟨hlength, -⟩ := drop_eq_cons hdrop
  rw [run_of_next (by rw [step_expectTag hbyte, phaseAfterTag_of_tag? htag hne]; rfl),
    run_of_next (step_readLength rfl hlength)]
  rfl

/-- `Scan.run` from a tag position equals `Found.read` on the bytes from there on. -/
theorem run_eq_read (bytes : Bytes) (options : Dialect) (found : Found) (pos : Nat) :
    (found.scan pos).run bytes options = found.read options (bytes.drop pos) := by
  generalize hrest : bytes.drop pos = rest
  -- an entry of the recursion is three turns of the reader: over the tag, the length and the value
  fun_induction Found.read options found rest generalizing pos with
  | case1 found =>
    apply run_of_error
    rw [step, Found.scan]
    dsimp only
    rw [getElem?_of_drop_eq_nil hrest]
  | case2 found byte rest htag =>
    obtain ⟨hbyte, -⟩ := drop_eq_cons hrest
    apply run_of_error
    rw [step_expectTag hbyte, phaseAfterTag_eq, htag]
    rfl
  | case3 found byte rest htag =>
    obtain ⟨hbyte, hdrop⟩ := drop_eq_cons hrest
    have hnext : (found.scan pos).step bytes options =
        .ok (.next { found.scan pos with phase := .terminal, pos := pos + 1 }) := by
      rw [step_expectTag hbyte, phaseAfterTag_eq, htag]
      rfl
    rw [run_of_next hnext]
    apply run_of_finished
    rw [← hdrop]
    rfl
  | case4 found byte tag hne htag =>
    obtain ⟨hbyte, hdrop⟩ := drop_eq_cons hrest
    rw [run_of_next (by rw [step_expectTag hbyte, phaseAfterTag_of_tag? htag hne]; rfl)]
    apply run_of_error
    rw [step]
    dsimp only
    rw [getElem?_of_drop_eq_nil hdrop]
  | case5 found byte tag hne htag length rest hle ih =>
    obtain ⟨-, hvalue⟩ := drop_eq_cons (drop_eq_cons hrest).2
    have hstep : step bytes options
        ⟨.readValue tag length.toNat, pos + 1 + 1, found.version, found.nonce⟩ = _ :=
      step_readValue rfl hvalue
    rw [if_pos hle] at hstep
    rw [run_eq_run_readValue hrest htag hne]
    cases hrecord : found.record options tag (rest.take length.toNat) with
    | error e =>
      rw [hrecord] at hstep
      rw [run_of_error hstep]
      rfl
    | ok next =>
      rw [hrecord] at hstep
      rw [run_of_next hstep]
      apply ih
      rw [← hvalue, List.drop_drop]
  | case6 found byte tag hne htag length rest hlt =>
    obtain ⟨-, hvalue⟩ := drop_eq_cons (drop_eq_cons hrest).2
    rw [run_eq_run_readValue hrest htag hne]
    apply run_of_error
    rw [step_readValue rfl hvalue, if_neg hlt]

end Scan

/-- `Envelope.decode` equals `Found.read` on all bytes with no entries read. -/
theorem Envelope.decode_eq_read (options : Dialect) (bytes : Bytes) :
    Envelope.decode options bytes = Found.read options {} bytes :=
  Scan.run_eq_read bytes options {} 0

/-! ## Accepted rows -/

namespace Found

variable {options : Dialect} {found next : Found}

theorem record_eq_ok_iff {tag : EntryTag} {value : Bytes} :
    found.record options tag value = .ok next ↔
      (tag = .version ∧ found.version = none ∧
        ∃ version, KeyVersion.ofBytes options.kind value = .ok version ∧
          next = { found with version := some version }) ∨
      (tag = .nonce ∧ found.nonce = none ∧ next = { found with nonce := some value }) := by
  cases tag with
  | terminal => simp [record]
  | version =>
    rw [record]
    by_cases hv : found.version = none
    · simp only [hv, Option.isSome_none, Bool.false_eq_true, ↓reduceIte, map_eq_ok_iff]
      simp [eq_comm]
    · simp [hv, Option.isSome_iff_ne_none.mpr hv]
  | nonce =>
    rw [record]
    by_cases hn : found.nonce = none
    · simp [hn, eq_comm]
    · simp [hn, Option.isSome_iff_ne_none.mpr hn]

theorem read_terminal (payload : Bytes) :
    found.read options (EntryTag.terminal.code :: payload) =
      .ok ⟨found.version, found.nonce, payload⟩ := by
  have htag : options.tag? EntryTag.terminal.code = some .terminal :=
    Dialect.tag?_eq_some_iff.mpr ⟨rfl, nofun⟩
  rw [read, htag]

theorem read_entry {tag : EntryTag} {value tail : Bytes} (hne : tag ≠ .terminal)
    (hallow : tag = .nonce → options.allowNonce) (hlen : value.length ≤ 255) :
    found.read options (Envelope.entry tag (some value) ++ tail) =
      (do (← found.record options tag value).read options tail) := by
  have htag : options.tag? tag.code = some tag := Dialect.tag?_eq_some_iff.mpr ⟨rfl, hallow⟩
  have hle : value.length ≤ (value ++ tail).length := by
    rw [List.length_append]
    omega
  rw [Envelope.entry, List.cons_append, List.cons_append, read, htag]
  split
  · next he => cases he
  · next he => exact absurd (Option.some.inj he) hne
  · next he =>
    cases he
    dsimp only
    rw [toNat_ofNat_of_le hlen, if_pos hle, List.take_left, List.drop_left]

/-- `Found.read` succeeds exactly at the terminal tag, or at an entry that can be recorded and after
which it succeeds. -/
theorem read_eq_ok_iff {rest : Bytes} {envelope : Envelope} :
    found.read options rest = .ok envelope ↔
      (rest = EntryTag.terminal.code :: envelope.payload ∧ envelope.version = found.version ∧
        envelope.nonce = found.nonce) ∨
      ∃ tag value tail next, rest = Envelope.entry tag (some value) ++ tail ∧
        (tag = .nonce → options.allowNonce) ∧ value.length ≤ 255 ∧
        found.record options tag value = .ok next ∧ next.read options tail = .ok envelope := by
  constructor
  · fun_cases Found.read options found rest with
    | case1 => exact nofun
    | case2 => exact nofun
    | case3 byte rest htag =>
      intro h
      cases h
      exact .inl ⟨by rw [(Dialect.tag?_eq_some_iff.mp htag).1], rfl, rfl⟩
    | case4 => exact nofun
    | case5 byte tag hne htag length rest hle =>
      intro h
      obtain ⟨hbyte, hallow⟩ := Dialect.tag?_eq_some_iff.mp htag
      obtain ⟨next, hrecord, hread⟩ := bind_eq_ok_iff.mp h
      have hlen : (rest.take length.toNat).length = length.toNat := by
        rw [List.length_take, Nat.min_eq_left hle]
      refine .inr ⟨tag, _, _, next, ?_, hallow, ?_, hrecord, hread⟩
      · rw [Envelope.entry, hlen, UInt8.ofNat_toNat, hbyte, List.cons_append, List.cons_append,
          List.take_append_drop]
      · have := length.toNat_lt
        omega
    | case6 => exact nofun
  · rintro (⟨rfl, hv, hn⟩ | ⟨tag, value, tail, next, rfl, hallow, hlen, hrecord, hread⟩)
    · rw [read_terminal, ← hv, ← hn]
    · have hne : tag ≠ .terminal := by
        rintro rfl
        cases hrecord
      rw [read_entry hne hallow hlen, hrecord]
      exact hread

end Found

end SealedToken
