import SealedToken.Envelope.Basic

/-!
# Reading envelopes

Reading is a machine that turns over the bytes once, from a phase that expects a tag, through its
length and value, back to a tag, until a terminal tag hands over the rest as the payload.

* `Dialect`: how versions are read, and whether a nonce has a place.
* `Scan`: the state of the machine; `Scan.step` is one turn, `Scan.run` all of them.
* `Envelope.decode`: reading from the first byte on.
* `Scan.weight_step_lt`: each turn that does not finish has fewer after it.
-/

namespace SealedToken

/-- The options of a reader of envelopes. -/
structure Dialect where
  /-- how versions are read -/
  kind : KeyVersion.Kind := .label
  /-- whether a nonce entry has a place -/
  allowNonce : Bool := false
deriving DecidableEq, Repr

/-- The phase of the machine, by what comes next: a tag, a length, a value or the payload. -/
inductive Phase where
  | expectTag
  | readLength (tag : EntryTag)
  | readValue (tag : EntryTag) (length : Nat)
  | terminal
deriving DecidableEq, Repr

/-- The state of the machine: its phase, the number of bytes read, and the entries found. -/
structure Scan where
  phase : Phase
  pos : Nat
  version : Option KeyVersion
  nonce : Option Bytes
deriving DecidableEq, Repr

/-- The result of one turn: another state, or the envelope. -/
inductive Turn where
  | next (scan : Scan)
  | finished (envelope : Envelope)
deriving DecidableEq, Repr

namespace Scan

/-- The state before the first byte. -/
def start : Scan := ⟨.expectTag, 0, none, none⟩

/-- The state after the value of an entry, which ends before `pos`. -/
def record (options : Dialect) (scan : Scan) (tag : EntryTag) (value : Bytes) (pos : Nat) :
    Except EnvelopeError Scan :=
  match tag with
  | .version =>
    if scan.version.isSome then .error (.duplicateEntry .version)
    else do
      let version ← KeyVersion.ofBytes options.kind value
      return { scan with phase := .expectTag, pos, version := some version }
  | .nonce =>
    if scan.nonce.isSome then .error (.duplicateEntry .nonce)
    else .ok { scan with phase := .expectTag, pos, nonce := some value }
  | .terminal => .error (.unexpectedTag EntryTag.terminal.code)

/-- The phase after a tag byte. -/
def phaseAfterTag (options : Dialect) (byte : UInt8) : Except EnvelopeError Phase :=
  match EntryTag.ofCode? byte with
  | some .terminal => .ok .terminal
  | some .version => .ok (.readLength .version)
  | some .nonce =>
    if options.allowNonce then .ok (.readLength .nonce) else .error (.unexpectedTag byte)
  | none => .error (.unexpectedTag byte)

/-- One turn over the bytes. -/
def step (bytes : Bytes) (options : Dialect) (scan : Scan) : Except EnvelopeError Turn :=
  match scan.phase with
  | .expectTag =>
    match bytes[scan.pos]? with
    | some byte => do
      let phase ← phaseAfterTag options byte
      return .next { scan with phase, pos := scan.pos + 1 }
    | none => .error .missingTerminal
  | .readLength tag =>
    match bytes[scan.pos]? with
    | some byte => .ok (.next { scan with phase := .readValue tag byte.toNat, pos := scan.pos + 1 })
    | none => .error (.truncated tag)
  | .readValue tag length =>
    let remaining := bytes.length - scan.pos
    if length ≤ remaining then do
      let scan ← scan.record options tag ((bytes.drop scan.pos).take length) (scan.pos + length)
      return .next scan
    else .error (.lengthOutOfRange tag length remaining)
  | .terminal => .ok (.finished ⟨scan.version, scan.nonce, bytes.drop scan.pos⟩)

/-! ## Running to the end -/

/-- A bound on the turns that are left: two for each byte, and one more for a value, which may be
empty. -/
def weight (bytes : Bytes) (scan : Scan) : Nat :=
  2 * (bytes.length - scan.pos) + match scan.phase with
    | .readValue .. => 1
    | _ => 0

theorem record_eq_ok {options : Dialect} {scan next : Scan} {tag : EntryTag} {value : Bytes}
    {pos : Nat} (h : scan.record options tag value pos = .ok next) :
    next.phase = .expectTag ∧ next.pos = pos := by
  unfold record at h
  cases tag with
  | terminal => cases h
  | version =>
    dsimp only at h
    split at h
    · cases h
    · cases hv : KeyVersion.ofBytes options.kind value with
      | error e => rw [hv] at h; cases h
      | ok v => rw [hv] at h; cases h; exact ⟨rfl, rfl⟩
  | nonce =>
    dsimp only at h
    split at h
    · cases h
    · cases h; exact ⟨rfl, rfl⟩

/-- A phase that `phaseAfterTag` gives is one of the start of an entry. -/
theorem phaseAfterTag_eq_ok {options : Dialect} {byte : UInt8} {phase : Phase}
    (h : phaseAfterTag options byte = .ok phase) :
    phase = .terminal ∨ phase = .readLength .version ∨ phase = .readLength .nonce := by
  unfold phaseAfterTag at h
  split at h
  · cases h; exact .inl rfl
  · cases h; exact .inr (.inl rfl)
  · split at h
    · cases h; exact .inr (.inr rfl)
    · cases h
  · cases h

/-- `weight` decreases with every turn that goes on. -/
theorem weight_step_lt {bytes : Bytes} {options : Dialect} {scan next : Scan}
    (h : scan.step bytes options = .ok (.next next)) : next.weight bytes < scan.weight bytes := by
  obtain ⟨phase, pos, version, nonce⟩ := scan
  unfold step at h
  cases phase with
  | expectTag =>
    dsimp only at h
    cases hb : bytes[pos]? with
    | none => rw [hb] at h; cases h
    | some byte =>
      rw [hb] at h
      dsimp only at h
      have hpos : pos < bytes.length := (List.getElem?_eq_some_iff.mp hb).1
      cases hp : phaseAfterTag options byte with
      | error e => rw [hp] at h; cases h
      | ok phase =>
        rw [hp] at h
        cases h
        rcases phaseAfterTag_eq_ok hp with rfl | rfl | rfl <;> simp only [weight] <;> omega
  | readLength tag =>
    dsimp only at h
    cases hb : bytes[pos]? with
    | none => rw [hb] at h; cases h
    | some byte =>
      rw [hb] at h
      have hpos : pos < bytes.length := (List.getElem?_eq_some_iff.mp hb).1
      cases h
      simp only [weight]
      omega
  | readValue tag length =>
    dsimp only at h
    split at h
    · cases hr : record options ⟨.readValue tag length, pos, version, nonce⟩ tag
        ((bytes.drop pos).take length) (pos + length) with
      | error e => rw [hr] at h; cases h
      | ok scan =>
        rw [hr] at h
        cases h
        obtain ⟨hp, hq⟩ := record_eq_ok hr
        simp only [weight, hp, hq]
        omega
    · cases h
  | terminal => cases h

/-- The turns from `scan` on, up to the envelope or the first error. -/
def run (bytes : Bytes) (options : Dialect) (scan : Scan) : Except EnvelopeError Envelope :=
  match _ : scan.step bytes options with
  | .ok (.next next) => next.run bytes options
  | .ok (.finished envelope) => .ok envelope
  | .error e => .error e
termination_by scan.weight bytes
decreasing_by exact weight_step_lt (by assumption)

end Scan

/-- The envelope of which `bytes` is the wire form. -/
def Envelope.decode (options : Dialect) (bytes : Bytes) : Except EnvelopeError Envelope :=
  Scan.start.run bytes options

end SealedToken
