import SealedToken.Error
import SealedToken.Proofs.Envelope.WireForm

/-!
# Errors of writing and reading envelopes

* `Envelope.LabelFits`, `Envelope.exists_versionBytes_iff`: a version can be written unless it is a
  label that is too long.
* `Envelope.encode_eq_error_iff`: the two errors of `Envelope.encode`. That of the version comes
  first.
* `Envelope.isWriterFault_of_encode`, `Envelope.isWriterFault_of_decode`: all errors of `encode` are
  writer faults, and none of `decode` is.
* `Envelope.mapError_decode`: `TokenError.ofEnvelope` makes every error of `decode` a
  `malformedEnvelope`. `Envelope.run_decode_bind_of_error`: the run of an action that starts with a
  failed `decode`.
-/

namespace SealedToken

/-! ## Versions -/

namespace KeyVersion

theorem toBytes_eq_error_iff {version : KeyVersion} {e : EnvelopeError} :
    version.toBytes = .error e ↔ ∃ text, version = label text ∧
      maxLabelLength < (utf8 text).length ∧
      e = .versionTooLong (utf8 text).length maxLabelLength := by
  cases version with
  | number value => simp [toBytes]
  | label text =>
    rw [toBytes]
    by_cases h : maxLabelLength < (utf8 text).length
    · simp [h, eq_comm]
    · simp [h]

/-- `ofBytes` fails with `invalidVersion` only. -/
theorem exists_reason_of_ofBytes {kind : Kind} {bs : Bytes} {e : EnvelopeError}
    (h : ofBytes kind bs = .error e) : ∃ reason, e = .invalidVersion reason := by
  unfold ofBytes at h
  cases kind with
  | label =>
    dsimp only at h
    split at h
    · cases h
    · exact ⟨_, (Except.error.inj h).symm⟩
  | number =>
    dsimp only at h
    split at h
    · cases h
    · exact ⟨_, (Except.error.inj h).symm⟩

end KeyVersion

namespace Envelope

variable {options : Dialect} {bytes : Bytes} {envelope : Envelope} {e : EnvelopeError}

/-! ## Writing -/

/-- The version is no label of more than 255 bytes. -/
def LabelFits (version : Option KeyVersion) : Prop :=
  ∀ text, version = some (.label text) → (utf8 text).length ≤ maxLabelLength

theorem versionBytes_eq_error_iff {version : Option KeyVersion} :
    versionBytes version = .error e ↔ ∃ text, version = some (.label text) ∧
      maxLabelLength < (utf8 text).length ∧
      e = .versionTooLong (utf8 text).length maxLabelLength := by
  cases version with
  | none => simp [versionBytes]
  | some version => simp [versionBytes, KeyVersion.toBytes_eq_error_iff]

/-- `versionBytes` succeeds exactly if a label is at most 255 bytes long. -/
theorem exists_versionBytes_iff {version : Option KeyVersion} :
    (∃ raw, versionBytes version = .ok raw) ↔ LabelFits version := by
  constructor
  · rintro ⟨raw, hraw⟩ text hv
    apply Nat.le_of_not_lt
    intro hlong
    have herror := versionBytes_eq_error_iff.mpr ⟨text, hv, hlong, rfl⟩
    rw [hraw] at herror
    cases herror
  · intro hfits
    cases h : versionBytes version with
    | ok raw => exact ⟨raw, rfl⟩
    | error e =>
      obtain ⟨text, hv, hlen, -⟩ := versionBytes_eq_error_iff.mp h
      exact absurd (hfits text hv) (Nat.not_le_of_lt hlen)

/-- An empty nonce and no nonce have the same length. -/
theorem length_getD_writtenNonce (nonce : Option Bytes) :
    ((writtenNonce nonce).getD []).length = (nonce.getD []).length := by
  cases nonce with
  | none => rfl
  | some nonce => rw [getD_writtenNonce, Option.getD_some]

/-- `encode` fails for a label of more than 255 bytes, or else for a nonce of more than
255 bytes. -/
theorem encode_eq_error_iff :
    envelope.encode = .error e ↔
      (∃ text, envelope.version = some (.label text) ∧ maxLabelLength < (utf8 text).length ∧
        e = .versionTooLong (utf8 text).length maxLabelLength) ∨
      (LabelFits envelope.version ∧ ∃ nonce, envelope.nonce = some nonce ∧
        maxNonceLength < nonce.length ∧ e = .nonceTooLong nonce.length maxNonceLength) := by
  rw [encode, bind_eq_error_iff, versionBytes_eq_error_iff, ← exists_versionBytes_iff]
  simp only [check_eq_error_iff, pure_ne_error, and_false, or_false, length_getD_writtenNonce,
    exists_and_right]
  apply or_congr_right
  apply and_congr_right
  intro _
  cases envelope.nonce with
  | none => simp
  | some nonce => simp [eq_comm]

/-- Every error of `encode` is a fault of the writer. -/
theorem isWriterFault_of_encode (h : envelope.encode = .error e) : e.isWriterFault = true := by
  rcases encode_eq_error_iff.mp h with ⟨_, -, -, rfl⟩ | ⟨-, _, -, -, rfl⟩
  · rfl
  · rfl

/-! ## Reading -/

theorem isWriterFault_of_record {found : Found} {tag : EntryTag} {value : Bytes}
    (h : found.record options tag value = .error e) : e.isWriterFault = false := by
  unfold Found.record at h
  cases tag with
  | terminal =>
    cases h
    rfl
  | version =>
    dsimp only at h
    split at h
    · cases h
      rfl
    · rw [map_eq_error_iff] at h
      obtain ⟨reason, rfl⟩ := KeyVersion.exists_reason_of_ofBytes h
      rfl
  | nonce =>
    dsimp only at h
    split at h
    · cases h
      rfl
    · cases h

theorem isWriterFault_of_read {found : Found} {rest : Bytes}
    (h : found.read options rest = .error e) :
    e.isWriterFault = false := by
  -- an entry that can be recorded leaves the matter to the rest
  fun_induction Found.read options found rest with
  | case1 | case2 | case4 | case6 =>
    cases h
    rfl
  | case3 => cases h
  | case5 found byte tag hne htag length rest hle ih =>
    rcases bind_eq_error_iff.mp h with hrecord | ⟨next, -, hread⟩
    · exact isWriterFault_of_record hrecord
    · exact ih next hread

/-- No error of `decode` is a fault of the writer. -/
theorem isWriterFault_of_decode (h : decode options bytes = .error e) :
    e.isWriterFault = false := by
  rw [decode_eq_read] at h
  exact isWriterFault_of_read h

end Envelope

/-! ## Errors of tokens -/

/-- `TokenError.ofEnvelope` makes an error of `encode` a configuration error. -/
theorem Envelope.ofEnvelope_of_encode {envelope : Envelope} {e : EnvelopeError}
    (h : envelope.encode = .error e) :
    TokenError.ofEnvelope e = .configuration (.envelope e) := by
  rw [TokenError.ofEnvelope, Envelope.isWriterFault_of_encode h, if_pos rfl]

/-- With a nonce of at most 255 bytes, `encode` fails only for a label of more than 255 bytes, which
is a configuration error. -/
theorem Envelope.mapError_encode_eq_error_iff {version : Option KeyVersion} {nonce code : Bytes}
    {e : TokenError} (hlen : nonce.length ≤ maxNonceLength) :
    (Envelope.encode ⟨version, some nonce, code⟩).mapError .ofEnvelope = .error e ↔
      ∃ text, version = some (.label text) ∧ maxLabelLength < (utf8 text).length ∧
        e = .configuration (.envelope (.versionTooLong (utf8 text).length maxLabelLength)) := by
  rw [mapError_eq_error_iff]
  constructor
  · rintro ⟨cause, hcause, rfl⟩
    rw [Envelope.ofEnvelope_of_encode hcause]
    rcases Envelope.encode_eq_error_iff.mp hcause with ⟨text, hversion, hlong, rfl⟩
      | ⟨-, nonce', hn, hlong, -⟩
    · exact ⟨text, hversion, hlong, rfl⟩
    · cases hn
      exact absurd hlen (Nat.not_le_of_lt hlong)
  · rintro ⟨text, rfl, hlong, rfl⟩
    have hcause : Envelope.encode ⟨some (.label text), some nonce, code⟩ = .error _ :=
      Envelope.encode_eq_error_iff.mpr (.inl ⟨text, rfl, hlong, rfl⟩)
    exact ⟨_, hcause, Envelope.ofEnvelope_of_encode hcause⟩

/-- `TokenError.ofEnvelope` makes an error of `decode` a `malformedEnvelope`. -/
theorem Envelope.mapError_decode (options : Dialect) (bytes : Bytes) :
    (Envelope.decode options bytes).mapError TokenError.ofEnvelope =
      (Envelope.decode options bytes).mapError .malformedEnvelope := by
  cases h : Envelope.decode options bytes with
  | ok envelope => rfl
  | error e =>
    show Except.error (TokenError.ofEnvelope e) = _
    rw [TokenError.ofEnvelope, Envelope.isWriterFault_of_decode h]
    rfl

section

variable {α : Type} {options : Dialect} {bytes : Bytes} {rest : Envelope → Action TokenError α}
  {before : Ambient}

/-- If `decode` fails, the action ends with `malformedEnvelope` and without any effect. -/
theorem Envelope.run_decode_bind_of_error {e : EnvelopeError}
    (h : Envelope.decode options bytes = .error e) :
    (Action.ofExcept ((Envelope.decode options bytes).mapError .ofEnvelope) >>= rest).run before =
      (.error (.malformedEnvelope e), before) := by
  apply Action.run_ofExcept_bind_of_error
  rw [Envelope.mapError_decode, h]
  rfl

theorem Envelope.run_decode_bind_of_ok {envelope : Envelope}
    (h : Envelope.decode options bytes = .ok envelope) :
    (Action.ofExcept ((Envelope.decode options bytes).mapError .ofEnvelope) >>= rest).run before =
      (rest envelope).run before := by
  apply Action.run_ofExcept_bind_of_ok
  rw [h]
  rfl

end

end SealedToken
