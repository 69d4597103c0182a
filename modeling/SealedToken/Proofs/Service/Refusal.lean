import SealedToken.Proofs.Envelope.Fault
import SealedToken.Proofs.Service.Codec
import SealedToken.Proofs.Service.Verdict
import SealedToken.Service.Operation

/-!
# Errors of reading tokens

`Codec.decode` takes five steps, each of which may fail: the envelope, the key of its version, the
length of that key, the nonce in the payload, and the tag. Only the last ends in
`TokenError.authentication`, and no other operation but decoding does.

* `TokenError.disposition_eq_forbidden_iff`, `TokenError.status_eq_forbidden_iff`: `authentication`
  is the only error with status 403.
* `Codec.Finds`, `Codec.Presents`, `Codec.Rejects`: decoding gets to a key, to a nonce and sealed
  bytes, to a wrong tag.
* `Codec.decode_eq_error_iff`: the five errors, each with the step that it stands for.
* `Services.perform_eq_authentication_iff`, `Assembly.forbidden_iff`: the operations that end in
  `authentication`.
* `Codec.decode_outcomes`: all outcomes of `decode`, its calls, and the operations that are
  forbidden.
-/

namespace SealedToken

variable {ε α : Type}

/-! ## Dispositions -/

namespace TokenError

variable {error : TokenError}

theorem disposition_eq_forbidden_iff :
    error.disposition = .forbidden ↔ error = .authentication := by
  cases error <;> simp [disposition]

theorem status_eq_forbidden_iff : error.status = 403 ↔ error.disposition = .forbidden := by
  rw [status]
  cases error.disposition <;> simp [Disposition.status]

theorem ofNonce_ne_authentication (cause : NonceError) : ofNonce cause ≠ .authentication := by
  cases cause <;> simp [ofNonce]

theorem ofEnvelope_ne_authentication (cause : EnvelopeError) :
    ofEnvelope cause ≠ .authentication := by
  rw [ofEnvelope]
  split <;> simp

theorem ofCipher_eq_authentication_iff {cause : CipherError} :
    ofCipher cause = .authentication ↔ cause = .tagMismatch := by
  cases cause <;> simp [ofCipher, ofNonce_ne_authentication]

end TokenError

/-! ## The steps of decoding -/

namespace Codec

variable {κ : Type} [KeySource κ]

/-- The envelope in the bytes, read for the kind that the key source declares. -/
def read (codec : Codec κ) (bytes : Bytes) : Except EnvelopeError Envelope :=
  Envelope.decode (Dialect.codec (KeySource.kind codec.keys)) bytes

/-- The bytes are an envelope of the payload, and its version has the key. -/
def Finds (codec : Codec κ) (bytes : Bytes) (resolved : VersionedKey) (payload : Bytes) : Prop :=
  ∃ envelope, codec.read bytes = .ok envelope ∧ envelope.payload = payload ∧
    (KeySource.lookup codec.keys envelope.version).answer = .ok resolved

/-- The bytes are an envelope whose version has a key of the suite, with the cipher of that key, and
a payload that is a nonce and `sealed`. -/
def Presents (codec : Codec κ) (bytes : Bytes) (cipher : Cipher) (nonce : Nonce)
    (sealed : Bytes) : Prop :=
  ∃ resolved, codec.Finds bytes resolved (nonce.bytes ++ sealed) ∧
    Cipher.ofKey codec.suite resolved.key = .ok cipher

/-- What follows the nonce does not open under it. -/
def Rejects (codec : Codec κ) (bytes : Bytes) : Prop :=
  ∃ cipher nonce sealed, codec.Presents bytes cipher nonce sealed ∧
    cipher.scheme.openWith? nonce sealed = none

variable {codec : Codec κ} {bytes plaintext : Bytes} {before : Ambient} {envelope : Envelope}

/-- The outcome of `decode`, with the error of each step. -/
theorem outcome_decode_read (codec : Codec κ) (bytes : Bytes) (before : Ambient) :
    ((codec.decode bytes).run before).1 = (do
      let envelope ← (codec.read bytes).mapError .malformedEnvelope
      let resolved ← (KeySource.lookup codec.keys envelope.version).answer.mapError .transport
      (codec.suite.decode resolved.key envelope.payload).mapError .ofCipher) := by
  rw [outcome_decode, Envelope.mapError_decode]
  rfl

/-- The errors of `decode`, one for each step, in the order of the steps. -/
theorem decode_eq_error_iff {error : TokenError} :
    ((codec.decode bytes).run before).1 = .error error ↔
      (∃ e, codec.read bytes = .error e ∧ error = .malformedEnvelope e) ∨
      (∃ envelope e, codec.read bytes = .ok envelope ∧
        (KeySource.lookup codec.keys envelope.version).answer = .error e ∧ error = .transport e) ∨
      (∃ resolved payload, codec.Finds bytes resolved payload ∧
        resolved.key.length ∉ codec.suite.keyLengths ∧
        error = .configuration (.crypto
          (.invalidKeyLength codec.suite codec.suite.keyLengths resolved.key.length))) ∨
      (∃ resolved payload, codec.Finds bytes resolved payload ∧
        resolved.key.length ∈ codec.suite.keyLengths ∧ payload.length < nonceLength ∧
        error = .cipher (.ciphertextTooShort nonceLength payload.length)) ∨
      (codec.Rejects bytes ∧ error = .authentication) := by
  simp only [outcome_decode_read, bind_eq_error_iff, mapError_eq_ok_iff, mapError_eq_error_iff,
    CipherSuite.decode_eq_error_iff]
  -- each way for the composed computation to fail is a failure of one step after successes of those
  -- before it
  constructor
  · rintro (⟨e, hread, rfl⟩ |
      ⟨envelope, hread, ⟨e, hanswer, rfl⟩ | ⟨resolved, hanswer, cause, hcause, rfl⟩⟩)
    · exact .inl ⟨e, hread, rfl⟩
    · exact .inr (.inl ⟨envelope, e, hread, hanswer, rfl⟩)
    · have hfinds : codec.Finds bytes resolved envelope.payload := ⟨envelope, hread, rfl, hanswer⟩
      rcases hcause with ⟨hlength, rfl⟩ | ⟨hlength, hshort, rfl⟩ |
        ⟨cipher, nonce, sealed, hkey, hsplit, hopen, rfl⟩
      · exact .inr (.inr (.inl ⟨resolved, _, hfinds, hlength, rfl⟩))
      · exact .inr (.inr (.inr (.inl ⟨resolved, _, hfinds, hlength, hshort, rfl⟩)))
      · rw [hsplit] at hfinds
        exact .inr
          (.inr (.inr (.inr ⟨⟨cipher, nonce, sealed, ⟨resolved, hfinds, hkey⟩, hopen⟩, rfl⟩)))
  · rintro (⟨e, hread, rfl⟩ | ⟨envelope, e, hread, hanswer, rfl⟩ |
      ⟨resolved, _, ⟨envelope, hread, rfl, hanswer⟩, hlength, rfl⟩ |
      ⟨resolved, _, ⟨envelope, hread, rfl, hanswer⟩, hlength, hshort, rfl⟩ |
      ⟨⟨cipher, nonce, sealed, ⟨resolved, ⟨envelope, hread, hsplit, hanswer⟩, hkey⟩, hopen⟩, rfl⟩)
    · exact .inl ⟨e, hread, rfl⟩
    · exact .inr ⟨envelope, hread, .inl ⟨e, hanswer, rfl⟩⟩
    · exact .inr ⟨envelope, hread, .inr ⟨resolved, hanswer, _, .inl ⟨hlength, rfl⟩, rfl⟩⟩
    · exact .inr ⟨envelope, hread,
        .inr ⟨resolved, hanswer, _, .inr (.inl ⟨hlength, hshort, rfl⟩), rfl⟩⟩
    · exact .inr ⟨envelope, hread, .inr ⟨resolved, hanswer, _,
        .inr (.inr ⟨cipher, nonce, sealed, hkey, hsplit, hopen, rfl⟩), rfl⟩⟩

/-- `decode` fails with `authentication` exactly if the codec rejects the bytes. -/
theorem decode_eq_authentication_iff :
    ((codec.decode bytes).run before).1 = .error .authentication ↔ codec.Rejects bytes := by
  simp [decode_eq_error_iff]

/-- Otherwise, when all steps are made, there is a plaintext. -/
theorem decode_eq_ok_iff_presents :
    ((codec.decode bytes).run before).1 = .ok plaintext ↔
      ∃ cipher nonce sealed, codec.Presents bytes cipher nonce sealed ∧
        cipher.scheme.openWith? nonce sealed = some plaintext := by
  simp only [outcome_decode_read, bind_eq_ok_iff, mapError_eq_ok_iff,
    CipherSuite.decode_eq_ok_iff_openWith?]
  constructor
  · rintro ⟨envelope, hread, resolved, hanswer, cipher, nonce, sealed, hkey, hsplit, hopen⟩
    exact ⟨cipher, nonce, sealed, ⟨resolved, ⟨envelope, hread, hsplit, hanswer⟩, hkey⟩, hopen⟩
  · rintro ⟨cipher, nonce, sealed, ⟨resolved, ⟨envelope, hread, hsplit, hanswer⟩, hkey⟩, hopen⟩
    exact ⟨envelope, hread, resolved, hanswer, cipher, nonce, sealed, hkey, hsplit, hopen⟩

/-! ## Calls of decoding -/

theorem run_decode_of_malformed {e : EnvelopeError} (h : codec.read bytes = .error e) :
    (codec.decode bytes).run before = (.error (.malformedEnvelope e), before) :=
  Envelope.run_decode_bind_of_error h

/-- `decode` of an envelope resolves its version, once. -/
theorem calls_of_decode (h : codec.read bytes = .ok envelope) :
    ((codec.decode bytes).run before).2.calls =
      before.calls ++ .resolve envelope.version ::
        (KeySource.lookup codec.keys envelope.version).queries.map .fetch := by
  have hframe : (codec.decode bytes).run before =
      ((KeySource.resolve codec.keys envelope.version).mapError TokenError.transport >>=
        fun resolved => do
        let opened := codec.suite.decode resolved.key envelope.payload
        Action.record [] (codec.openingEvents envelope.version.isSome bytes.length opened)
        Action.ofExcept (opened.mapError .ofCipher)).run before :=
    Envelope.run_decode_bind_of_ok h
  rw [hframe]
  cases hanswer : (KeySource.lookup codec.keys envelope.version).answer with
  | error e =>
    rw [KeySource.run_resolve_bind_of_error hanswer]
    rfl
  | ok resolved =>
    rw [KeySource.run_resolve_bind_of_ok hanswer, Action.run_bind_ok (Action.run_report _),
      Action.run_ofExcept]
    rfl

/-! ## The other services -/

theorem checkKind_ne_authentication {version : Option KeyVersion} {e : TokenError}
    (h : codec.checkKind version = .error e) : e ≠ .authentication := by
  unfold checkKind at h
  cases version with
  | none => cases h
  | some version =>
    dsimp only at h
    split at h
    · cases h
    · cases h
      exact nofun

/-- `encode` never fails with `authentication`. -/
theorem encode_raisesOnly (codec : Codec κ) (plaintext : Bytes) :
    (codec.encode plaintext).RaisesOnly (· ≠ .authentication) := by
  refine .bind (.mapError_of_forall (fun _ => nofun) _) fun resolved => ?_
  refine .bind (.ofExcept fun _ => checkKind_ne_authentication) fun _ => ?_
  refine .bind (.mapError (codec.suite.encode_raisesOnly _ _) ?_) fun payload => ?_
  · intro e hne he
    exact hne (TokenError.ofCipher_eq_authentication_iff.mp he)
  refine .bind (.ofExcept ?_) fun envelope => .bind (.record _ _) fun _ => .pure _
  intro e he
  obtain ⟨cause, -, rfl⟩ := mapError_eq_error_iff.mp he
  exact TokenError.ofEnvelope_ne_authentication cause

theorem encodeText_raisesOnly (codec : Codec κ) (plaintext : Bytes) :
    (codec.encodeText plaintext).RaisesOnly (· ≠ .authentication) :=
  .bind (codec.encode_raisesOnly plaintext) fun _ => .pure _

end Codec

theorem TextForm.readToken_ne_authentication {form : TextForm} {token : String} {e : TokenError}
    (h : form.readToken token = .error e) : e ≠ .authentication := by
  obtain ⟨fault, -, rfl⟩ := mapError_eq_error_iff.mp h
  exact nofun

/-- `decodeText` fails with `authentication` exactly if the codec rejects the bytes of the text. -/
theorem Codec.decodeText_eq_authentication_iff {κ : Type} [KeySource κ] {codec : Codec κ}
    {token : String} {before : Ambient} :
    ((codec.decodeText token).run before).1 = .error .authentication ↔
      ∃ bytes, codec.encoding.readToken token = .ok bytes ∧ codec.Rejects bytes := by
  rw [outcome_decodeText, bind_eq_error_iff]
  simp only [decode_eq_authentication_iff]
  constructor
  · rintro (htext | h)
    · exact absurd rfl (TextForm.readToken_ne_authentication htext)
    · exact h
  · exact .inr

section

variable {κ : Type} [KeySource κ]

theorem Signer.sign_raisesOnly (signer : Signer κ) (payload : Bytes) (size : UInt8) :
    (signer.sign payload size).RaisesOnly (· ≠ .authentication) := by
  refine .bind (.mapError_of_forall ?_ _) fun nonce => ?_
  · exact TokenError.ofNonce_ne_authentication
  refine .bind (.mapError_of_forall (fun _ => nofun) _) fun resolved => ?_
  refine .bind (.ofExcept ?_) fun signature => .bind (.record _ _) fun _ => .pure _
  intro e he
  obtain ⟨cause, -, rfl⟩ := mapError_eq_error_iff.mp he
  exact TokenError.ofEnvelope_ne_authentication cause

/-- `verify` never fails with `authentication`. -/
theorem Signer.verify_raisesOnly (signer : Signer κ) (signature payload : Bytes) :
    (signer.verify signature payload).RaisesOnly (· ≠ .authentication) := by
  intro before e he
  rcases Signer.verify_error_cases he with ⟨cause, rfl⟩ | ⟨cause, rfl⟩
  · exact nofun
  · exact nofun

theorem Csrf.issue_raisesOnly (csrf : Csrf κ) (session : String) :
    (csrf.issue session).RaisesOnly (· ≠ .authentication) :=
  .bind (csrf.signer.sign_raisesOnly _ _) fun _ => .pure _

theorem Csrf.validate_raisesOnly (csrf : Csrf κ) (token session : String) :
    (csrf.validate token session).RaisesOnly (· ≠ .authentication) :=
  .bind (.ofExcept fun _ => TextForm.readToken_ne_authentication) fun _ =>
    csrf.signer.verify_raisesOnly _ _

end

/-! ## All operations -/

/-- The operation is `decode` of these bytes, or `decodeText` of a text of them. -/
def Operation.Decodes (form : TextForm) : Operation → Bytes → Prop
  | .decode envelope, bytes => bytes = envelope
  | .decodeText token, bytes => form.readToken token = .ok bytes
  | _, _ => False

namespace Services

variable {κ : Type}

/-- No service is missing because of `authentication`. -/
structure Blameless (services : Services κ) : Prop where
  codec : ∀ e, services.codec = .error e → e ≠ .authentication
  signer : ∀ e, services.signer = .error e → e ≠ .authentication
  csrf : ∀ e, services.csrf = .error e → e ≠ .authentication

variable [KeySource κ] {services : Services κ} {before : Ambient}

/-- An operation that decodes nothing never fails with `authentication`. -/
theorem authentication_iff_of_raisesOnly {operation : Operation}
    (hdecodes : ∀ form bytes, ¬ operation.Decodes form bytes)
    (hraises : (services.perform operation).RaisesOnly (· ≠ .authentication)) :
    ((services.perform operation).run before).1 = .error .authentication ↔
      ∃ codec bytes, services.codec = .ok codec ∧ operation.Decodes codec.encoding bytes ∧
        codec.Rejects bytes := by
  refine iff_of_false hraises.ne ?_
  rintro ⟨codec, bytes, -, hop, -⟩
  exact hdecodes _ _ hop

/-- An operation fails with `authentication` exactly if it decodes bytes that the codec rejects. -/
theorem perform_eq_authentication_iff (h : services.Blameless)
    (operation : Operation) (before : Ambient) :
    ((services.perform operation).run before).1 = .error .authentication ↔
      ∃ codec bytes, services.codec = .ok codec ∧ operation.Decodes codec.encoding bytes ∧
        codec.Rejects bytes := by
  cases operation with
  | encode plaintext =>
    exact authentication_iff_of_raisesOnly (fun _ _ => id)
      (.bind (.ofExcept h.codec) fun codec => .map _ (codec.encode_raisesOnly plaintext))
  | decode envelope =>
    rw [perform, Action.outcome_bind, bind_eq_error_iff]
    simp only [Action.run_ofExcept, Action.run_map, map_eq_error_iff,
      Codec.decode_eq_authentication_iff]
    constructor
    -- a codec that could not be built has another error
    · rintro (he | ⟨codec, hcodec, hrejects⟩)
      · exact absurd rfl (h.codec _ he)
      · exact ⟨codec, envelope, hcodec, rfl, hrejects⟩
    · rintro ⟨codec, _, hcodec, rfl, hrejects⟩
      exact .inr ⟨codec, hcodec, hrejects⟩
  | encodeText plaintext =>
    exact authentication_iff_of_raisesOnly (fun _ _ => id)
      (.bind (.ofExcept h.codec) fun codec => .map _ (codec.encodeText_raisesOnly plaintext))
  | decodeText token =>
    rw [perform, Action.outcome_bind, bind_eq_error_iff]
    simp only [Action.run_ofExcept, Action.run_map, map_eq_error_iff,
      Codec.decodeText_eq_authentication_iff]
    constructor
    · rintro (he | ⟨codec, hcodec, bytes, htext, hrejects⟩)
      · exact absurd rfl (h.codec _ he)
      · exact ⟨codec, bytes, hcodec, htext, hrejects⟩
    · rintro ⟨codec, bytes, hcodec, htext, hrejects⟩
      exact .inr ⟨codec, hcodec, bytes, htext, hrejects⟩
  | sign payload size =>
    exact authentication_iff_of_raisesOnly (fun _ _ => id)
      (.bind (.ofExcept h.signer) fun signer => .map _ (signer.sign_raisesOnly payload size))
  | verify signature payload =>
    exact authentication_iff_of_raisesOnly (fun _ _ => id)
      (.bind (.ofExcept h.signer) fun signer => .map _ (signer.verify_raisesOnly signature payload))
  | issue session =>
    exact authentication_iff_of_raisesOnly (fun _ _ => id)
      (.bind (.ofExcept h.csrf) fun csrf => .map _ (csrf.issue_raisesOnly session))
  | validate token session =>
    exact authentication_iff_of_raisesOnly (fun _ _ => id)
      (.bind (.ofExcept h.csrf) fun csrf => .map _ (csrf.validate_raisesOnly token session))

end Services

/-! ## Services that were built -/

section

variable {κ : Type} {e : TokenError}

theorem CodecSettings.exists_fault_of_build {settings : CodecSettings κ}
    (h : settings.build = .error e) :
    ∃ fault, e = .configuration fault := by
  unfold build at h
  split at h
  · cases h
  · cases h
    exact ⟨_, rfl⟩

theorem SignerSettings.exists_fault_of_build {settings : SignerSettings κ}
    (h : settings.build = .error e) :
    ∃ fault, e = .configuration fault := by
  unfold build at h
  split at h
  · cases h
  · cases h
    exact ⟨_, rfl⟩

theorem Csrf.exists_fault_of_withNonceSize {csrf : Csrf κ} {size : UInt8}
    (h : csrf.withNonceSize size = .error e) : ∃ fault, e = .configuration fault := by
  unfold withNonceSize at h
  split at h
  · cases h
    exact ⟨_, rfl⟩
  · cases h

theorem Config.exists_fault_of_validate {config : Config} (h : config.validate = .error e) :
    ∃ fault, e = .configuration fault := by
  unfold validate at h
  split at h
  · cases h
    exact ⟨_, rfl⟩
  · cases h

namespace Assembly

/-- A codec that cannot be built fails with a configuration error. -/
theorem exists_fault_of_codec {assembly : Assembly} {keys : Option κ}
    (h : (assembly.services keys).codec = .error e) : ∃ fault, e = .configuration fault := by
  cases assembly with
  | configured config => exact CodecSettings.exists_fault_of_build h
  | plain config => exact CodecSettings.exists_fault_of_build h
  | custom overrides nonces => exact CodecSettings.exists_fault_of_build h

theorem exists_fault_of_signer {assembly : Assembly} {keys : Option κ}
    (h : (assembly.services keys).signer = .error e) : ∃ fault, e = .configuration fault := by
  cases assembly with
  | configured config => exact SignerSettings.exists_fault_of_build h
  | plain config => exact SignerSettings.exists_fault_of_build h
  | custom overrides nonces => exact SignerSettings.exists_fault_of_build h

theorem exists_fault_of_csrf {assembly : Assembly} {keys : Option κ}
    (h : (assembly.services keys).csrf = .error e) : ∃ fault, e = .configuration fault := by
  cases assembly with
  | configured config =>
    rcases bind_eq_error_iff.mp h with hvalid | ⟨_, -, h⟩
    · exact Config.exists_fault_of_validate hvalid
    rcases bind_eq_error_iff.mp h with hsigner | ⟨_, -, hsize⟩
    · exact SignerSettings.exists_fault_of_build hsigner
    · exact Csrf.exists_fault_of_withNonceSize hsize
  | plain config => exact SignerSettings.exists_fault_of_build (map_eq_error_iff.mp h)
  | custom overrides nonces =>
    rcases bind_eq_error_iff.mp h with hsigner | ⟨_, -, h⟩
    · exact SignerSettings.exists_fault_of_build hsigner
    · cases hsize : overrides.csrfNonceSize with
      | none => simp [hsize] at h
      | some size =>
        simp only [hsize] at h
        exact Csrf.exists_fault_of_withNonceSize h

theorem blameless_services (assembly : Assembly) (keys : Option κ) :
    (assembly.services keys).Blameless where
  codec e h := by
    obtain ⟨fault, rfl⟩ := exists_fault_of_codec h
    exact nofun
  signer e h := by
    obtain ⟨fault, rfl⟩ := exists_fault_of_signer h
    exact nofun
  csrf e h := by
    obtain ⟨fault, rfl⟩ := exists_fault_of_csrf h
    exact nofun

/-- An error of an operation has the status 403 exactly if the operation decodes bytes that the
codec rejects, however the services were built. -/
theorem forbidden_iff [KeySource κ] {assembly : Assembly} {keys : Option κ} {operation : Operation}
    {before : Ambient} {error : TokenError}
    (h : (((assembly.services keys).perform operation).run before).1 = .error error) :
    error.status = 403 ↔ ∃ codec bytes, (assembly.services keys).codec = .ok codec ∧
      operation.Decodes codec.encoding bytes ∧ codec.Rejects bytes := by
  have hiff :=
    Services.perform_eq_authentication_iff (blameless_services assembly keys) operation before
  rw [h, Except.error.injEq] at hiff
  rw [TokenError.status_eq_forbidden_iff, TokenError.disposition_eq_forbidden_iff, hiff]

end Assembly

end

/-! ## Outcomes of decoding -/

/-- `decode` fails in one of five steps, each with an error of its own, or gives a plaintext. It
resolves the version once if the bytes are an envelope, and otherwise asks for nothing. An operation
is forbidden exactly if it decodes bytes that the codec rejects, in the last of the steps. -/
theorem Codec.decode_outcomes {κ : Type} [KeySource κ] (codec : Codec κ)
    (bytes : Bytes) (before : Ambient) :
    (∀ e, ((codec.decode bytes).run before).1 = .error (.malformedEnvelope e) ↔
      codec.read bytes = .error e) ∧
    (∀ e, ((codec.decode bytes).run before).1 = .error (.transport e) ↔
      ∃ envelope, codec.read bytes = .ok envelope ∧
        (KeySource.lookup codec.keys envelope.version).answer = .error e) ∧
    (∀ fault, ((codec.decode bytes).run before).1 = .error (.configuration fault) ↔
      ∃ resolved payload, codec.Finds bytes resolved payload ∧
        resolved.key.length ∉ codec.suite.keyLengths ∧
        fault =
          .crypto (.invalidKeyLength codec.suite codec.suite.keyLengths resolved.key.length)) ∧
    (∀ cause, ((codec.decode bytes).run before).1 = .error (.cipher cause) ↔
      ∃ resolved payload, codec.Finds bytes resolved payload ∧
        resolved.key.length ∈ codec.suite.keyLengths ∧ payload.length < nonceLength ∧
        cause = .ciphertextTooShort nonceLength payload.length) ∧
    (((codec.decode bytes).run before).1 = .error .authentication ↔
      ∃ cipher nonce sealed, codec.Presents bytes cipher nonce sealed ∧
        cipher.scheme.openWith? nonce sealed = none) ∧
    (∀ plaintext, ((codec.decode bytes).run before).1 = .ok plaintext ↔
      ∃ cipher nonce sealed, codec.Presents bytes cipher nonce sealed ∧
        cipher.scheme.openWith? nonce sealed = some plaintext) ∧
    (∀ reason, ((codec.decode bytes).run before).1 ≠ .error (.entropy reason)) ∧
    (∀ form fault, ((codec.decode bytes).run before).1 ≠ .error (.encoding form fault)) ∧
    (∀ e, codec.read bytes = .error e → ((codec.decode bytes).run before).2 = before) ∧
    (∀ envelope, codec.read bytes = .ok envelope →
      ((codec.decode bytes).run before).2.calls =
        before.calls ++ .resolve envelope.version ::
          (KeySource.lookup codec.keys envelope.version).queries.map .fetch) ∧
    ∀ (signer : Signer κ) (csrf : Csrf κ) (operation : Operation) (error : TokenError),
      (((Services.mk (.ok codec) (.ok signer) (.ok csrf)).perform operation).run before).1 =
        .error error →
      (error.disposition = .forbidden ↔
        ∃ bytes, operation.Decodes codec.encoding bytes ∧ codec.Rejects bytes) ∧
      (error.status = 403 ↔ error.disposition = .forbidden) := by
  refine ⟨?_, ?_, ?_, ?_, ?_, ?_, ?_, ?_, ?_, ?_, ?_⟩
  · intro e
    simp [decode_eq_error_iff]
  · intro e
    simp [decode_eq_error_iff]
  · intro fault
    simp [decode_eq_error_iff]
  · intro cause
    simp [decode_eq_error_iff]
  · exact decode_eq_authentication_iff
  · exact fun plaintext => decode_eq_ok_iff_presents
  · intro reason
    simp [decode_eq_error_iff]
  · intro form fault
    simp [decode_eq_error_iff]
  · intro e hread
    rw [run_decode_of_malformed hread]
  · exact fun envelope => calls_of_decode
  · intro signer csrf operation error herror
    refine ⟨?_, TokenError.status_eq_forbidden_iff⟩
    have hblameless : (Services.mk (.ok codec) (.ok signer) (.ok csrf)).Blameless :=
      ⟨nofun, nofun, nofun⟩
    have hiff := Services.perform_eq_authentication_iff hblameless operation before
    rw [herror, Except.error.injEq] at hiff
    rw [TokenError.disposition_eq_forbidden_iff, hiff]
    simp

end SealedToken
