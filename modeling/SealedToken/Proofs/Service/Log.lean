import SealedToken.Proofs.Envelope.Canonical
import SealedToken.Proofs.Log
import SealedToken.Proofs.Cipher.Opening
import SealedToken.Proofs.Service.Freshness
import SealedToken.Proofs.Service.Recorded
import SealedToken.Proofs.Service.Rotation
import SealedToken.Proofs.Service.Signing

/-!
# The events of operations

The events of an operation are a function of the settings of its service, the queries and versions
of the key source, the lengths of plaintext and nonce, the outline of the token that is read, and
the upshot.

* `reads_askOnce`: actions that ask once for the key of an envelope, such as `Codec.decode` and
  `Signer.verify`.
* `Codec.encodeLog`, `Codec.decodeLog`, `Signer.signLog`, `Signer.verifyLog`: the events of each
  operation. `Codec.logs_encode`, `Codec.reads_decode` and the like say that it reports them.
* `Operation.Shape`, `Services.outline?`: the visible part of an operation and of the token that it
  reads.
* `Services.log`, `Services.logs_perform`: the events of every operation.
* `Services.ofService_of_mem_log`: a failed operation reports only the queries of the key source,
  unless the tag of a token is wrong.
-/

namespace SealedToken

/-! ## Parts that report nothing -/

theorem CipherSuite.silent_encode (suite : CipherSuite) (key plaintext : Bytes) :
    (suite.encode key plaintext).Silent := by
  refine .bind (.ofExcept _) fun cipher => .bind (.mapError _ ?_) fun nonce => ?_
  · exact .bind (.ofExcept _) fun _ => .bind (.draw _) fun bs => .ofExcept (Nonce.ofBytes bs)
  · exact .bind (.ofExcept _) fun sealed => .ofExcept (.ok (nonce.bytes ++ sealed))

/-! ## Questions to the key source -/

section

variable {κ : Type} [KeySource κ]

/-- The events of a lookup, one for each query to a store. -/
def KeySource.reports (keys : κ) (version : Option KeyVersion) : List Event :=
  (KeySource.lookup keys version).queries.map (·.event)

/-- The version of the current key, if there is a key and it has one. -/
def KeySource.currentVersion (keys : κ) : Option KeyVersion :=
  (KeySource.lookup keys none).answer.toOption.bind VersionedKey.version

theorem KeySource.currentVersion_of_ok {keys : κ} {resolved : VersionedKey}
    (h : (KeySource.lookup keys none).answer = .ok resolved) :
    currentVersion keys = resolved.version := by
  rw [currentVersion, h]
  rfl

/-- An action that resolves a key and then fails silently has the events of the lookup only. -/
theorem KeySource.events_resolve_bind_of_error {ε α : Type} {keys : κ} {version : Option KeyVersion}
    {f : KeyError → ε} {rest : VersionedKey → Action ε α} {before : Ambient} {e : ε}
    (hrest : ∀ resolved, (rest resolved).FailsSilently)
    (h : (((KeySource.resolve keys version).mapError f >>= rest).run before).1 = .error e) :
    (((KeySource.resolve keys version).mapError f >>= rest).run before).2.events =
      before.events ++ reports keys version := by
  cases hanswer : (KeySource.lookup keys version).answer with
  | error cause =>
    rw [run_resolve_bind_of_error hanswer]
    rfl
  | ok resolved =>
    rw [run_resolve_bind_of_ok hanswer] at h ⊢
    rw [hrest resolved _ e h]
    rfl

/-- `askOnce` reads a token with the given log if that has the events of the lookup and those of
each verdict. -/
theorem reads_askOnce {α : Type} {options : Dialect} {bytes : Bytes} {see : α → Upshot}
    {log : Option Outline → Upshot → List Event} {events : Envelope → Bytes → List Event}
    {judge : Envelope → Bytes → Except TokenError α} (keys : κ)
    (hnone : ∀ upshot, log none upshot = [])
    (hmissing : ∀ outline, log (some outline) (.failed .transport) =
      KeySource.reports keys outline.version)
    (hjudged : ∀ envelope key,
      log (some (envelope.outline bytes.length)) (.of see (judge envelope key)) =
      KeySource.reports keys envelope.version ++ events envelope key)
    (hread : ∀ envelope key, ¬ (Upshot.of see (judge envelope key)).isUnread) :
    (askOnce (Envelope.decode options bytes) events judge keys).Reads see
      (Envelope.outline? options bytes) log := by
  cases hdecode : Envelope.decode options bytes with
  | error e =>
    rw [Envelope.outline?_of_error hdecode, ← hdecode]
    exact .unread (fun before => Envelope.run_decode_bind_of_error hdecode) rfl hnone
  | ok envelope =>
    rw [Envelope.outline?_of_ok hdecode, ← hdecode]
    cases hanswer : (KeySource.lookup keys envelope.version).answer with
    | error e =>
      have hrun : ∀ before, (askOnce (Envelope.decode options bytes) events judge keys).run before =
          (.error (.transport e),
            before.asked envelope.version (KeySource.lookup keys envelope.version)) := by
        intro before
        rw [askOnce, Envelope.run_decode_bind_of_ok hdecode,
          KeySource.run_resolve_bind_of_error hanswer]
      refine ⟨fun before => ?_, fun before => iff_of_false (Option.some_ne_none _) ?_⟩
      · rw [hrun]
        exact congrArg _ (hmissing (envelope.outline bytes.length)).symm
      · rw [hrun]
        exact Bool.false_ne_true
    | ok resolved =>
      have hrun : ∀ before, (askOnce (Envelope.decode options bytes) events judge keys).run before =
          (judge envelope resolved.key,
            (before.asked envelope.version (KeySource.lookup keys envelope.version)).reported
              (events envelope resolved.key)) := by
        intro before
        rw [askOnce, Envelope.run_decode_bind_of_ok hdecode,
          KeySource.run_resolve_bind_of_ok hanswer,
          Action.run_bind_ok (Action.run_report _), Action.run_ofExcept]
      refine ⟨fun before => ?_, fun before => iff_of_false (Option.some_ne_none _) ?_⟩
      · rw [hrun, hjudged]
        exact List.append_assoc _ _ _
      · rw [hrun]
        exact hread envelope resolved.key

end

/-! ## Encrypted tokens -/

/-- The length of the envelope that `encode` makes of a plaintext of the given length. -/
def sealedLength (version : Option KeyVersion) (length : Nat) : Nat :=
  Envelope.entryLength (Envelope.versionBytes version).toOption.join + 1 +
    (nonceLength + (length + tagLength))

theorem CipherSuite.Seals.length_eq {suite : CipherSuite}
    {version : Option KeyVersion} {nonce : Nonce}
    {key plaintext bytes : Bytes} (h : suite.Seals version key nonce plaintext bytes) :
    bytes.length = sealedLength version plaintext.length := by
  obtain ⟨cipher, sealed, -, hseal, hframe⟩ := h
  obtain ⟨-, raw, hraw, rfl⟩ := Envelope.encode_eq_ok_iff_versionFirst.mp hframe
  have hversion : Envelope.versionBytes version = .ok raw := hraw
  have hpayload : (nonce.bytes ++ sealed).length =
      SealedToken.nonceLength + (plaintext.length + tagLength) :=
    Cipher.Yields.length_eq ⟨nonce, sealed, rfl, hseal⟩
  rw [Envelope.length_versionFirst, sealedLength, hversion, Envelope.wireLength, hpayload]
  rfl

namespace Codec

variable {κ : Type} [KeySource κ]

/-- The events of `encode` by the length of the plaintext and the upshot. -/
def encodeLog (codec : Codec κ) (length : Nat) (upshot : Upshot) : List Event :=
  KeySource.reports codec.keys none ++
    if upshot = .made then
      [.envelopeSealed codec.suite (KeySource.currentVersion codec.keys).isSome
        (sealedLength (KeySource.currentVersion codec.keys) length)]
    else []

/-- The events of `decode` by the outline of the token and the upshot. -/
def decodeLog (codec : Codec κ) (outline? : Option Outline) (upshot : Upshot) : List Event :=
  match outline? with
  | none => []
  | some outline => KeySource.reports codec.keys outline.version ++
    match upshot with
    | .made => [.envelopeOpened codec.suite outline.version.isSome outline.length]
    | .failed .authentication => [.authenticationFailed outline.version.isSome]
    | _ => []

/-- The outline of the bytes, read for the kind that the key source declares. -/
def outline? (codec : Codec κ) (bytes : Bytes) : Option Outline :=
  Envelope.outline? (Dialect.codec (KeySource.kind codec.keys)) bytes

/-- What encoding does once it has a key. -/
def encodeWith (codec : Codec κ) (plaintext : Bytes) (resolved : VersionedKey) :
    Action TokenError Bytes := do
  Action.ofExcept (codec.checkKind resolved.version)
  let payload ← (codec.suite.encode resolved.key plaintext).mapError .ofCipher
  let envelope ← Action.ofExcept <|
    (Envelope.encode ⟨resolved.version, none, payload⟩).mapError .ofEnvelope
  Action.emit (.envelopeSealed codec.suite resolved.version.isSome envelope.length)
  return envelope

theorem encode_eq (codec : Codec κ) (plaintext : Bytes) :
    codec.encode plaintext =
      (KeySource.resolve codec.keys none).mapError .transport >>= codec.encodeWith plaintext := rfl

theorem encodeWith_failsSilently (codec : Codec κ) (plaintext : Bytes) (resolved : VersionedKey) :
    (codec.encodeWith plaintext resolved).FailsSilently := by
  refine .bind (.ofExcept _) fun _ => ?_
  refine .bind (.mapError _ (codec.suite.silent_encode resolved.key plaintext)) fun payload => ?_
  exact .bind (.ofExcept _) fun envelope => .report _ envelope

theorem logs_encode (codec : Codec κ) (plaintext : Bytes) :
    (codec.encode plaintext).Logs (fun _ => .made) (codec.encodeLog plaintext.length) := by
  intro before
  rcases hrun : (codec.encode plaintext).run before with ⟨outcome, after⟩
  cases outcome with
  | error e =>
    rw [encode_eq] at hrun
    have hevents :=
      KeySource.events_resolve_bind_of_error (codec.encodeWith_failsSilently plaintext)
      (congrArg Prod.fst hrun)
    rw [hrun] at hevents
    rw [hevents, encodeLog, Upshot.of, if_neg nofun, List.append_nil]
  | ok bytes =>
    obtain ⟨resolved, nonce, hanswer, -, -, hseals, rfl⟩ := run_encode_eq_ok_iff.mp hrun
    rw [encodeLog, Upshot.of, if_pos rfl,
      KeySource.currentVersion_of_ok hanswer, ← hseals.length_eq, ← List.append_assoc]
    rfl

theorem logs_encodeText (codec : Codec κ) (plaintext : Bytes) :
    (codec.encodeText plaintext).Logs (fun _ => .made) (codec.encodeLog plaintext.length) := by
  rw [encodeText, bind_pure_comp]
  exact .map codec.encoding.encode (fun _ => rfl) (codec.logs_encode plaintext)

/-- `decodeLog` has the events of the lookup and those of the attempt to open the payload. -/
theorem decodeLog_opened (codec : Codec κ) (outline : Outline) (opened : Except CipherError Bytes) :
    codec.decodeLog (some outline) (.of (fun _ => .made) (opened.mapError .ofCipher)) =
      KeySource.reports codec.keys outline.version ++
        codec.openingEvents outline.version.isSome outline.length opened := by
  cases opened with
  | ok plaintext => rfl
  | error cause =>
    cases cause with
    | nonce cause => cases cause <;> rfl
    | invalidKeyLength | ciphertextTooShort | tagMismatch | failure => rfl

/-- The upshot of an attempt to open a payload is never unread. -/
theorem isUnread_opened (opened : Except CipherError Bytes) :
    ¬ (Upshot.of (fun _ => .made) (opened.mapError TokenError.ofCipher)).isUnread := by
  cases opened with
  | ok plaintext => exact nofun
  | error cause =>
    cases cause with
    | nonce cause => cases cause <;> exact nofun
    | invalidKeyLength | ciphertextTooShort | tagMismatch | failure => exact nofun

theorem reads_decode (codec : Codec κ) (bytes : Bytes) :
    (codec.decode bytes).Reads (fun _ => .made) (codec.outline? bytes) codec.decodeLog := by
  have hask : codec.decode bytes =
    askOnce (Envelope.decode (Dialect.codec (KeySource.kind codec.keys)) bytes)
      (fun envelope key =>
        codec.openingEvents envelope.version.isSome bytes.length
          (codec.suite.decode key envelope.payload))
      (fun envelope key =>
        (codec.suite.decode key envelope.payload).mapError .ofCipher) codec.keys := rfl
  rw [hask]
  refine reads_askOnce codec.keys (fun _ => rfl)
    (fun _ => List.append_nil _) (fun envelope key => ?_)
    fun _ _ => isUnread_opened _
  exact codec.decodeLog_opened (envelope.outline bytes.length) _

/-- The outline of the text, read for the kind that the key source declares. -/
def textOutline? (codec : Codec κ) (token : String) : Option Outline :=
  codec.encoding.outline? (Dialect.codec (KeySource.kind codec.keys)) token

theorem reads_decodeText (codec : Codec κ) (token : String) :
    (codec.decodeText token).Reads (fun _ => .made) (codec.textOutline? token) codec.decodeLog :=
  .text (fun _ => rfl) codec.reads_decode

end Codec

/-! ## Signatures -/

namespace Signer

variable {κ : Type} [KeySource κ]

/-- The events of `sign` by the size of the nonce and the upshot. -/
def signLog (signer : Signer κ) (size : UInt8) (upshot : Upshot) : List Event :=
  if upshot = .failed .entropy then []
  else KeySource.reports signer.keys none ++
    if upshot = .made then
      [.payloadSigned signer.hash (KeySource.currentVersion signer.keys).isSome size.toNat]
    else []

/-- The events of `verify` by the outline of the signature and the upshot. -/
def verifyLog (signer : Signer κ) (outline? : Option Outline) (upshot : Upshot) : List Event :=
  match outline? with
  | none => []
  | some outline => KeySource.reports signer.keys outline.version ++
    match upshot with
    | .verdict genuine =>
      [.signatureChecked signer.hash outline.version.isSome (outline.nonceLength != 0) genuine]
    | _ => []

/-- The outline of the signature, read for the kind that the key source declares. -/
def outline? (signer : Signer κ) (signature : Bytes) : Option Outline :=
  Envelope.outline? (Dialect.signer (KeySource.kind signer.keys)) signature

theorem signLog_made {signer : Signer κ} {resolved : VersionedKey}
    (h : (KeySource.lookup signer.keys none).answer = .ok resolved) (size : UInt8) :
    signer.signLog size .made = KeySource.reports signer.keys none ++
      [.payloadSigned signer.hash resolved.version.isSome size.toNat] := by
  rw [signLog, if_neg nofun, if_pos rfl, KeySource.currentVersion_of_ok h]

theorem signLog_failed (signer : Signer κ) (size : UInt8)
    (kind : TokenError.Kind) (h : kind ≠ .entropy) :
    signer.signLog size (.failed kind) = KeySource.reports signer.keys none := by
  rw [signLog, if_neg (by simpa using h), if_neg nofun, List.append_nil]

theorem logs_sign {signer : Signer κ} (hsystem : signer.nonces = .system)
    (payload : Bytes) (size : UInt8) :
    (signer.sign payload size).Logs (fun _ => .made) (signer.signLog size) := by
  intro before
  obtain ⟨outcome, after, hends⟩ := signer.exists_signs payload size before
  rw [hends.run_eq]
  cases hends with
  | entropy hgives => exact hgives.events_eq.trans (List.append_nil _).symm
  | nonceLength hgives =>
    -- the system has nonces of all sizes
    rw [hsystem] at hgives
    cases hgives
  | transport hgives =>
    show _ = before.events ++ signer.signLog size (.failed .transport)
    rw [signer.signLog_failed size .transport nofun, ← hgives.events_eq]
    rfl
  | label hgives =>
    show _ = before.events ++ signer.signLog size (.failed .configuration)
    rw [signer.signLog_failed size .configuration nofun, ← hgives.events_eq]
    rfl
  | made hgives hanswer =>
    show _ = before.events ++ signer.signLog size .made
    rw [signLog_made hanswer, ← hgives.events_eq]
    exact List.append_assoc _ _ _

theorem reads_verify (signer : Signer κ) (signature payload : Bytes) :
    (signer.verify signature payload).Reads Upshot.verdict
      (signer.outline? signature) signer.verifyLog := by
  have hask : signer.verify signature payload =
      askOnce (Envelope.decode (Dialect.signer (KeySource.kind signer.keys)) signature)
        (fun envelope key =>
          [.signatureChecked signer.hash envelope.version.isSome (envelope.nonce.getD [] != [])
          (signer.hash.checkMac key payload (envelope.nonce.getD []) envelope.payload)])
        (fun envelope key =>
          .ok (signer.hash.checkMac key payload (envelope.nonce.getD []) envelope.payload))
            signer.keys := rfl
  rw [hask]
  refine reads_askOnce signer.keys (fun _ => rfl)
    (fun _ => List.append_nil _) (fun envelope key => ?_)
    fun _ _ => Bool.false_ne_true
  have hsalted : (envelope.nonce.getD [] != []) = ((envelope.nonce.getD []).length != 0) := by
    cases envelope.nonce.getD [] <;> rfl
  rw [hsalted]
  rfl

end Signer

namespace Csrf

variable {κ : Type} [KeySource κ] {csrf : Csrf κ}

theorem logs_issue (hsystem : csrf.signer.nonces = .system) (session : String) :
    (csrf.issue session).Logs (fun _ => .made) (csrf.signer.signLog csrf.nonceSize) := by
  rw [issue, bind_pure_comp]
  exact .map csrf.encoding.encode (fun _ => rfl)
    (Signer.logs_sign hsystem (utf8 session) csrf.nonceSize)

/-- The outline of the text, read for the kind that the key source declares. -/
def outline? (csrf : Csrf κ) (token : String) : Option Outline :=
  csrf.encoding.outline? (Dialect.signer (KeySource.kind csrf.signer.keys)) token

theorem reads_validate (csrf : Csrf κ) (token session : String) :
    (csrf.validate token session).Reads Upshot.verdict
      (csrf.outline? token) csrf.signer.verifyLog :=
  .text (fun _ => rfl) fun bytes => csrf.signer.reads_verify bytes (utf8 session)

end Csrf

/-! ## All operations -/

/-- The constructor of an operation, with the length of a plaintext and the size of a nonce in place
of its arguments. -/
inductive Operation.Shape where
  | encode (length : Nat)
  | decode
  | encodeText (length : Nat)
  | decodeText
  | sign (nonceSize : UInt8)
  | verify
  | issue
  | validate
deriving DecidableEq, Repr

namespace Operation

/-- The shape of an operation. -/
def shape : Operation → Shape
  | .encode plaintext => .encode plaintext.length
  | .decode _ => .decode
  | .encodeText plaintext => .encodeText plaintext.length
  | .decodeText _ => .decodeText
  | .sign _ nonceSize => .sign nonceSize
  | .verify _ _ => .verify
  | .issue _ => .issue
  | .validate _ _ => .validate

/-- The operation is `decode` or `decodeText`. -/
def Shape.isDecode : Shape → Bool
  | decode | decodeText => true
  | _ => false

/-- The operation reads a token. -/
def Shape.isRead : Shape → Bool
  | decode | decodeText | verify | validate => true
  | _ => false

end Operation

namespace Services

variable {κ : Type}

/-- The service of the operation was built. -/
def has (services : Services κ) : Operation.Shape → Bool
  | .encode _ | .decode | .encodeText _ | .decodeText => services.codec.isOk
  | .sign _ | .verify => services.signer.isOk
  | .issue | .validate => services.csrf.isOk

variable [KeySource κ] {services : Services κ}

/-- The outline of the token that the operation reads. -/
def outline? (services : Services κ) : Operation → Option Outline
  | .decode envelope => services.codec.toOption.bind fun codec => codec.outline? envelope
  | .decodeText token => services.codec.toOption.bind fun codec => codec.textOutline? token
  | .verify signature _ => services.signer.toOption.bind fun signer => signer.outline? signature
  | .validate token _ => services.csrf.toOption.bind fun csrf => csrf.outline? token
  | .encode _ | .encodeText _ | .sign _ _ | .issue _ => none

/-- The events of an operation by its shape, the outline of the token that it reads, and its
upshot. -/
def log (services : Services κ) (shape : Operation.Shape) (outline? : Option Outline) :
    Upshot → List Event :=
  match shape with
  | .encode length | .encodeText length =>
    Action.logOf services.codec fun codec => codec.encodeLog length
  | .decode | .decodeText => Action.logOf services.codec fun codec => codec.decodeLog outline?
  | .sign size => Action.logOf services.signer fun signer => signer.signLog size
  | .verify => Action.logOf services.signer fun signer => signer.verifyLog outline?
  | .issue => Action.logOf services.csrf fun csrf => csrf.signer.signLog csrf.nonceSize
  | .validate => Action.logOf services.csrf fun csrf => csrf.signer.verifyLog outline?

/-- The events of every operation are `log` of its shape, the outline of its token and its
upshot. -/
theorem logs_perform (hsystem : services.FromSystem) (operation : Operation) :
    (services.perform operation).Logs Product.upshot
      (services.log operation.shape (services.outline? operation)) := by
  cases operation with
  | encode plaintext =>
    refine Action.logs_service fun codec _ => ?_
    exact .map Product.bytes (fun _ => rfl) (codec.logs_encode plaintext)
  | encodeText plaintext =>
    refine Action.logs_service fun codec _ => ?_
    exact .map Product.text (fun _ => rfl) (codec.logs_encodeText plaintext)
  | decode envelope =>
    refine Action.logs_service fun codec hcodec => ?_
    rw [outline?, hcodec]
    exact .map Product.bytes (fun _ => rfl) (codec.reads_decode envelope).logs
  | decodeText token =>
    refine Action.logs_service fun codec hcodec => ?_
    rw [outline?, hcodec]
    exact .map Product.bytes (fun _ => rfl) (codec.reads_decodeText token).logs
  | sign payload size =>
    refine Action.logs_service fun signer hsigner => ?_
    exact .map Product.bytes (fun _ => rfl)
      (Signer.logs_sign (hsystem.signer_nonces signer hsigner) payload size)
  | verify signature payload =>
    refine Action.logs_service fun signer hsigner => ?_
    rw [outline?, hsigner]
    exact .map Product.verdict (fun _ => rfl) (signer.reads_verify signature payload).logs
  | issue session =>
    refine Action.logs_service fun csrf hcsrf => ?_
    exact .map Product.text (fun _ => rfl)
      (Csrf.logs_issue (hsystem.csrf_nonces csrf hcsrf) session)
  | validate token session =>
    refine Action.logs_service fun csrf hcsrf => ?_
    rw [outline?, hcsrf]
    exact .map Product.verdict (fun _ => rfl) (csrf.reads_validate token session).logs

/-- The token that an operation reads has no outline exactly if the service was not built or the
upshot is unread. -/
theorem outline?_eq_none_iff (services : Services κ) (operation : Operation) (before : Ambient) :
    services.outline? operation = none ↔ (operation.shape.isRead → services.has operation.shape →
      (Upshot.of Product.upshot ((services.perform operation).run before).1).isUnread) := by
  cases operation with
  | encode | encodeText | sign | issue => exact iff_of_true rfl nofun
  | decode envelope =>
    refine Iff.trans ?_ (imp_iff_right rfl).symm
    exact Action.unread_service_iff
      (fun codec => .map Product.bytes (fun _ => rfl) (codec.reads_decode envelope)) before
  | decodeText token =>
    refine Iff.trans ?_ (imp_iff_right rfl).symm
    exact Action.unread_service_iff
      (fun codec => .map Product.bytes (fun _ => rfl) (codec.reads_decodeText token)) before
  | verify signature payload =>
    refine Iff.trans ?_ (imp_iff_right rfl).symm
    exact Action.unread_service_iff
      (fun signer =>
        .map Product.verdict (fun _ => rfl) (signer.reads_verify signature payload)) before
  | validate token session =>
    refine Iff.trans ?_ (imp_iff_right rfl).symm
    exact Action.unread_service_iff
      (fun csrf => .map Product.verdict (fun _ => rfl) (csrf.reads_validate token session)) before

end Services

/-! ## Silent failures -/

/-- The event is recorded by a service, and not by a key source for a query to a store. -/
def Event.ofService : Event → Bool
  | fetchingSecret .. | fetchingParameter .. => false
  | _ => true

section

variable {κ : Type} [KeySource κ] {event : Event} {kind : TokenError.Kind}
  {outline? : Option Outline}

theorem KeySource.ofService_of_mem_reports {keys : κ} {version : Option KeyVersion}
    (h : event ∈ reports keys version) : event.ofService = false := by
  obtain ⟨query, -, rfl⟩ := List.mem_map.mp h
  cases query <;> rfl

theorem Codec.encodeLog_failed (codec : Codec κ) (length : Nat) (kind : TokenError.Kind) :
    codec.encodeLog length (.failed kind) = KeySource.reports codec.keys none := by
  rw [encodeLog, if_neg nofun, List.append_nil]

theorem Codec.ofService_of_mem_decodeLog {codec : Codec κ} (hkind : kind ≠ .authentication)
    (h : event ∈ codec.decodeLog outline? (.failed kind)) : event.ofService = false := by
  cases outline? with
  | none => cases h
  | some outline =>
    have hlog : codec.decodeLog (some outline) (.failed kind) =
        KeySource.reports codec.keys outline.version := by
      cases kind with
      | authentication => exact absurd rfl hkind
      | configuration | transport | malformedEnvelope | cipher | entropy | encoding =>
        exact List.append_nil _
    rw [hlog] at h
    exact KeySource.ofService_of_mem_reports h

theorem Signer.ofService_of_mem_signLog {signer : Signer κ} {size : UInt8}
    (h : event ∈ signer.signLog size (.failed kind)) : event.ofService = false := by
  by_cases hkind : kind = .entropy
  · rw [signLog, if_pos (congrArg _ hkind)] at h
    cases h
  · rw [signer.signLog_failed size kind hkind] at h
    exact KeySource.ofService_of_mem_reports h

theorem Signer.ofService_of_mem_verifyLog {signer : Signer κ}
    (h : event ∈ signer.verifyLog outline? (.failed kind)) : event.ofService = false := by
  cases outline? with
  | none => cases h
  | some outline =>
    have hlog : signer.verifyLog (some outline) (.failed kind) =
        KeySource.reports signer.keys outline.version := List.append_nil _
    rw [hlog] at h
    exact KeySource.ofService_of_mem_reports h

theorem Action.mem_logOf_iff {σ : Type} {service : Except TokenError σ}
    {log : σ → Upshot → List Event} {upshot : Upshot} :
    event ∈ logOf service log upshot ↔ ∃ built, service = .ok built ∧ event ∈ log built upshot := by
  cases service with
  | error e => simp [logOf]
  | ok built => simp [logOf]

/-- The log of an operation that fails has no events of services, unless it opens a token and fails
with `authentication`. -/
theorem Services.ofService_of_mem_log {services : Services κ} {shape : Operation.Shape}
    (hkind : shape.isDecode → kind ≠ .authentication)
    (h : event ∈ services.log shape outline? (.failed kind)) : event.ofService = false := by
  cases shape with
  | encode length | encodeText length =>
    obtain ⟨codec, -, hmem⟩ := Action.mem_logOf_iff.mp h
    rw [codec.encodeLog_failed] at hmem
    exact KeySource.ofService_of_mem_reports hmem
  | decode | decodeText =>
    obtain ⟨codec, -, hmem⟩ := Action.mem_logOf_iff.mp h
    exact Codec.ofService_of_mem_decodeLog (hkind rfl) hmem
  | sign size =>
    obtain ⟨signer, -, hmem⟩ := Action.mem_logOf_iff.mp h
    exact Signer.ofService_of_mem_signLog hmem
  | verify =>
    obtain ⟨signer, -, hmem⟩ := Action.mem_logOf_iff.mp h
    exact Signer.ofService_of_mem_verifyLog hmem
  | issue =>
    obtain ⟨csrf, -, hmem⟩ := Action.mem_logOf_iff.mp h
    exact Signer.ofService_of_mem_signLog hmem
  | validate =>
    obtain ⟨csrf, -, hmem⟩ := Action.mem_logOf_iff.mp h
    exact Signer.ofService_of_mem_verifyLog hmem

end

end SealedToken
