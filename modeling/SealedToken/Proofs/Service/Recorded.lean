import SealedToken.Key.Fixed
import SealedToken.Proofs.Envelope.Fault
import SealedToken.Service.Codec
import SealedToken.Service.Signer

/-!
# The recorded version of a token

`Codec.decode` and `Signer.verify` ask the key source for the key of the version in the token, once,
and use nothing of the answer but the key.

* `KeySource.SameKey`: two sources give the same key for a version, or fail with the same error.
* `UsesRecordedKey`: the action reads an envelope, asks for the key of its version, and depends on
  the source only through this key.
* `UsesRecordedKey.of_ask_once`: every action that asks once and then reports and judges is one.
* `readers_use_recorded_key`: so are `Codec.decode` and `Signer.verify`.
-/

namespace SealedToken

variable {α : Type}

/-- Both sources give the same key for the version, or fail with the same error. The versions that
they attach to the key may differ. -/
def KeySource.SameKey {κ κ' : Type} [KeySource κ] [KeySource κ'] (keys : κ) (keys' : κ')
    (version : Option KeyVersion) : Prop :=
  (KeySource.lookup keys version).answer.map VersionedKey.key =
    (KeySource.lookup keys' version).answer.map VersionedKey.key

/-- `read` decides what the action does over sources of the kind. If it is an envelope, the action
resolves its version, once, and has the same outcome over all sources with the same key for that
version. If it is an error, the action fails without asking for a key. -/
structure UsesRecordedKey (kind : KeyVersion.Kind) (read : Except EnvelopeError Envelope)
    (action : ∀ (κ : Type) [KeySource κ], κ → Action TokenError α) : Prop where
  malformed : ∀ (κ : Type) [KeySource κ] (keys : κ) (before : Ambient) (e : EnvelopeError),
    KeySource.kind keys = kind → read = .error e →
    (action κ keys).run before = (.error (.malformedEnvelope e), before)
  asks_once : ∀ (κ : Type) [KeySource κ] (keys : κ) (before : Ambient) (envelope : Envelope),
    KeySource.kind keys = kind → read = .ok envelope →
    ((action κ keys).run before).2.calls = before.calls ++ .resolve envelope.version ::
      (KeySource.lookup keys envelope.version).queries.map .fetch
  outcome_eq : ∀ (κ κ' : Type) [KeySource κ] [KeySource κ'] (keys : κ) (keys' : κ')
    (before before' : Ambient) (envelope : Envelope),
    KeySource.kind keys = kind → KeySource.kind keys' = kind → read = .ok envelope →
    KeySource.SameKey keys keys' envelope.version →
    ((action κ keys).run before).1 = ((action κ' keys').run before').1

/-! ## Asking once -/

/-- Reads an envelope, resolves its version, records the events of both and judges them. -/
def askOnce {κ : Type} [KeySource κ] (read : Except EnvelopeError Envelope)
    (events : Envelope → Bytes → List Event)
    (judge : Envelope → Bytes → Except TokenError α) (keys : κ) :
    Action TokenError α := do
  let envelope ← Action.ofExcept (read.mapError .ofEnvelope)
  let resolved ← (KeySource.resolve keys envelope.version).mapError .transport
  Action.record [] (events envelope resolved.key)
  Action.ofExcept (judge envelope resolved.key)

/-- `askOnce` resolves the version of the envelope, and its outcome is a function of the answer. -/
theorem run_askOnce {κ : Type} [KeySource κ] {options : Dialect}
    {bytes : Bytes} {envelope : Envelope}
    (h : Envelope.decode options bytes = .ok envelope) (events : Envelope → Bytes → List Event)
    (judge : Envelope → Bytes → Except TokenError α) (keys : κ) (before : Ambient) :
    ∃ reported, (askOnce (Envelope.decode options bytes) events judge keys).run before =
      (((KeySource.lookup keys envelope.version).answer.map VersionedKey.key).mapError .transport
          >>= judge envelope,
        (before.asked envelope.version (KeySource.lookup keys envelope.version)).reported
          reported) := by
  rw [askOnce, Envelope.run_decode_bind_of_ok h]
  cases hanswer : (KeySource.lookup keys envelope.version).answer with
  | error e =>
    refine ⟨[], ?_⟩
    rw [KeySource.run_resolve_bind_of_error hanswer, Ambient.reported_nil]
    rfl
  | ok resolved =>
    refine ⟨events envelope resolved.key, ?_⟩
    rw [KeySource.run_resolve_bind_of_ok hanswer,
      Action.run_bind_ok (Action.run_report _), Action.run_ofExcept]
    rfl

/-- Every action that equals `askOnce` over the sources of a kind uses the recorded key. -/
theorem UsesRecordedKey.of_ask_once {kind : KeyVersion.Kind} {options : Dialect} {bytes : Bytes}
    {action : ∀ (κ : Type) [KeySource κ], κ → Action TokenError α}
    (events : Envelope → Bytes → List Event) (judge : Envelope → Bytes → Except TokenError α)
    (h : ∀ (κ : Type) [KeySource κ] (keys : κ), KeySource.kind keys = kind →
      action κ keys = askOnce (Envelope.decode options bytes) events judge keys) :
    UsesRecordedKey kind (Envelope.decode options bytes) action where
  malformed κ _ keys before e hkind hread := by
    rw [h κ keys hkind, askOnce, Envelope.run_decode_bind_of_error hread]
  asks_once κ _ keys before envelope hkind hread := by
    obtain ⟨reported, hrun⟩ := run_askOnce hread events judge keys before
    rw [h κ keys hkind, hrun]
    rfl
  outcome_eq κ κ' _ _ keys keys' before before' envelope hkind hkind' hread hsame := by
    obtain ⟨reported, hrun⟩ := run_askOnce hread events judge keys before
    obtain ⟨reported', hrun'⟩ := run_askOnce hread events judge keys' before'
    have hkey : (KeySource.lookup keys envelope.version).answer.map VersionedKey.key =
      (KeySource.lookup keys' envelope.version).answer.map VersionedKey.key := hsame
    rw [h κ keys hkind, h κ' keys' hkind', hrun, hrun', hkey]

/-! ## The two readers -/

theorem Codec.usesRecordedKey (suite : CipherSuite) (form : TextForm) (kind : KeyVersion.Kind)
    (bytes : Bytes) :
    UsesRecordedKey kind (Envelope.decode (Dialect.codec kind) bytes)
      fun _ _ keys => Codec.decode ⟨suite, form, keys⟩ bytes := by
  refine .of_ask_once
    (fun envelope key => (⟨suite, form, ⟨key, none⟩⟩ : Codec FixedKey).openingEvents
      envelope.version.isSome bytes.length (suite.decode key envelope.payload))
    (fun envelope key => (suite.decode key envelope.payload).mapError .ofCipher) ?_
  rintro κ _ keys rfl
  rfl

theorem Signer.usesRecordedKey (hash : HashAlgorithm) (nonces : NonceSource)
    (kind : KeyVersion.Kind) (signature payload : Bytes) :
    UsesRecordedKey kind (Envelope.decode (Dialect.signer kind) signature)
      fun _ _ keys => Signer.verify ⟨hash, keys, nonces⟩ signature payload := by
  refine .of_ask_once
    (fun envelope key =>
      [.signatureChecked hash envelope.version.isSome (envelope.nonce.getD [] != [])
      (hash.checkMac key payload (envelope.nonce.getD []) envelope.payload)])
    (fun envelope key =>
      .ok (hash.checkMac key payload (envelope.nonce.getD []) envelope.payload)) ?_
  rintro κ _ keys rfl
  rfl

/-- `Codec.decode`, and `Signer.verify` of every payload, use the recorded key: they resolve the
version in the token, once, and their outcome depends on the key source only through the key of that
version. -/
theorem readers_use_recorded_key :
    (∀ (suite : CipherSuite) (form : TextForm) (kind : KeyVersion.Kind) (bytes : Bytes),
      UsesRecordedKey kind (Envelope.decode (Dialect.codec kind) bytes)
        fun _ _ keys => Codec.decode ⟨suite, form, keys⟩ bytes) ∧
    ∀ (hash : HashAlgorithm) (nonces : NonceSource) (kind : KeyVersion.Kind)
      (signature payload : Bytes),
      UsesRecordedKey kind (Envelope.decode (Dialect.signer kind) signature)
        fun _ _ keys => Signer.verify ⟨hash, keys, nonces⟩ signature payload :=
  ⟨Codec.usesRecordedKey, Signer.usesRecordedKey⟩

end SealedToken
