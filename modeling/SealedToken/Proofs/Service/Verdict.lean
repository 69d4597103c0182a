import SealedToken.Proofs.Envelope.Fault
import SealedToken.Proofs.Service.Signer

/-!
# The outcomes of verification

`Signer.verify` has three ends: the signature is malformed, its key cannot be had, or its code is
compared with the right one.

* `Signer.read`: a signature as an envelope.
* `Signer.run_verify_of_malformed`, `Signer.run_verify_of_unresolved`,
  `Signer.run_verify_of_resolved`: the three runs, with the ambients they leave.
* `Signer.run_verify_congr`: an absent nonce entry and an empty one give the same run.
* `Signer.verify_outcomes`: `verify` has exactly these outcomes.
-/

namespace SealedToken

theorem HashAlgorithm.checkMac_eq_decide (hash : HashAlgorithm) (key payload nonce code : Bytes) :
    hash.checkMac key payload nonce code = decide (code = hash.mac key payload nonce) := by
  rw [checkMac, Bool.eq_iff_iff, beq_iff_eq, decide_eq_true_iff, eq_comm]

namespace Signer

variable {κ : Type} [KeySource κ]

/-- The envelope in the signature, read for the kind that the key source declares. -/
def read (signer : Signer κ) (signature : Bytes) : Except EnvelopeError Envelope :=
  Envelope.decode (Dialect.signer (KeySource.kind signer.keys)) signature

variable {signer : Signer κ} {signature payload : Bytes} {before : Ambient} {envelope : Envelope}

/-! ## Runs -/

/-- The run of `verify` on a signature that is read: it resolves the version and compares the
codes. -/
theorem run_verify_of_read (h : signer.read signature = .ok envelope) :
    (signer.verify signature payload).run before =
      ((KeySource.resolve signer.keys envelope.version).mapError TokenError.transport >>=
        fun resolved => do
        let genuine := decide (envelope.payload =
          signer.hash.mac resolved.key payload (envelope.nonce.getD []))
        Action.emit (.signatureChecked signer.hash envelope.version.isSome
          (envelope.nonce.getD [] != []) genuine)
        return genuine).run before := by
  simp only [← HashAlgorithm.checkMac_eq_decide]
  exact Envelope.run_decode_bind_of_ok h

/-- `verify` of a signature that is not read fails with `malformedEnvelope`, without any effect. -/
theorem run_verify_of_malformed {e : EnvelopeError} (h : signer.read signature = .error e) :
    (signer.verify signature payload).run before = (.error (.malformedEnvelope e), before) :=
  Envelope.run_decode_bind_of_error h

/-- Without the key of its version a signature is not judged. -/
theorem run_verify_of_unresolved {e : KeyError} (h : signer.read signature = .ok envelope)
    (hanswer : (KeySource.lookup signer.keys envelope.version).answer = .error e) :
    (signer.verify signature payload).run before =
      (.error (.transport e),
        before.asked envelope.version (KeySource.lookup signer.keys envelope.version)) := by
  rw [run_verify_of_read h, KeySource.run_resolve_bind_of_error hanswer]

/-- `verify` with the key of the version gives whether the signature carries the right code. -/
theorem run_verify_of_resolved {resolved : VersionedKey} (h : signer.read signature = .ok envelope)
    (hanswer : (KeySource.lookup signer.keys envelope.version).answer = .ok resolved) :
    (signer.verify signature payload).run before =
      (.ok (decide (envelope.payload =
          signer.hash.mac resolved.key payload (envelope.nonce.getD []))),
        (before.asked envelope.version (KeySource.lookup signer.keys envelope.version)).reported
          [.signatureChecked signer.hash envelope.version.isSome (envelope.nonce.getD [] != [])
            (decide (envelope.payload =
              signer.hash.mac resolved.key payload (envelope.nonce.getD [])))]) := by
  rw [run_verify_of_read h, KeySource.run_resolve_bind_of_ok hanswer,
    Action.run_bind_ok (Action.run_emit _)]
  rfl

/-- `verify` runs alike on signatures with the same version, the same code and the same nonce
bytes. -/
theorem run_verify_congr {other : Bytes} {envelope' : Envelope}
    (h : signer.read signature = .ok envelope)
    (h' : signer.read other = .ok envelope') (hversion : envelope'.version = envelope.version)
    (hnonce : envelope'.nonce.getD [] = envelope.nonce.getD [])
    (hcode : envelope'.payload = envelope.payload) :
    (signer.verify other payload).run before = (signer.verify signature payload).run before := by
  rw [run_verify_of_read h, run_verify_of_read h', hversion, hnonce, hcode]

/-! ## Outcomes -/

/-- The outcome of `verify`: it reads the signature, looks up the key of its version and compares
the codes. -/
theorem outcome_verify_read (signer : Signer κ) (signature payload : Bytes) (before : Ambient) :
    ((signer.verify signature payload).run before).1 = (do
      let envelope ← (signer.read signature).mapError .malformedEnvelope
      let resolved ← (KeySource.lookup signer.keys envelope.version).answer.mapError .transport
      return decide (envelope.payload =
        signer.hash.mac resolved.key payload (envelope.nonce.getD []))) := by
  simp only [outcome_verify, HashAlgorithm.checkMac_eq_decide]
  rw [Envelope.mapError_decode]
  rfl

theorem verify_eq_malformed_iff {e : EnvelopeError} :
    ((signer.verify signature payload).run before).1 = .error (.malformedEnvelope e) ↔
      signer.read signature = .error e := by
  simp [outcome_verify_read, -bind_pure_comp]

theorem verify_eq_transport_iff {e : KeyError} :
    ((signer.verify signature payload).run before).1 = .error (.transport e) ↔
      ∃ envelope, signer.read signature = .ok envelope ∧
        (KeySource.lookup signer.keys envelope.version).answer = .error e := by
  simp [outcome_verify_read, -bind_pure_comp]

theorem verify_eq_ok_iff {genuine : Bool} :
    ((signer.verify signature payload).run before).1 = .ok genuine ↔
      ∃ envelope resolved, signer.read signature = .ok envelope ∧
        (KeySource.lookup signer.keys envelope.version).answer = .ok resolved ∧
        (genuine = true ↔
          envelope.payload = signer.hash.mac resolved.key payload (envelope.nonce.getD [])) := by
  simp only [outcome_verify_read, bind_eq_ok_iff, mapError_eq_ok_iff, pure_eq_ok_iff]
  constructor
  · rintro ⟨envelope, hread, resolved, hanswer, rfl⟩
    exact ⟨envelope, resolved, hread, hanswer, decide_eq_true_iff⟩
  · rintro ⟨envelope, resolved, hread, hanswer, hgenuine⟩
    refine ⟨envelope, hread, resolved, hanswer, ?_⟩
    rw [Bool.eq_iff_iff, decide_eq_true_iff, hgenuine]

/-- `verify` fails with `malformedEnvelope` or `transport` only. -/
theorem verify_error_cases {error : TokenError}
    (h : ((signer.verify signature payload).run before).1 = .error error) :
    (∃ e, error = .malformedEnvelope e) ∨ ∃ e, error = .transport e := by
  simp only [outcome_verify_read, bind_eq_error_iff, mapError_eq_error_iff,
    pure_ne_error, and_false, exists_false, or_false] at h
  rcases h with ⟨e, -, rfl⟩ | ⟨-, -, e, -, rfl⟩
  · exact .inl ⟨e, rfl⟩
  · exact .inr ⟨e, rfl⟩

/-- `verify` fails with `malformedEnvelope` exactly if the signature is not read, and then without
asking for a key. It fails with `transport` exactly if the lookup of the version fails, which it
asks for once. Otherwise it gives whether the code is that of the payload and the nonce, so behind
the same entries one code is accepted. A missing nonce and an empty one give the same result. -/
theorem verify_outcomes (signer : Signer κ) (signature payload : Bytes) (before : Ambient) :
    (∀ e, ((signer.verify signature payload).run before).1 = .error (.malformedEnvelope e) ↔
      signer.read signature = .error e) ∧
    (∀ e, ((signer.verify signature payload).run before).1 = .error (.transport e) ↔
      ∃ envelope, signer.read signature = .ok envelope ∧
        (KeySource.lookup signer.keys envelope.version).answer = .error e) ∧
    (∀ genuine, ((signer.verify signature payload).run before).1 = .ok genuine ↔
      ∃ envelope resolved, signer.read signature = .ok envelope ∧
        (KeySource.lookup signer.keys envelope.version).answer = .ok resolved ∧
        (genuine = true ↔
          envelope.payload = signer.hash.mac resolved.key payload (envelope.nonce.getD []))) ∧
    (∀ error, ((signer.verify signature payload).run before).1 = .error error →
      (∃ e, error = .malformedEnvelope e) ∨ ∃ e, error = .transport e) ∧
    (∀ e, signer.read signature = .error e →
      ((signer.verify signature payload).run before).2 = before) ∧
    (∀ envelope, signer.read signature = .ok envelope →
      ((signer.verify signature payload).run before).2.calls =
        before.calls ++ .resolve envelope.version ::
          (KeySource.lookup signer.keys envelope.version).queries.map .fetch) ∧
    (∀ version code other, signer.read signature = .ok ⟨version, none, code⟩ →
      signer.read other = .ok ⟨version, some [], code⟩ →
      (signer.verify other payload).run before = (signer.verify signature payload).run before) ∧
    ∀ envelope resolved, signer.read signature = .ok envelope →
      (KeySource.lookup signer.keys envelope.version).answer = .ok resolved →
      ∃ head, signature = head ++ envelope.payload ∧
        ∀ code, ((signer.verify (head ++ code) payload).run before).1 =
          .ok (decide (code = signer.hash.mac resolved.key payload (envelope.nonce.getD []))) := by
  refine ⟨?_, ?_, ?_, ?_, ?_, ?_, ?_, ?_⟩
  · exact fun e => verify_eq_malformed_iff
  · exact fun e => verify_eq_transport_iff
  · exact fun genuine => verify_eq_ok_iff
  · exact fun error => verify_error_cases
  · intro e hread
    rw [run_verify_of_malformed hread]
  · intro envelope hread
    cases hanswer : (KeySource.lookup signer.keys envelope.version).answer with
    | error e =>
      rw [run_verify_of_unresolved hread hanswer]
      rfl
    | ok resolved =>
      rw [run_verify_of_resolved hread hanswer]
      rfl
  · intro version code other hread hother
    exact run_verify_congr hread hother rfl rfl rfl
  -- the code is whatever follows the entries, so another one takes its place
  · intro envelope resolved hread hanswer
    obtain ⟨head, hsignature, hbehind⟩ := Envelope.exists_head_of_decode hread
    refine ⟨head, hsignature, fun code => ?_⟩
    have hcode : signer.read (head ++ code) = .ok { envelope with payload := code } := hbehind code
    rw [run_verify_of_resolved hcode hanswer]

end Signer

end SealedToken
