import SealedToken.Key.Fixed
import SealedToken.Proofs.Envelope.Grammar
import SealedToken.Proofs.Cipher.Opening
import SealedToken.Proofs.Service.Refusal

/-!
# Encrypted tokens and signatures are told apart

A codec and a signer may share their keys, and the tokens of both are envelopes. Neither accepts a
token of the other.

* `Envelope.decode_of_salted`: a reader without a place for nonces refuses an envelope with one.
* `Codec.run_decode_of_sign`: salted signatures are malformed for every codec, and no key is asked
  for.
* `CipherSuite.Seals.length_payload`: the payload of an encrypted token is 28 bytes longer than its
  plaintext.
* `Signer.not_verify_of_encode`: so it is no authentication code of a hash with another length.
* `tokens_not_interchangeable`: both.
-/

namespace SealedToken

variable {κ κ' : Type}

/-! ## Salted envelopes -/

/-- Where nonces are not allowed, `Found.read` refuses a nonce entry at its tag. -/
theorem Found.read_entry_nonce {options : Dialect} (found : Found) (value tail : Bytes)
    (h : options.allowNonce = false) :
    found.read options (Envelope.entry .nonce (some value) ++ tail) =
      .error (.unexpectedTag EntryTag.nonce.code) := by
  have hplace : options.tag? EntryTag.nonce.code = none := by
    rw [Dialect.tag?_eq_none_iff]
    refine ⟨by decide, fun tag hallowed hcode => ?_⟩
    obtain rfl := EntryTag.code_injective hcode
    simp [Dialect.Allows, h] at hallowed
  rw [Envelope.entry, List.cons_append, Found.read, hplace]

namespace Envelope

variable {options : Dialect} {envelope : Envelope} {bytes nonce : Bytes}

/-- `reread` of a version that has bytes fails with `invalidVersion` only. -/
theorem exists_reason_of_reread {kind : KeyVersion.Kind} {version : Option KeyVersion}
    {raw : Option Bytes} {e : EnvelopeError} (hraw : versionBytes version = .ok raw)
    (h : reread kind version = .error e) :
    ∃ reason, e = .invalidVersion reason := by
  cases version with
  | none => cases h
  | some version =>
    obtain ⟨bs, hto, -⟩ := versionBytes_some_iff.mp hraw
    simp only [reread, hto, bind_eq_error_iff, map_eq_error_iff, Except.ok.injEq,
      exists_eq_left', reduceCtorEq, false_or] at h
    exact KeyVersion.exists_reason_of_ofBytes h

/-- Where nonces are not allowed, `decode` of a salted envelope rereads its version and then refuses
the nonce tag. -/
theorem decode_of_salted (h : envelope.encode = .ok bytes) (hnonce : envelope.nonce = some nonce)
    (hne : nonce ≠ []) (hno : options.allowNonce = false) :
    decode options bytes = (do
      let _ ← reread options.kind envelope.version
      .error (.unexpectedTag EntryTag.nonce.code)) := by
  obtain ⟨-, raw, hraw, rfl⟩ := encode_eq_ok_iff.mp h
  rw [decode_eq_read, hnonce, writtenNonce_some hne, List.append_assoc]
  cases hversion : envelope.version with
  | none =>
    rw [hversion, versionBytes_none_iff] at hraw
    rw [hraw, entry_none, List.nil_append, Found.read_entry_nonce _ _ _ hno]
    rfl
  | some version =>
    rw [hversion, versionBytes_some_iff] at hraw
    obtain ⟨bs, hto, rfl⟩ := hraw
    have hterminal : EntryTag.version ≠ .terminal := nofun
    rw [Found.read_entry hterminal nofun (KeyVersion.length_of_toBytes hto), reread, hto]
    show ((KeyVersion.ofBytes options.kind bs).map fun version => Found.mk (some version) none) >>=
      (fun found => found.read options _) = ((KeyVersion.ofBytes options.kind bs).map some) >>= _
    cases KeyVersion.ofBytes options.kind bs with
    | error e => rfl
    | ok version => exact Found.read_entry_nonce _ _ _ hno

/-- Where nonces are not allowed, `decode` of a salted envelope fails with `invalidVersion`, or else
with `unexpectedTag` at the nonce. -/
theorem exists_error_of_salted (h : envelope.encode = .ok bytes)
    (hnonce : envelope.nonce = some nonce) (hne : nonce ≠ []) (hno : options.allowNonce = false) :
    ∃ e, decode options bytes = .error e ∧
      ((∃ reason, e = .invalidVersion reason) ∨ e = .unexpectedTag EntryTag.nonce.code) := by
  obtain ⟨-, raw, hraw, -⟩ := encode_eq_ok_iff.mp h
  rw [decode_of_salted h hnonce hne hno]
  cases hread : reread options.kind envelope.version with
  | error e => exact ⟨e, rfl, .inl (exists_reason_of_reread hraw hread)⟩
  | ok version => exact ⟨_, rfl, .inr rfl⟩

end Envelope

variable [KeySource κ] [KeySource κ'] {before after : Ambient}

/-- `decode` of a salted signature fails with `malformedEnvelope` in every codec, without any
effect. -/
theorem Codec.run_decode_of_sign {signer : Signer κ} {payload signature : Bytes} {size : UInt8}
    (hsigned : (signer.sign payload size).run before = (.ok signature, after)) (hsize : size ≠ 0)
    (codec : Codec κ') (ambient : Ambient) :
    ∃ e, (codec.decode signature).run ambient = (.error (.malformedEnvelope e), ambient) ∧
      ((∃ reason, e = .invalidVersion reason) ∨ e = .unexpectedTag EntryTag.nonce.code) := by
  obtain ⟨nonce, middle, resolved, hdraw, -, hframe, -⟩ := Signer.run_sign_eq_ok_iff.mp hsigned
  have hne : nonce ≠ [] := by
    rintro rfl
    exact hsize (UInt8.toNat_inj.mp (NonceSource.length_of_draw hdraw).symm)
  obtain ⟨e, hread, he⟩ : ∃ e, codec.read signature = .error e ∧ _ :=
    Envelope.exists_error_of_salted hframe rfl hne rfl
  exact ⟨e, run_decode_of_malformed hread, he⟩

/-! ## Sealed envelopes -/

/-- The payload of an encrypted token is 28 bytes longer than the plaintext: the nonce
and the tag. -/
theorem CipherSuite.Seals.length_payload {suite : CipherSuite} {version : Option KeyVersion}
    {nonce : Nonce} {key plaintext bytes : Bytes} {options : Dialect} {envelope : Envelope}
    (h : suite.Seals version key nonce plaintext bytes)
    (hread : Envelope.decode options bytes = .ok envelope) :
    envelope.payload.length = plaintext.length + 28 := by
  obtain ⟨cipher, sealed, -, hseal, hframe⟩ := h
  rw [Envelope.decode_of_encode hframe nofun, map_eq_ok_iff] at hread
  obtain ⟨found, -, rfl⟩ := hread
  have hlength : (nonce.bytes ++ sealed).length =
      SealedToken.nonceLength + (plaintext.length + tagLength) :=
    Cipher.Yields.length_eq ⟨nonce, sealed, rfl, hseal⟩
  rw [hlength]
  show 12 + (plaintext.length + 16) = _
  omega

/-- `verify` never accepts an encrypted token under a hash whose codes differ in length from its
payload. -/
theorem Signer.not_verify_of_encode {codec : Codec κ} {plaintext bytes : Bytes}
    (hmade : (codec.encode plaintext).run before = (.ok bytes, after)) {signer : Signer κ'}
    (hlength : signer.hash.outputLength ≠ plaintext.length + 28)
    (payload : Bytes) (ambient : Ambient) :
    ((signer.verify bytes payload).run ambient).1 ≠ .ok true := by
  intro htrue
  obtain ⟨resolved, nonce, -, -, -, hseals, -⟩ := Codec.run_encode_eq_ok_iff.mp hmade
  obtain ⟨envelope, found, hread, -, hgenuine⟩ := verify_eq_ok_iff.mp htrue
  have hcode := congrArg List.length (hgenuine.mp rfl)
  rw [hseals.length_payload hread, HashAlgorithm.mac, HashAlgorithm.length_hmac] at hcode
  exact hlength hcode.symm

/-! ## Both -/

/-- `decode` of a salted signature fails with `malformedEnvelope` in every codec over any keys,
without asking for a key. `verify` accepts no encrypted token, for any payload and over any keys,
under a hash whose codes differ in length from its payload. -/
theorem tokens_not_interchangeable :
    (∀ (κ κ' : Type) [KeySource κ] [KeySource κ'] (signer : Signer κ) (codec : Codec κ')
      (payload signature : Bytes) (size : UInt8) (before after ambient : Ambient), size ≠ 0 →
      (signer.sign payload size).run before = (.ok signature, after) →
      ∃ e, (codec.decode signature).run ambient = (.error (.malformedEnvelope e), ambient)) ∧
    ∀ (κ κ' : Type) [KeySource κ] [KeySource κ'] (codec : Codec κ) (signer : Signer κ')
      (plaintext bytes payload : Bytes) (before after ambient : Ambient),
      signer.hash.outputLength ≠ plaintext.length + 28 →
      (codec.encode plaintext).run before = (.ok bytes, after) →
      ((signer.verify bytes payload).run ambient).1 ≠ .ok true := by
  constructor
  · intro κ κ' _ _ signer codec payload signature size before after ambient hsize hsigned
    obtain ⟨e, hrun, -⟩ := Codec.run_decode_of_sign hsigned hsize codec ambient
    exact ⟨e, hrun⟩
  · intro κ κ' _ _ codec signer plaintext bytes payload before after ambient hlength hmade
    exact Signer.not_verify_of_encode hmade hlength payload ambient

/-- A key of 32 bytes, under which both services can be built. -/
def sharedKey : FixedKey := ⟨List.replicate 32 1, some (.number 7)⟩

/-- A signature and an encrypted token under one key, neither of which the other service takes. -/
theorem tokens_not_interchangeable_under_one_key :
    ∃ signature bytes after after' e,
      ((Signer.ofHash .sha256 sharedKey).sign [4] 2).run ⟨[5, 6], [], []⟩ = (.ok signature, after) ∧
      ((Codec.ofSuite .aesGcm sharedKey).encode [1, 2, 3]).run ⟨List.replicate 12 0, [], []⟩ =
        (.ok bytes, after') ∧
      ((Codec.ofSuite .aesGcm sharedKey).decode signature).run after =
        (.error (.malformedEnvelope e), after) ∧
      (((Signer.ofHash .sha256 sharedKey).verify bytes [4]).run after').1 ≠ .ok true := by
  let signer := Signer.ofHash .sha256 sharedKey
  let codec := Codec.ofSuite .aesGcm sharedKey
  have hdraw : (signer.nonces.draw 2).run ⟨[5, 6], [], []⟩ =
      (.ok [5, 6], ⟨[], [.draw 2], []⟩) := rfl
  have hanswer : (KeySource.lookup sharedKey none).answer =
      .ok ⟨List.replicate 32 1, some (.number 7)⟩ := rfl
  have hkind : ∀ version ∈ some (KeyVersion.number 7), version.kind = KeySource.kind sharedKey := by
    rintro _ ⟨⟩
    rfl
  obtain ⟨signature, after, hsigned⟩ := signer.exists_run_sign hdraw hanswer rfl [4]
  obtain ⟨bytes, after', hmade⟩ : ∃ bytes after',
      (codec.encode [1, 2, 3]).run ⟨List.replicate 12 0, [], []⟩ = (.ok bytes, after') :=
    Codec.exists_run_encode hanswer hkind (by decide) (by decide) (by decide) rfl
  obtain ⟨e, hrefused⟩ :=
    tokens_not_interchangeable.1 _ _ signer codec _ _ 2 _ _ after (by decide) hsigned
  have hfalse := tokens_not_interchangeable.2 _ _ codec signer _ _ [4] _ _ after' (by decide) hmade
  exact ⟨signature, bytes, after, after', e, hsigned, hmade, hrefused, hfalse⟩

end SealedToken
