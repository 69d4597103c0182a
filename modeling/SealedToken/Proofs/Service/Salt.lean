import SealedToken.Proofs.Envelope.Canonical
import SealedToken.Proofs.Service.Csrf
import SealedToken.Proofs.Service.Verdict

/-!
# Salted and unsalted tokens against request forgery

The size of nonces is never zero, so every issued token has a salt. `Csrf.validate` does not ask for
one: without a nonce entry, or with an empty one, a token is valid if its code is that of the
session alone.

* `Envelope.Salted`, `Csrf.Carries`: a nonce of one byte or more, and the envelope of a token.
* `Csrf.validate_eq_true_iff`: the tokens that are valid for a session.
* `Csrf.validate_of_unsalted_sign`: the signature of an id without a nonce is one of them.
* `Csrf.salted_of_issue`: issued tokens are salted.
* `Csrf.accepts_only_salted_iff`: a service accepts only salted tokens exactly if it accepts none at
  all.
-/

namespace SealedToken

/-! ## Salts -/

namespace Envelope

variable {envelope : Envelope}

/-- The envelope has a nonce of at least one byte. -/
def Salted (envelope : Envelope) : Prop := ∃ nonce, envelope.nonce = some nonce ∧ nonce ≠ []

/-- An empty nonce is as good as none. -/
theorem not_salted_iff : ¬ envelope.Salted ↔ envelope.nonce.getD [] = [] := by
  rw [Salted]
  cases envelope.nonce with
  | none => simp
  | some nonce => simp

theorem not_salted_none (version : Option KeyVersion) (payload : Bytes) :
    ¬ Salted ⟨version, none, payload⟩ :=
  not_salted_iff.mpr rfl

end Envelope

namespace Csrf

variable {κ : Type} [KeySource κ] {csrf : Csrf κ} {token session : String}
  {before after ambient : Ambient}
  {envelope envelope' : Envelope}

/-! ## Tokens and their envelopes -/

/-- The token is a text of the envelope, read for the kind that the key source declares. -/
def Carries (csrf : Csrf κ) (token : String) (envelope : Envelope) : Prop :=
  ∃ signature, csrf.encoding.readToken token = .ok signature ∧
    csrf.signer.read signature = .ok envelope

theorem Carries.unique (h : csrf.Carries token envelope) (h' : csrf.Carries token envelope') :
    envelope = envelope' := by
  obtain ⟨signature, htext, hread⟩ := h
  obtain ⟨signature', htext', hread'⟩ := h'
  obtain rfl := Except.ok.inj (htext.symm.trans htext')
  exact Except.ok.inj (hread.symm.trans hread')

/-- The text of an envelope that was written carries it, with no nonce in place of an empty one. -/
theorem carries_encode (csrf : Csrf κ) {bytes : Bytes} (hframe : envelope.encode = .ok bytes)
    (hkind : ∀ version ∈ envelope.version, version.kind = KeySource.kind csrf.signer.keys) :
    csrf.Carries (csrf.encoding.encode bytes)
      { envelope with nonce := Envelope.writtenNonce envelope.nonce } :=
  ⟨bytes, TextForm.readToken_encode _ _, Envelope.decode_written hframe hkind fun _ _ _ => rfl⟩

/-- `validate` accepts a token exactly if it carries an envelope with the code of the session and
the nonce under the key of its version. -/
theorem validate_eq_true_iff :
    ((csrf.validate token session).run ambient).1 = .ok true ↔
      ∃ envelope resolved, csrf.Carries token envelope ∧
        (KeySource.lookup csrf.signer.keys envelope.version).answer = .ok resolved ∧
        envelope.payload =
          csrf.signer.hash.mac resolved.key (utf8 session) (envelope.nonce.getD []) := by
  simp only [outcome_validate, bind_eq_ok_iff, Signer.verify_eq_ok_iff, true_iff]
  constructor
  · rintro ⟨signature, htext, envelope, resolved, hread, hanswer, hcode⟩
    exact ⟨envelope, resolved, ⟨signature, htext, hread⟩, hanswer, hcode⟩
  · rintro ⟨envelope, resolved, ⟨signature, htext, hread⟩, hanswer, hcode⟩
    exact ⟨signature, htext, envelope, resolved, hread, hanswer, hcode⟩

/-! ## Unsalted tokens -/

/-- `validate` accepts a token without a salt exactly if it carries the code of the session
alone. -/
theorem validate_unsalted_iff (hcarries : csrf.Carries token envelope) (hsalt : ¬ envelope.Salted) :
    ((csrf.validate token session).run ambient).1 = .ok true ↔
      ∃ resolved, (KeySource.lookup csrf.signer.keys envelope.version).answer = .ok resolved ∧
        envelope.payload = csrf.signer.hash.hmac resolved.key (utf8 session) := by
  have hcode : ∀ key, csrf.signer.hash.mac key (utf8 session) (envelope.nonce.getD []) =
      csrf.signer.hash.hmac key (utf8 session) := by
    intro key
    rw [Envelope.not_salted_iff.mp hsalt, HashAlgorithm.mac, List.append_nil]
  rw [validate_eq_true_iff]
  constructor
  · rintro ⟨found, resolved, hfound, hanswer, hpayload⟩
    obtain rfl := hcarries.unique hfound
    exact ⟨resolved, hanswer, hpayload.trans (hcode _)⟩
  · rintro ⟨resolved, hanswer, hpayload⟩
    exact ⟨envelope, resolved, hcarries, hanswer, hpayload.trans (hcode _).symm⟩

/-- Every version that has a key has an unsalted token that `validate` accepts. -/
theorem exists_unsalted {version : Option KeyVersion} {raw : Option Bytes} {resolved : VersionedKey}
    (hraw : Envelope.versionBytes version = .ok raw)
    (hkind : ∀ v ∈ version, v.kind = KeySource.kind csrf.signer.keys)
    (hanswer : (KeySource.lookup csrf.signer.keys version).answer = .ok resolved) (session : String)
    (ambient : Ambient) :
    ∃ token envelope, csrf.Carries token envelope ∧ ¬ envelope.Salted ∧
      ((csrf.validate token session).run ambient).1 = .ok true := by
  have hframe : Envelope.encode
      ⟨version, none, csrf.signer.hash.hmac resolved.key (utf8 session)⟩ = .ok _ :=
    Envelope.encode_eq_ok_iff.mpr ⟨nofun, raw, hraw, rfl⟩
  have hcarries := csrf.carries_encode hframe hkind
  have hsalt := Envelope.not_salted_none version (csrf.signer.hash.hmac resolved.key (utf8 session))
  exact ⟨_, _, hcarries, hsalt, (validate_unsalted_iff hcarries hsalt).mpr ⟨resolved, hanswer, rfl⟩⟩

/-- `validate` accepts the unsalted signature of an id for as long as its version has the key. -/
theorem validate_of_unsalted_sign {signature : Bytes} {resolved found : VersionedKey}
    (hsigned : (csrf.signer.sign (utf8 session) 0).run before = (.ok signature, after))
    (hcurrent : (KeySource.lookup csrf.signer.keys none).answer = .ok resolved)
    (hkind : ∀ version ∈ resolved.version, version.kind = KeySource.kind csrf.signer.keys)
    (hkept : (KeySource.lookup csrf.signer.keys resolved.version).answer = .ok found)
    (hkey : found.key = resolved.key) (ambient : Ambient) :
    ((csrf.validate (csrf.encoding.encode signature) session).run ambient).1 = .ok true ∧
      ∃ envelope, csrf.Carries (csrf.encoding.encode signature) envelope ∧ ¬ envelope.Salted := by
  obtain ⟨nonce, middle, resolved', hdraw, hanswer, hframe, -⟩ :=
    Signer.run_sign_eq_ok_iff.mp hsigned
  obtain rfl : resolved = resolved' := Except.ok.inj (hcurrent.symm.trans hanswer)
  obtain rfl : nonce = [] := List.length_eq_zero_iff.mp (NonceSource.length_of_draw hdraw)
  have hcarries := csrf.carries_encode hframe hkind
  refine ⟨validate_eq_true_iff.mpr ⟨_, found, hcarries, hkept, ?_⟩, _, hcarries,
    Envelope.not_salted_none _ _⟩
  rw [hkey]
  rfl

/-! ## Services that accept only salted tokens -/

/-- Every token that `validate` accepts for a session carries a salt. -/
def AcceptsOnlySalted (csrf : Csrf κ) : Prop :=
  ∀ token session ambient, ((csrf.validate token session).run ambient).1 = .ok true →
    ∃ envelope, csrf.Carries token envelope ∧ envelope.Salted

/-- Every token that is issued has one. -/
theorem salted_of_issue (hissued : (csrf.issue session).run before = (.ok token, after))
    (hcarries : csrf.Carries token envelope) : envelope.Salted := by
  obtain ⟨signature, hsigned, rfl⟩ := run_issue_eq_ok_iff.mp hissued
  obtain ⟨nonce, middle, resolved, -, hcurrent, -, -⟩ := Signer.run_sign_eq_ok_iff.mp hsigned
  obtain ⟨bytes, htext, hread⟩ := hcarries
  obtain ⟨nonce, hnonce, hlength, -⟩ := envelope_of_issue hissued hcurrent htext hread
  refine ⟨nonce, hnonce, ?_⟩
  rintro rfl
  exact csrf.nonceSize_ne_zero (UInt8.toNat_inj.mp hlength.symm)

/-- `validate` accepts only salted tokens exactly if it accepts none at all: it accepts every
unsalted envelope with the code of the session alone. The tokens that `issue` makes are salted. -/
theorem accepts_only_salted_iff (csrf : Csrf κ) :
    (csrf.AcceptsOnlySalted ↔
      ∀ token session ambient, ((csrf.validate token session).run ambient).1 ≠ .ok true) ∧
    (∀ token envelope, csrf.Carries token envelope → ¬ envelope.Salted → ∀ session ambient,
      (((csrf.validate token session).run ambient).1 = .ok true ↔
        ∃ resolved, (KeySource.lookup csrf.signer.keys envelope.version).answer = .ok resolved ∧
          envelope.payload = csrf.signer.hash.hmac resolved.key (utf8 session))) ∧
    ∀ session token before after envelope, (csrf.issue session).run before = (.ok token, after) →
      csrf.Carries token envelope → envelope.Salted := by
  refine ⟨⟨fun hrule token session ambient hvalid => ?_,
    fun hnone token session ambient hvalid => ?_⟩, ?_, ?_⟩
  -- a token that is accepted shows a version with a key, and an unsalted token of that version is
  -- accepted as well
  · obtain ⟨envelope, resolved, ⟨signature, -, hread⟩, hanswer, -⟩ := validate_eq_true_iff.mp hvalid
    obtain ⟨hfits, raw, hraw, -⟩ := Envelope.decode_eq_ok_iff.mp hread
    obtain ⟨token', envelope', hcarries, hsalt, hvalid'⟩ :=
      exists_unsalted hraw hfits.kind_eq hanswer session ambient
    obtain ⟨found, hfound, hsalted⟩ := hrule token' session ambient hvalid'
    exact hsalt (hcarries.unique hfound ▸ hsalted)
  · exact absurd hvalid (hnone token session ambient)
  · exact fun token envelope hcarries hsalt session ambient => validate_unsalted_iff hcarries hsalt
  · exact fun session token before after envelope => salted_of_issue

/-- A service with nonces of one byte accepts the unsalted signature of the id `a` as a token of the
session `a`. -/
theorem not_only_salted :
    (∃ after, ((ofKey [1, 2, 3]).signer.sign (utf8 "a") 0).run ⟨[], [], []⟩ =
      (.ok (0 :: HashAlgorithm.sha256.mac [1, 2, 3] (utf8 "a") []), after)) ∧
    (((ofKey [1, 2, 3]).validate
      (TextForm.hex.encode (0 :: HashAlgorithm.sha256.mac [1, 2, 3] (utf8 "a") []))
      "a").run ⟨[], [], []⟩).1 = .ok true ∧
    ¬ (ofKey [1, 2, 3]).AcceptsOnlySalted := by
  have hanswer : (KeySource.lookup (FixedKey.mk [1, 2, 3] none) none).answer =
      .ok ⟨[1, 2, 3], none⟩ := rfl
  have hframe : Envelope.encode ⟨none, some [], HashAlgorithm.sha256.mac [1, 2, 3] (utf8 "a") []⟩ =
      .ok (0 :: HashAlgorithm.sha256.mac [1, 2, 3] (utf8 "a") []) := rfl
  have hsigned : ((ofKey [1, 2, 3]).signer.sign (utf8 "a") 0).run ⟨[], [], []⟩ = (.ok _, _) :=
    Signer.run_sign_eq_ok_iff.mpr ⟨[], _, ⟨[1, 2, 3], none⟩, rfl, hanswer, hframe, rfl⟩
  obtain ⟨hvalid, envelope, hcarries, hsalt⟩ :=
    validate_of_unsalted_sign hsigned hanswer nofun hanswer rfl ⟨[], [], []⟩
  refine ⟨⟨_, hsigned⟩, hvalid, fun hrule => ?_⟩
  obtain ⟨found, hfound, hsalted⟩ := hrule _ "a" ⟨[], [], []⟩ hvalid
  exact hsalt (hcarries.unique hfound ▸ hsalted)

end Csrf

end SealedToken
