import SealedToken.Config
import SealedToken.Proofs.Envelope.Fault
import SealedToken.Proofs.Service.Csrf

/-!
# Tokens against request forgery after a change of keys

A token records the version of its key, so every service that has the key under this version, and
uses the same hash and text form, accepts it, whichever key is current.

* `Csrf.validate_of_issue`: an issued token is valid wherever its version has its key.
* `Signer.Fails`, `Signer.sign_eq_error_iff`: the errors of signing with a nonce of the system.
* `Config.csrf_eq_ok_iff`: the service that settings build.
* `Config.tokens_survive_rotation`: its tokens are valid for as long as their version has their key,
  and issuing fails only without random bytes, a key, or room for its label.
-/

namespace SealedToken

variable {κ κ' : Type} [KeySource κ] [KeySource κ'] {before after : Ambient}

/-! ## Tokens of other services -/

/-- A token that `issue` made is accepted by every service with the same hash and text form that
finds the same key under the version of the token. -/
theorem Csrf.validate_of_issue {csrf : Csrf κ} {other : Csrf κ'} {session token : String}
    {resolved found : VersionedKey} (hissued : (csrf.issue session).run before = (.ok token, after))
    (hcurrent : (KeySource.lookup csrf.signer.keys none).answer = .ok resolved)
    (hhash : other.signer.hash = csrf.signer.hash) (hform : other.encoding = csrf.encoding)
    (hkind : ∀ version ∈ resolved.version, version.kind = KeySource.kind other.signer.keys)
    (hkept : (KeySource.lookup other.signer.keys resolved.version).answer = .ok found)
    (hkey : found.key = resolved.key) (ambient : Ambient) :
    ((other.validate token session).run ambient).1 = .ok true := by
  obtain ⟨signature, hsigned, rfl⟩ := run_issue_eq_ok_iff.mp hissued
  obtain ⟨nonce, middle, resolved', -, hanswer, hframe, -⟩ := Signer.run_sign_eq_ok_iff.mp hsigned
  obtain rfl : resolved = resolved' := Except.ok.inj (hcurrent.symm.trans hanswer)
  obtain ⟨-, raw, hraw, -⟩ := Envelope.encode_eq_ok_iff.mp hframe
  have hread : Envelope.reread (KeySource.kind other.signer.keys) resolved.version =
      .ok resolved.version :=
    Envelope.reread_of_kind_eq hraw hkind
  rw [outcome_validate, hform, TextForm.readToken_encode]
  refine (Signer.verify_of_encode_eq_ok_iff hframe).mpr ⟨resolved.version, found, hread, hkept, ?_⟩
  rw [hkey, hhash]

/-! ## Errors of signing -/

/-- The system gives the next random bytes, and fails if there are fewer than asked for. -/
theorem NonceSource.outcome_draw_system (size : UInt8) (before : Ambient) :
    ((system.draw size).run before).1 =
      if size.toNat ≤ before.entropy.length then .ok (before.entropy.take size.toNat)
      else .error (.entropy "entropy exhausted") := by
  rw [draw]
  by_cases hsize : size = 0
  · rw [if_pos hsize, hsize]
    rfl
  · rw [if_neg hsize]
    show ((Action.draw size.toNat).run before).1 = _
    rw [Action.run_draw]
    split <;> rfl

/-- The errors of `sign` with a nonce of the system, in the order in which they are found. -/
inductive Signer.Fails (keys : κ) (size : UInt8) (entropy : Bytes) : TokenError → Prop where
  | entropy : entropy.length < size.toNat → Fails keys size entropy (.entropy "entropy exhausted")
  | transport (cause : KeyError) : size.toNat ≤ entropy.length →
    (KeySource.lookup keys none).answer = .error cause → Fails keys size entropy (.transport cause)
  | label (key : Bytes) (text : String) : size.toNat ≤ entropy.length →
    (KeySource.lookup keys none).answer = .ok ⟨key, some (.label text)⟩ →
      maxLabelLength < (utf8 text).length →
    Fails keys size entropy
      (.configuration (.envelope (.versionTooLong (utf8 text).length maxLabelLength)))

theorem Signer.sign_eq_error_iff {signer : Signer κ} {payload : Bytes} {size : UInt8}
    {e : TokenError} (hsystem : signer.nonces = .system) :
    ((signer.sign payload size).run before).1 = .error e ↔
      Fails signer.keys size before.entropy e := by
  rw [outcome_sign, hsystem, NonceSource.outcome_draw_system]
  by_cases henough : size.toNat ≤ before.entropy.length
  · have hlen : (before.entropy.take size.toNat).length ≤ maxNonceLength := by
      rw [List.length_take_of_le henough]
      exact Nat.le_of_lt_succ size.toNat_lt
    rw [if_pos henough]
    show ((KeySource.lookup signer.keys none).answer.mapError TokenError.transport >>=
      fun resolved => _) = _ ↔ _
    simp only [bind_eq_error_iff, mapError_eq_error_iff, mapError_eq_ok_iff,
      Envelope.mapError_encode_eq_error_iff hlen]
    constructor
    · rintro (⟨cause, hanswer, rfl⟩ | ⟨⟨key, _⟩, hanswer, text, rfl, hlong, rfl⟩)
      · exact .transport cause henough hanswer
      · exact .label key text henough hanswer hlong
    · rintro (hfew | ⟨cause, -, hanswer⟩ | ⟨key, text, -, hanswer, hlong⟩)
      · exact absurd henough (Nat.not_le_of_lt hfew)
      · exact .inl ⟨cause, hanswer, rfl⟩
      · exact .inr ⟨_, hanswer, text, rfl, hlong, rfl⟩
  · rw [if_neg henough]
    constructor
    · rintro ⟨⟩
      exact .entropy (Nat.lt_of_not_le henough)
    · rintro (- | ⟨-, hle, -⟩ | ⟨-, -, hle, -, -⟩)
      · rfl
      · exact absurd hle henough
      · exact absurd hle henough

theorem Csrf.outcome_issue (csrf : Csrf κ) (session : String) (before : Ambient) :
    ((csrf.issue session).run before).1 =
      ((csrf.signer.sign (utf8 session) csrf.nonceSize).run before).1.map csrf.encoding.encode := by
  rw [issue, Action.outcome_bind]
  cases ((csrf.signer.sign (utf8 session) csrf.nonceSize).run before).1 <;> rfl

/-! ## Services of settings -/

namespace Config

omit [KeySource κ] in
/-- `Config.csrf` builds a token service exactly over a key source and with a nonce size
other than 0. -/
theorem csrf_eq_ok_iff {config : Config} {keys : Option κ} {csrf : Csrf κ} :
    config.csrf keys = .ok csrf ↔ ∃ source, ∃ h : config.csrfNonceSize ≠ 0, keys = some source ∧
      csrf = ⟨.ofHash config.hash source, config.encoding, config.csrfNonceSize, h⟩ := by
  have hvalid : config.validate = .ok () ↔ config.csrfNonceSize ≠ 0 := by
    by_cases h : config.csrfNonceSize = 0 <;> simp [validate, h]
  simp only [Config.csrf, bind_eq_ok_iff, hvalid, Config.signer, SignerSettings.build_eq_ok_iff,
    Csrf.withNonceSize_eq_ok_iff]
  constructor
  · rintro ⟨⟨⟩, -, _, ⟨source, rfl, rfl⟩, h, rfl⟩
    exact ⟨source, h, rfl, rfl⟩
  · rintro ⟨source, h, rfl, rfl⟩
    exact ⟨⟨⟩, h, _, ⟨source, rfl, rfl⟩, h, rfl⟩

/-- `validate` accepts the token for the session in every service with the hash and the text form of
the settings, over a source of the same kind in which the version of the token has the same key. The
service may have nonces of any size. -/
def ValidWhileKept (config : Config) (kind : KeyVersion.Kind) (made : VersionedKey)
    (token session : String) :
    Prop :=
  ∀ (κ' : Type) [KeySource κ'] (other : Csrf κ') (found : VersionedKey) (ambient : Ambient),
    other.signer.hash = config.hash → other.encoding = config.encoding →
    KeySource.kind other.signer.keys = kind →
    (KeySource.lookup other.signer.keys made.version).answer = .ok found → found.key = made.key →
    ((other.validate token session).run ambient).1 = .ok true

/-- Settings with a nonce size other than 0 build a service. Its tokens are valid for as long as
their version has the key that was current when they were issued. `issue` fails exactly if there are
too few random bytes, or else no current key, or else a label of more than 255 bytes. -/
theorem tokens_survive_rotation (config : Config) (hsize : config.csrfNonceSize ≠ 0) (keys : κ) :
    ∃ csrf, config.csrf (some keys) = .ok csrf ∧ ∀ session before,
      (∀ token after resolved, (csrf.issue session).run before = (.ok token, after) →
        (KeySource.lookup keys none).answer = .ok resolved →
        (∀ version ∈ resolved.version, version.kind = KeySource.kind keys) →
        config.ValidWhileKept (KeySource.kind keys) resolved token session) ∧
      ∀ e, ((csrf.issue session).run before).1 = .error e ↔
        Signer.Fails keys config.csrfNonceSize before.entropy e := by
  refine ⟨_, csrf_eq_ok_iff.mpr ⟨keys, hsize, rfl, rfl⟩, fun session before => ⟨?_, fun e => ?_⟩⟩
  · intro token after resolved hissued hcurrent hdeclared κ' _ other found ambient hhash hform
      hkind hkept hkey
    exact Csrf.validate_of_issue hissued hcurrent hhash hform
      (fun version hv => (hdeclared version hv).trans hkind.symm) hkept hkey ambient
  · rw [Csrf.outcome_issue, map_eq_error_iff]
    exact Signer.sign_eq_error_iff rfl

/-- A token of a ring with one key is valid after the ring got another key, in a service with longer
nonces. -/
theorem tokens_survive_rotation_once :
    ∃ csrf token after,
      ({ csrfNonceSize := 2 } : Config).csrf
        (some (KeyRing.ofList .number [⟨[1, 2, 3], some (.number 1)⟩])) = .ok csrf ∧
      (csrf.issue "ab").run ⟨[5, 6], [], []⟩ = (.ok token, after) ∧
      (((⟨.ofHash default (KeyRing.rotate (.ofList .number [⟨[1, 2, 3], some (.number 1)⟩])
        ⟨[7], some (.number 2)⟩), default, 16, by decide⟩ : Csrf KeyRing).validate
          token "ab").run after).1 = .ok true := by
  let keys : KeyRing := .ofList .number [⟨[1, 2, 3], some (.number 1)⟩]
  let later : KeyRing := keys.rotate ⟨[7], some (.number 2)⟩
  have hcurrent : (KeySource.lookup keys none).answer = .ok ⟨[1, 2, 3], some (.number 1)⟩ := rfl
  have hdeclared : ∀ version ∈ some (KeyVersion.number 1), version.kind = KeySource.kind keys := by
    rintro _ ⟨⟩
    rfl
  have hkept : (KeySource.lookup later (some (.number 1))).answer =
      .ok ⟨[1, 2, 3], some (.number 1)⟩ :=
    KeyRing.lookup_answer_eq_ok_iff.mpr (KeyRing.entry?_rotate_of_eq_some rfl _)
  obtain ⟨csrf, hbuilt, hall⟩ := tokens_survive_rotation { csrfNonceSize := 2 } (by decide) keys
  obtain ⟨hvalid, hfails⟩ := hall "ab" ⟨[5, 6], [], []⟩
  rcases hrun : (csrf.issue "ab").run ⟨[5, 6], [], []⟩ with ⟨outcome, after⟩
  rw [hrun] at hfails
  cases outcome with
  | error e =>
    -- there are enough random bytes, there is a key, and its version is a number
    rcases (hfails e).mp rfl with hfew | ⟨cause, -, hanswer⟩ | ⟨key, text, -, hanswer, -⟩
    · exact absurd hfew (by decide)
    · cases hanswer
    · cases hanswer
  | ok token =>
    exact ⟨csrf, token, after, hbuilt, hrun,
      hvalid token after _ hrun hcurrent hdeclared KeyRing
        ⟨.ofHash default later, default, 16, by decide⟩ _ after rfl rfl rfl hkept rfl⟩

end Config

end SealedToken
