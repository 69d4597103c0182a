import SealedToken.Proofs.Envelope.Fault
import SealedToken.Proofs.Log
import SealedToken.Proofs.Service.Signer

/-!
# The outcomes of signing

`Signer.sign` draws its nonce first and asks for the current key only when it has one. A nonce of
size zero is not drawn, so an unsalted signature is the same for every source of nonces.

* `Signer.Signs`: the outcomes of signing a payload and the ambients they leave, one rule for each.
* `Signer.Signs.run_eq`, `Signer.exists_signs`: `sign` follows the rules, and one always applies.
* `NonceSource.requests`: the calls that drawing a nonce records.
* `Signer.Salts`: a signature, and the nonce that the source gave for it.
* `Signer.sign_outcomes`: `sign` has exactly these outcomes, and signatures with different nonces
  are different.
-/

namespace SealedToken

variable {κ : Type} [KeySource κ]

/-- The outcomes of `sign` and the ambient after each, by the answers of the source of nonces and of
the key source. -/
inductive Signer.Signs (signer : Signer κ) (payload : Bytes) (size : UInt8) (before : Ambient) :
    Except TokenError Bytes → Ambient → Prop where
  /-- the source of nonces has no random bytes, whatever the key -/
  | entropy {reason : String} {middle : Ambient}
    (hgives : signer.nonces.Gives size before (.error (.entropy reason)) middle) :
    Signs signer payload size before (.error (.entropy reason)) middle
  /-- the source of nonces does not support the size, whatever the key -/
  | nonceLength {requested supported : Nat} {middle : Ambient}
    (hgives : signer.nonces.Gives size before
      (.error (.invalidLength requested supported)) middle) :
    Signs signer payload size before
      (.error (.configuration (.nonce (.invalidLength requested supported)))) middle
  /-- the lookup of the current key fails -/
  | transport {nonce : Bytes} {middle : Ambient} {cause : KeyError}
    (hgives : signer.nonces.Gives size before (.ok nonce) middle)
    (hanswer : (KeySource.lookup signer.keys none).answer = .error cause) :
    Signs signer payload size before (.error (.transport cause))
      (middle.asked none (KeySource.lookup signer.keys none))
  /-- the label is longer than 255 bytes -/
  | label {nonce key : Bytes} {middle : Ambient} {text : String}
    (hgives : signer.nonces.Gives size before (.ok nonce) middle)
    (hanswer : (KeySource.lookup signer.keys none).answer = .ok ⟨key, some (.label text)⟩)
    (hlong : maxLabelLength < (utf8 text).length) :
    Signs signer payload size before
      (.error (.configuration (.envelope (.versionTooLong (utf8 text).length maxLabelLength))))
      (middle.asked none (KeySource.lookup signer.keys none))
  /-- the version entry, the nonce entry unless the nonce is empty, the terminal tag, and the code
  of payload and nonce under a key of any length -/
  | made {nonce : Bytes} {middle : Ambient} {resolved : VersionedKey} {raw : Option Bytes}
    (hgives : signer.nonces.Gives size before (.ok nonce) middle)
    (hanswer : (KeySource.lookup signer.keys none).answer = .ok resolved)
    (hraw : Envelope.versionBytes resolved.version = .ok raw) :
    Signs signer payload size before
      (.ok (Envelope.entry .version raw ++
        (if size = 0 then [] else EntryTag.nonce.code :: size :: nonce) ++
        EntryTag.terminal.code :: signer.hash.hmac resolved.key (payload ++ nonce)))
      ((middle.asked none (KeySource.lookup signer.keys none)).reported
        [.payloadSigned signer.hash resolved.version.isSome size.toNat])

/-! ## Nonces -/

namespace NonceSource

variable {source : NonceSource} {size : UInt8} {before middle : Ambient}

/-- The calls of `draw size` when the system has `left` random bytes. -/
def requests (size : UInt8) (left : Nat) : NonceSource → List Call
  | system =>
    if size = 0 then []
    else [if size.toNat ≤ left then .draw size.toNat else .drawFailed size.toNat]
  | custom _ => if size = 0 then [] else [.fill size.toNat]

/-- The source is asked once, for all of the nonce, and not at all for an empty one. -/
theorem Gives.calls_eq {answer : Except NonceError Bytes}
    (h : source.Gives size before answer middle) :
    middle.calls = before.calls ++ source.requests size before.entropy.length := by
  cases h with
  | empty hsize => cases source <;> simp [requests, hsize]
  | system hsize henough => rw [requests, if_neg hsize, if_pos henough]; rfl
  | exhausted hsize hfew => rw [requests, if_neg hsize, if_neg (Nat.not_le_of_lt hfew)]; rfl
  | custom hsize => rw [requests, if_neg hsize]; rfl

end NonceSource

namespace Signer

variable {signer : Signer κ} {payload : Bytes} {size : UInt8} {before after : Ambient}
  {outcome : Except TokenError Bytes}

/-! ## The rules -/

/-- `sign` runs as each rule says. -/
theorem Signs.run_eq (h : signer.Signs payload size before outcome after) :
    (signer.sign payload size).run before = (outcome, after) := by
  cases h with
  | entropy hgives => exact run_sign_of_no_draw (NonceSource.run_draw_iff.mpr hgives)
  | nonceLength hgives => exact run_sign_of_no_draw (NonceSource.run_draw_iff.mpr hgives)
  | transport hgives hanswer =>
    rw [run_sign_of_draw (NonceSource.run_draw_iff.mpr hgives), signWith,
      KeySource.run_resolve_bind_of_error hanswer]
  | label hgives hanswer hlong =>
    rw [run_sign_of_draw (NonceSource.run_draw_iff.mpr hgives), signWith,
      KeySource.run_resolve_bind_of_ok hanswer]
    apply Action.run_ofExcept_bind_of_error
    exact (Envelope.mapError_encode_eq_error_iff hgives.length_le).mpr ⟨_, rfl, hlong, rfl⟩
  | made hgives hanswer hraw =>
    rw [← hgives.length_eq]
    exact run_sign_eq_ok_iff.mpr
      ⟨_, _, _, NonceSource.run_draw_iff.mpr hgives, hanswer, hgives.encode_eq hraw _, rfl⟩

/-- A rule applies in every case. -/
theorem exists_signs (signer : Signer κ) (payload : Bytes) (size : UInt8) (before : Ambient) :
    ∃ outcome after, signer.Signs payload size before outcome after := by
  obtain ⟨answer, middle, hgives⟩ := signer.nonces.exists_gives size before
  cases answer with
  | error cause =>
    cases cause with
    | entropy reason => exact ⟨_, _, .entropy hgives⟩
    | invalidLength requested supported => exact ⟨_, _, .nonceLength hgives⟩
  | ok nonce =>
    cases hanswer : (KeySource.lookup signer.keys none).answer with
    | error cause => exact ⟨_, _, .transport hgives hanswer⟩
    | ok resolved =>
      cases hraw : Envelope.versionBytes resolved.version with
      | error e =>
        obtain ⟨text, hversion, hlong, -⟩ := Envelope.versionBytes_eq_error_iff.mp hraw
        obtain ⟨key, _⟩ := resolved
        obtain rfl := hversion
        exact ⟨_, _, .label hgives hanswer hlong⟩
      | ok raw => exact ⟨_, _, .made hgives hanswer hraw⟩

/-- The runs of `sign` are those of `Signs`. -/
theorem run_sign_iff :
    (signer.sign payload size).run before = (outcome, after) ↔
      signer.Signs payload size before outcome after :=
  Action.run_eq_iff_of_rules (fun _ _ => Signs.run_eq)
    (signer.exists_signs payload size before) outcome after

/-- The errors of signing are those of the source of nonces, of the key source and of
the settings. -/
theorem Signs.kind_of_error {e : TokenError}
    (h : signer.Signs payload size before (.error e) after) :
    e.kind = .transport ∨ e.kind = .configuration ∨ e.kind = .entropy := by
  cases h with
  | transport => exact .inl rfl
  | nonceLength | label => exact .inr (.inl rfl)
  | entropy => exact .inr (.inr rfl)

/-- `sign` resolves the current key, once, if it has a nonce, and otherwise not at all. -/
theorem Signs.exists_calls_eq (h : signer.Signs payload size before outcome after) :
    ∃ answer middle, signer.nonces.Gives size before answer middle ∧
      after.calls = middle.calls ++
        if answer.isOk then
          .resolve none :: (KeySource.lookup signer.keys none).queries.map .fetch
        else [] := by
  cases h with
  | entropy hgives | nonceLength hgives => exact ⟨_, _, hgives, (List.append_nil _).symm⟩
  | transport hgives | label hgives | made hgives => exact ⟨_, _, hgives, rfl⟩

/-! ## Signatures and their nonces -/

/-- The outcome of unsalted signing depends neither on the source of nonces nor on the random
bytes. -/
theorem outcome_sign_unsalted (hash : HashAlgorithm) (keys : κ) (nonces nonces' : NonceSource)
    (payload : Bytes) (before before' : Ambient) :
    ((Signer.sign ⟨hash, keys, nonces⟩ payload 0).run before).1 =
      ((Signer.sign ⟨hash, keys, nonces'⟩ payload 0).run before').1 := by
  have hdraw : ∀ (source : NonceSource) (ambient : Ambient),
      ((source.draw 0).run ambient).1 = .ok [] :=
    fun _ _ => rfl
  simp only [outcome_sign, hdraw]

/-- `sign` gives the signature, after `draw` gave the nonce. -/
def Salts (signer : Signer κ) (payload : Bytes) (size : UInt8) (before : Ambient)
    (nonce signature : Bytes) : Prop :=
  ∃ middle after, signer.nonces.Gives size before (.ok nonce) middle ∧
    (signer.sign payload size).run before = (.ok signature, after)

theorem Salts.exists_encode_eq {nonce signature : Bytes}
    (h : signer.Salts payload size before nonce signature) :
    ∃ version code, Envelope.encode ⟨version, some nonce, code⟩ = .ok signature := by
  obtain ⟨middle, after, hgives, hrun⟩ := h
  obtain ⟨nonce', middle', resolved, hdraw, -, hframe, -⟩ := run_sign_eq_ok_iff.mp hrun
  cases (NonceSource.run_draw_iff.mpr hgives).symm.trans hdraw
  exact ⟨_, _, hframe⟩

/-- The runs of `sign` are those of `Signs`, whatever the sources of nonces and of keys answer. It
calls the source of nonces first, once, or not at all for the size 0, and then, if it has a nonce,
resolves the current key once. The outcome of unsalted signing depends on no nonces and no random
bytes. Signatures with different nonces are different, whatever their keys and versions. `sign`
never fails with `malformedEnvelope`, `authentication`, `cipher` or `encoding`. -/
theorem sign_outcomes (signer : Signer κ) (payload : Bytes) (size : UInt8) (before : Ambient) :
    (∀ outcome after, (signer.sign payload size).run before = (outcome, after) ↔
      signer.Signs payload size before outcome after) ∧
    (∃ answer middle, signer.nonces.Gives size before answer middle ∧
      middle.calls = before.calls ++ signer.nonces.requests size before.entropy.length ∧
      ((signer.sign payload size).run before).2.calls = middle.calls ++
        if answer.isOk then
          .resolve none :: (KeySource.lookup signer.keys none).queries.map .fetch
        else []) ∧
    (∀ nonces before', ((Signer.sign ⟨signer.hash, signer.keys, nonces⟩ payload 0).run before').1 =
      ((signer.sign payload 0).run before).1) ∧
    (∀ (κ' : Type) [KeySource κ'] (other : Signer κ') payload' size' before' nonce nonce'
      signature signature', signer.Salts payload size before nonce signature →
      other.Salts payload' size' before' nonce' signature' →
      nonce ≠ nonce' → signature ≠ signature') ∧
    ∀ e, ((signer.sign payload size).run before).1 = .error e →
      e.kind = .transport ∨ e.kind = .configuration ∨ e.kind = .entropy := by
  obtain ⟨outcome, after, hends⟩ := signer.exists_signs payload size before
  refine ⟨fun _ _ => run_sign_iff, ?_, fun nonces before' => outcome_sign_unsalted .., ?_, ?_⟩
  · obtain ⟨answer, middle, hgives, hcalls⟩ := hends.exists_calls_eq
    rw [hends.run_eq]
    exact ⟨answer, middle, hgives, hgives.calls_eq, hcalls⟩
  · rintro κ' _ other payload' size' before' nonce nonce' signature _ hsalts hsalts' hne rfl
    obtain ⟨version, code, hframe⟩ := hsalts.exists_encode_eq
    obtain ⟨version', code', hframe'⟩ := hsalts'.exists_encode_eq
    exact hne (Envelope.nonce_injective hframe hframe')
  · rw [hends.run_eq]
    rintro e rfl
    exact hends.kind_of_error

end Signer

end SealedToken
