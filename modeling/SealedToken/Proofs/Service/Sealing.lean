import SealedToken.Proofs.Envelope.Fault
import SealedToken.Proofs.Log
import SealedToken.Proofs.Service.Codec

/-!
# The outcomes of encoding

`Codec.encode` asks for the current key and then checks its kind and its length. Random bytes are
drawn only after these checks; a label that is too long is seen last.

* `Codec.Takes`: a key of a length of the suite, with a version of the kind that the key source
  declares.
* `Codec.Encodes`: the outcomes of encoding a plaintext and the ambients they leave, one rule for
  each.
* `Codec.Encodes.run_eq`, `Codec.exists_encodes`: `encode` follows the rules, and one always
  applies.
* `Codec.encode_outcomes`: `encode` has exactly these outcomes. It asks for one key, and all of its
  errors are of the key, the settings or the random bytes.
-/

namespace SealedToken

variable {κ : Type} [KeySource κ]

/-- The key has a length of the suite, and its version is of the kind that the key source
declares. -/
structure Codec.Takes (codec : Codec κ) (resolved : VersionedKey) : Prop where
  kind_eq : ∀ version ∈ resolved.version, version.kind = KeySource.kind codec.keys
  length_mem : resolved.key.length ∈ codec.suite.keyLengths

/-- The outcomes of `encode` and the ambient after each, by the answer of the key source and the
random bytes. -/
inductive Codec.Encodes (codec : Codec κ) (plaintext : Bytes) (before : Ambient) :
    Except TokenError Bytes → Ambient → Prop where
  /-- the lookup of the current key fails -/
  | transport {cause : KeyError}
    (hanswer : (KeySource.lookup codec.keys none).answer = .error cause) :
    Encodes codec plaintext before (.error (.transport cause))
      (before.asked none (KeySource.lookup codec.keys none))
  /-- the version is of another kind than the key source declares, whatever the key -/
  | kindMismatch {key : Bytes} {version : KeyVersion}
    (hanswer : (KeySource.lookup codec.keys none).answer = .ok ⟨key, some version⟩)
    (hkind : version.kind ≠ KeySource.kind codec.keys) :
    Encodes codec plaintext before
      (.error (.configuration (.kindMismatch version.kind (KeySource.kind codec.keys))))
      (before.asked none (KeySource.lookup codec.keys none))
  /-- the suite does not take keys of this length, whatever the random bytes -/
  | keyLength {resolved : VersionedKey}
    (hanswer : (KeySource.lookup codec.keys none).answer = .ok resolved)
    (hkind : ∀ version ∈ resolved.version, version.kind = KeySource.kind codec.keys)
    (hlength : resolved.key.length ∉ codec.suite.keyLengths) :
    Encodes codec plaintext before
      (.error (.configuration
        (.crypto (.invalidKeyLength codec.suite codec.suite.keyLengths resolved.key.length))))
      (before.asked none (KeySource.lookup codec.keys none))
  /-- there are fewer than 12 random bytes, whatever the version -/
  | entropy {resolved : VersionedKey}
    (hanswer : (KeySource.lookup codec.keys none).answer = .ok resolved)
    (htakes : codec.Takes resolved) (hfew : before.entropy.length < nonceLength) :
    Encodes codec plaintext before (.error (.entropy "entropy exhausted"))
      ((before.asked none (KeySource.lookup codec.keys none)).drawFailed nonceLength)
  /-- the label is longer than 255 bytes -/
  | label {key : Bytes} {text : String}
    (hanswer : (KeySource.lookup codec.keys none).answer = .ok ⟨key, some (.label text)⟩)
    (htakes : codec.Takes ⟨key, some (.label text)⟩) (henough : nonceLength ≤ before.entropy.length)
    (hlong : maxLabelLength < (utf8 text).length) :
    Encodes codec plaintext before
      (.error (.configuration (.envelope (.versionTooLong (utf8 text).length maxLabelLength))))
      ((before.asked none (KeySource.lookup codec.keys none)).drawn nonceLength)
  /-- the version entry, the terminal tag, the random bytes, and what sealing under them gives -/
  | made {resolved : VersionedKey} {cipher : Cipher} {nonce : Nonce} {raw : Option Bytes}
    {sealed bytes : Bytes}
    (hanswer : (KeySource.lookup codec.keys none).answer = .ok resolved)
    (hkind : ∀ version ∈ resolved.version, version.kind = KeySource.kind codec.keys)
    (hcipher : Cipher.ofKey codec.suite resolved.key = .ok cipher)
    (hnonce : nonce.bytes = before.entropy.take nonceLength)
    (hraw : Envelope.versionBytes resolved.version = .ok raw)
    (hseal : cipher.sealWith nonce plaintext = .ok sealed)
    (hbytes : bytes =
      Envelope.entry .version raw ++ EntryTag.terminal.code :: (nonce.bytes ++ sealed)) :
    Encodes codec plaintext before (.ok bytes)
      (((before.asked none (KeySource.lookup codec.keys none)).drawn nonceLength).reported
        [.envelopeSealed codec.suite resolved.version.isSome bytes.length])

namespace Codec

variable {codec : Codec κ} {plaintext : Bytes} {before after : Ambient}
  {outcome : Except TokenError Bytes}

theorem checkKind_of_ne {version : KeyVersion} (h : version.kind ≠ KeySource.kind codec.keys) :
    codec.checkKind (some version) =
      .error (.configuration (.kindMismatch version.kind (KeySource.kind codec.keys))) :=
  if_neg h

/-! ## The rules -/

/-- `encode` runs as each rule says. -/
theorem Encodes.run_eq (hplain : plaintext.length < 2 ^ 32)
    (h : codec.Encodes plaintext before outcome after) :
    (codec.encode plaintext).run before = (outcome, after) := by
  cases h with
  | transport hanswer => rw [encode, KeySource.run_resolve_bind_of_error hanswer]
  | kindMismatch hanswer hkind =>
    rw [encode, KeySource.run_resolve_bind_of_ok hanswer]
    exact Action.run_ofExcept_bind_of_error (checkKind_of_ne hkind)
  | keyLength hanswer hkind hlength =>
    rw [encode, KeySource.run_resolve_bind_of_ok hanswer,
      Action.run_ofExcept_bind_of_ok (checkKind_eq_ok_iff.mpr hkind)]
    apply Action.run_bind_error
    rw [Action.run_mapError, CipherSuite.run_encode_of_not_mem hlength]
    rfl
  | entropy hanswer htakes hfew =>
    have hfew :
      (before.asked none (KeySource.lookup codec.keys none)).entropy.length < nonceLength := hfew
    rw [encode, KeySource.run_resolve_bind_of_ok hanswer,
      Action.run_ofExcept_bind_of_ok (checkKind_eq_ok_iff.mpr htakes.kind_eq)]
    apply Action.run_bind_error
    rw [Action.run_mapError, CipherSuite.run_encode_of_lt htakes.length_mem hfew]
    rfl
  | label hanswer htakes henough hlong =>
    have henough :
      nonceLength ≤ (before.asked none (KeySource.lookup codec.keys none)).entropy.length := henough
    obtain ⟨cipher, nonce, sealed, -, -, -, hrun⟩ :=
      CipherSuite.exists_run_encode_eq htakes.length_mem henough hplain
    have hframe : Envelope.encode ⟨some (.label _), none, nonce.bytes ++ sealed⟩ = .error _ :=
      Envelope.encode_eq_error_iff.mpr (.inl ⟨_, rfl, hlong, rfl⟩)
    rw [encode, KeySource.run_resolve_bind_of_ok hanswer,
      Action.run_ofExcept_bind_of_ok (checkKind_eq_ok_iff.mpr htakes.kind_eq),
      Action.run_bind_ok (Action.run_mapError_eq_ok_iff.mpr hrun)]
    apply Action.run_ofExcept_bind_of_error
    rw [hframe, ← Envelope.ofEnvelope_of_encode hframe]
    rfl
  | made hanswer hkind hcipher hnonce hraw hseal hbytes =>
    have hframe := Envelope.encode_eq_ok_iff_of_nonce_eq_none.mpr ⟨_, hraw, hbytes⟩
    exact run_encode_eq_ok_iff.mpr ⟨_, _, hanswer, hkind, hnonce,
      ⟨_, _, hcipher, hseal, hframe⟩, rfl⟩

/-- A rule applies in every case. -/
theorem exists_encodes (codec : Codec κ) (hplain : plaintext.length < 2 ^ 32) (before : Ambient) :
    ∃ outcome after, codec.Encodes plaintext before outcome after := by
  cases hanswer : (KeySource.lookup codec.keys none).answer with
  | error cause => exact ⟨_, _, .transport hanswer⟩
  | ok resolved =>
    by_cases hmismatch : ∃ version ∈ resolved.version, version.kind ≠ KeySource.kind codec.keys
    · obtain ⟨version, hversion, hne⟩ := hmismatch
      obtain ⟨key, _⟩ := resolved
      obtain rfl := Option.mem_def.mp hversion
      exact ⟨_, _, .kindMismatch hanswer hne⟩
    have hkind : ∀ version ∈ resolved.version, version.kind = KeySource.kind codec.keys :=
      fun version hversion => Decidable.of_not_not fun hne => hmismatch ⟨version, hversion, hne⟩
    by_cases hrefused : resolved.key.length ∉ codec.suite.keyLengths
    · exact ⟨_, _, .keyLength hanswer hkind hrefused⟩
    have hlength := Decidable.of_not_not hrefused
    by_cases hfew : before.entropy.length < nonceLength
    · exact ⟨_, _, .entropy hanswer ⟨hkind, hlength⟩ hfew⟩
    have henough := Nat.le_of_not_lt hfew
    cases hraw : Envelope.versionBytes resolved.version with
    | error e =>
      obtain ⟨text, hversion, hlong, -⟩ := Envelope.versionBytes_eq_error_iff.mp hraw
      obtain ⟨key, _⟩ := resolved
      obtain rfl := hversion
      exact ⟨_, _, .label hanswer ⟨hkind, hlength⟩ henough hlong⟩
    | ok raw =>
      obtain ⟨cipher, nonce, sealed, hcipher, hnonce, hseal, -⟩ :=
        CipherSuite.exists_run_encode_eq hlength henough hplain
      exact ⟨_, _, .made hanswer hkind hcipher hnonce hraw hseal rfl⟩

/-- The runs of `encode` are those of `Encodes`. -/
theorem run_encode_iff (hplain : plaintext.length < 2 ^ 32) :
    (codec.encode plaintext).run before = (outcome, after) ↔
      codec.Encodes plaintext before outcome after :=
  Action.run_eq_iff_of_rules (fun _ _ => Encodes.run_eq hplain)
    (codec.exists_encodes hplain before) outcome after

/-- Encoding asks once for a key, the current one, whatever is wrong. -/
theorem Encodes.filter_isResolve_calls (h : codec.Encodes plaintext before outcome after) :
    after.calls.filter Call.isResolve = before.calls.filter Call.isResolve ++ [.resolve none] := by
  rw [← before.filter_isResolve_asked none (KeySource.lookup codec.keys none)]
  cases h with
  | transport | kindMismatch | keyLength => rfl
  | entropy | label | made => exact (List.filter_append ..).trans (List.append_nil _)

/-- `encode` fails with `transport`, `configuration` or `entropy` only. -/
theorem Encodes.kind_of_error {e : TokenError}
    (h : codec.Encodes plaintext before (.error e) after) :
    e.kind = .transport ∨ e.kind = .configuration ∨ e.kind = .entropy := by
  cases h with
  | transport => exact .inl rfl
  | kindMismatch | keyLength | label => exact .inr (.inl rfl)
  | entropy => exact .inr (.inr rfl)

/-- The runs of `encode` of a plaintext of fewer than 2^32 bytes are those of `Encodes`, whatever
the key source answers and however many random bytes there are. It resolves the current key, once,
and fails with `transport`, `configuration` or `entropy` only. -/
theorem encode_outcomes (codec : Codec κ) (hplain : plaintext.length < 2 ^ 32) (before : Ambient) :
    (∀ outcome after, (codec.encode plaintext).run before = (outcome, after) ↔
      codec.Encodes plaintext before outcome after) ∧
    ((codec.encode plaintext).run before).2.calls.filter Call.isResolve =
      before.calls.filter Call.isResolve ++ [.resolve none] ∧
    ∀ e, ((codec.encode plaintext).run before).1 = .error e →
      e.kind = .transport ∨ e.kind = .configuration ∨ e.kind = .entropy := by
  obtain ⟨outcome, after, hends⟩ := codec.exists_encodes hplain before
  refine ⟨fun _ _ => run_encode_iff hplain, ?_, ?_⟩
  · rw [hends.run_eq hplain]
    exact hends.filter_isResolve_calls
  · rw [hends.run_eq hplain]
    rintro e rfl
    exact hends.kind_of_error

/-- A label in a ring that declares numbers is refused before its length, the length of the key and
the missing random bytes are. -/
theorem encode_outcomes_mislabelled :
    [1, 2, 3].length < 2 ^ 32 ∧
      ((⟨.aesGcm, .hex,
        .ofList .number [⟨[1], some (.label (String.ofList (List.replicate 256 'a')))⟩]⟩ :
        Codec KeyRing).encode [1, 2, 3]).run ⟨[], [], []⟩ =
          (.error (.configuration (.kindMismatch .label .number)), ⟨[], [.resolve none], []⟩) := by
  let version : KeyVersion := .label (String.ofList (List.replicate 256 'a'))
  let codec : Codec KeyRing := ⟨.aesGcm, .hex, .ofList .number [⟨[1], some version⟩]⟩
  have hanswer : (KeySource.lookup codec.keys none).answer = .ok ⟨[1], some version⟩ := rfl
  have hkind : version.kind ≠ KeySource.kind codec.keys := nofun
  have hshort : [1, 2, 3].length < 2 ^ 32 := by decide
  exact ⟨hshort,
    ((codec.encode_outcomes hshort ⟨[], [], []⟩).1 _ _).mpr (.kindMismatch hanswer hkind)⟩

end Codec

end SealedToken
