import SealedToken.Proofs.Cipher
import SealedToken.Proofs.Envelope.WireForm
import SealedToken.Proofs.Key.Ring
import SealedToken.Proofs.Text.Form
import SealedToken.Service.Codec

/-!
# Encrypted tokens, made and read

* `CipherSuite.Seals`: an envelope of a plaintext under a version, a key and a nonce, which is
  unique.
* `Codec.run_encode_eq_ok_iff`: `encode` makes such an envelope under the current key.
* `Codec.outcome_decode`, `Codec.decode_eq_ok_iff`: `decode` accepts exactly such envelopes, each
  under the key of its version.
* `Codec.Spells`: the texts of such an envelope.
* `Codec.outcome_decode_of_encode`: the outcome of `decode` for an encoded envelope, under any later
  keys.
* `Codec.decodeText_of_encodeText`: a token is read for as long as its version gives its key.
* `Codec.decodeText_accepts`: only issued tokens are accepted, in one spelling.
-/

namespace SealedToken

/-! ## Sealed envelopes -/

/-- The bytes are the envelope of the version and of the plaintext, sealed with the key under the
nonce. -/
def CipherSuite.Seals (suite : CipherSuite) (version : Option KeyVersion)
    (key : Bytes) (nonce : Nonce)
    (plaintext bytes : Bytes) : Prop :=
  ∃ cipher sealed, Cipher.ofKey suite key = .ok cipher ∧
    cipher.sealWith nonce plaintext = .ok sealed ∧
    Envelope.encode ⟨version, none, nonce.bytes ++ sealed⟩ = .ok bytes

theorem CipherSuite.Seals.unique {suite : CipherSuite} {version : Option KeyVersion} {key : Bytes}
    {nonce : Nonce} {plaintext bytes bytes' : Bytes}
    (h : suite.Seals version key nonce plaintext bytes)
    (h' : suite.Seals version key nonce plaintext bytes') : bytes = bytes' := by
  obtain ⟨cipher, sealed, hkey, hseal, hframe⟩ := h
  obtain ⟨cipher', sealed', hkey', hseal', hframe'⟩ := h'
  obtain rfl : cipher = cipher' := Except.ok.inj (hkey.symm.trans hkey')
  obtain rfl : sealed = sealed' := Except.ok.inj (hseal.symm.trans hseal')
  exact Except.ok.inj (hframe.symm.trans hframe')

namespace Codec

variable {κ κ' : Type}

/-- The codec with another key source in place of its own. -/
def withKeys (codec : Codec κ) (keys : κ') : Codec κ' := ⟨codec.suite, codec.encoding, keys⟩

variable [KeySource κ] [KeySource κ'] {codec : Codec κ} {before after : Ambient}
  {plaintext bytes : Bytes}

/-! ## Encoding -/

theorem checkKind_eq_ok_iff {version : Option KeyVersion} :
    codec.checkKind version = .ok () ↔ ∀ v ∈ version, v.kind = KeySource.kind codec.keys := by
  cases version with
  | none => simp [checkKind]
  | some v =>
    by_cases h : v.kind = KeySource.kind codec.keys
    · simp [checkKind, h]
    · simp [checkKind, h]

/-- `encode` succeeds exactly with an envelope that `Seals` the plaintext with the current key under
the next 12 random bytes, if its version is of the declared kind. -/
theorem run_encode_eq_ok_iff :
    (codec.encode plaintext).run before = (.ok bytes, after) ↔
      ∃ resolved nonce, (KeySource.lookup codec.keys none).answer = .ok resolved ∧
        (∀ version ∈ resolved.version, version.kind = KeySource.kind codec.keys) ∧
        nonce.bytes = before.entropy.take nonceLength ∧
        codec.suite.Seals resolved.version resolved.key nonce plaintext bytes ∧
        after = ((before.asked none (KeySource.lookup codec.keys none)).drawn nonceLength).reported
          [.envelopeSealed codec.suite resolved.version.isSome bytes.length] := by
  simp only [encode, Action.run_bind_eq_ok_iff, Action.run_mapError_eq_ok_iff,
    KeySource.run_resolve_eq_ok_iff, Action.run_ofExcept_eq_ok_iff,
    CipherSuite.run_encode_eq_ok_iff, mapError_eq_ok_iff, Action.run_emit]
  constructor
  · rintro ⟨resolved, _, ⟨hanswer, rfl⟩, ⟨⟩, _, ⟨hkind, rfl⟩, _, _,
      ⟨cipher, nonce, sealed, hkey, hnonce, hseal, rfl, rfl⟩, _, _, ⟨hframe, rfl⟩, ⟨⟩, _, he, hr⟩
    cases he
    cases hr
    exact ⟨resolved, nonce, hanswer, checkKind_eq_ok_iff.mp hkind, hnonce,
      ⟨cipher, sealed, hkey, hseal, hframe⟩, rfl⟩
  · rintro ⟨resolved, nonce, hanswer, hkind, hnonce, ⟨cipher, sealed, hkey, hseal, hframe⟩, rfl⟩
    exact ⟨resolved, _, ⟨hanswer, rfl⟩, ⟨⟩, _, ⟨checkKind_eq_ok_iff.mpr hkind, rfl⟩, _, _,
      ⟨cipher, nonce, sealed, hkey, hnonce, hseal, rfl, rfl⟩, _, _, ⟨hframe, rfl⟩, ⟨⟩, _, rfl, rfl⟩

theorem run_encodeText_eq_ok_iff {token : String} :
    (codec.encodeText plaintext).run before = (.ok token, after) ↔
      ∃ bytes, (codec.encode plaintext).run before = (.ok bytes, after) ∧
        token = codec.encoding.encode bytes := by
  rw [encodeText, Action.run_bind_eq_ok_iff]
  constructor
  · rintro ⟨bytes, _, henc, he⟩
    cases he
    exact ⟨bytes, henc, rfl⟩
  · rintro ⟨bytes, henc, rfl⟩
    exact ⟨bytes, after, henc, rfl⟩

/-- `encode` succeeds with a current key of the suite, 12 random bytes and a version that has
bytes. -/
theorem exists_run_encode {resolved : VersionedKey} {raw : Option Bytes}
    (hanswer : (KeySource.lookup codec.keys none).answer = .ok resolved)
    (hkind : ∀ version ∈ resolved.version, version.kind = KeySource.kind codec.keys)
    (hkey : resolved.key.length ∈ codec.suite.keyLengths)
    (hentropy : nonceLength ≤ before.entropy.length) (hplain : plaintext.length < 2 ^ 32)
    (hraw : Envelope.versionBytes resolved.version = .ok raw) :
    ∃ bytes after, (codec.encode plaintext).run before = (.ok bytes, after) := by
  obtain ⟨cipher, nonce, sealed, hcipher, hnonce, hseal, -⟩ :=
    CipherSuite.exists_run_encode_eq hkey hentropy hplain
  have hframe : Envelope.encode ⟨resolved.version, none, nonce.bytes ++ sealed⟩ = .ok _ :=
    Envelope.encode_eq_ok_iff_of_nonce_eq_none.mpr ⟨raw, hraw, rfl⟩
  exact ⟨_, _, run_encode_eq_ok_iff.mpr
    ⟨resolved, nonce, hanswer, hkind, hnonce, ⟨cipher, sealed, hcipher, hseal, hframe⟩, rfl⟩⟩

/-! ## Decoding -/

/-- The outcome of `decode`: it reads the envelope, looks up the key of its version and opens the
payload. -/
theorem outcome_decode (codec : Codec κ) (bytes : Bytes) (ambient : Ambient) :
    ((codec.decode bytes).run ambient).1 = (do
      let envelope ←
        (Envelope.decode (Dialect.codec (KeySource.kind codec.keys)) bytes).mapError .ofEnvelope
      let resolved ← (KeySource.lookup codec.keys envelope.version).answer.mapError .transport
      (codec.suite.decode resolved.key envelope.payload).mapError .ofCipher) := by
  simp only [decode, Action.outcome_bind, Action.run_ofExcept, Action.run_mapError,
    KeySource.run_resolve, Action.run_record]
  rfl

theorem decode_dialect_eq_ok_iff {kind : KeyVersion.Kind} {envelope : Envelope} :
    Envelope.decode (Dialect.codec kind) bytes = .ok envelope ↔
      envelope.nonce = none ∧ (∀ version ∈ envelope.version, version.kind = kind) ∧
        envelope.encode = .ok bytes :=
  Envelope.decode_eq_ok_iff_encode rfl

/-- `decode` gives a plaintext exactly if the bytes are an envelope that `Seals` it, with a version
of the declared kind and the key of that version. -/
theorem decode_eq_ok_iff {ambient : Ambient} :
    ((codec.decode bytes).run ambient).1 = .ok plaintext ↔
      ∃ version resolved nonce, (∀ v ∈ version, v.kind = KeySource.kind codec.keys) ∧
        (KeySource.lookup codec.keys version).answer = .ok resolved ∧
        codec.suite.Seals version resolved.key nonce plaintext bytes := by
  rw [outcome_decode]
  simp only [bind_eq_ok_iff, mapError_eq_ok_iff, CipherSuite.decode_eq_ok_iff,
    decode_dialect_eq_ok_iff]
  constructor
  · rintro ⟨⟨version, _, _⟩, ⟨rfl, hkind, hframe⟩, resolved, hanswer, hopened⟩
    obtain ⟨cipher, nonce, sealed, hkey, rfl, hseal⟩ := hopened
    exact ⟨version, resolved, nonce, hkind, hanswer, cipher, sealed, hkey, hseal, hframe⟩
  · rintro ⟨version, resolved, nonce, hkind, hanswer, cipher, sealed, hkey, hseal, hframe⟩
    exact ⟨⟨version, none, nonce.bytes ++ sealed⟩, ⟨rfl, hkind, hframe⟩, resolved, hanswer, cipher,
      nonce, sealed, hkey, rfl, hseal⟩

/-- The outcome of `decodeText` is that of `decode` on the bytes that `readToken` reads. -/
theorem outcome_decodeText (codec : Codec κ) (token : String) (ambient : Ambient) :
    ((codec.decodeText token).run ambient).1 = (do
      let bytes ← codec.encoding.readToken token
      ((codec.decode bytes).run ambient).1) := by
  simp only [decodeText, Action.outcome_bind, Action.run_ofExcept]

theorem decodeText_eq_ok_iff {token : String} {ambient : Ambient} :
    ((codec.decodeText token).run ambient).1 = .ok plaintext ↔
      ∃ bytes, codec.encoding.normalized token = codec.encoding.encode bytes ∧
        ((codec.decode bytes).run ambient).1 = .ok plaintext := by
  simp only [outcome_decodeText, bind_eq_ok_iff, TextForm.readToken_eq_ok_iff]

/-! ## Tokens after a change of keys -/

/-- `decode` over a later key source of the same kind gives the plaintext back if the version in the
envelope still has the key with which `encode` sealed it. -/
theorem decode_of_encode {later : κ'} {resolved found : VersionedKey}
    (hmade : (codec.encode plaintext).run before = (.ok bytes, after))
    (hcurrent : (KeySource.lookup codec.keys none).answer = .ok resolved)
    (hkind : KeySource.kind later = KeySource.kind codec.keys)
    (hkept : (KeySource.lookup later resolved.version).answer = .ok found)
    (hkey : found.key = resolved.key) (ambient : Ambient) :
    (((codec.withKeys later).decode bytes).run ambient).1 = .ok plaintext := by
  obtain ⟨resolved', nonce, hanswer, hdeclared, -, hseals, -⟩ := run_encode_eq_ok_iff.mp hmade
  obtain rfl : resolved = resolved' := Except.ok.inj (hcurrent.symm.trans hanswer)
  refine decode_eq_ok_iff.mpr ⟨resolved.version, found, nonce, ?_, hkept, ?_⟩
  · intro version hv
    exact (hdeclared version hv).trans hkind.symm
  · rw [hkey]
    exact hseals

/-- The outcome of `decode` of an envelope that `encode` made, over a later key source of the same
kind: the lookup of its version, and opening with the key that this gives. -/
theorem outcome_decode_of_encode {later : κ'} {resolved : VersionedKey}
    (hmade : (codec.encode plaintext).run before = (.ok bytes, after))
    (hcurrent : (KeySource.lookup codec.keys none).answer = .ok resolved)
    (hkind : KeySource.kind later = KeySource.kind codec.keys) :
    ∃ payload, codec.suite.decode resolved.key payload = .ok plaintext ∧ ∀ ambient,
      (((codec.withKeys later).decode bytes).run ambient).1 = (do
        let found ← (KeySource.lookup later resolved.version).answer.mapError .transport
        (codec.suite.decode found.key payload).mapError .ofCipher) := by
  obtain ⟨resolved', nonce, hanswer, hdeclared, -, ⟨cipher, sealed, hkey, hseal, hframe⟩, -⟩ :=
    run_encode_eq_ok_iff.mp hmade
  obtain rfl : resolved = resolved' := Except.ok.inj (hcurrent.symm.trans hanswer)
  have hread : Envelope.decode (Dialect.codec (KeySource.kind later)) bytes = .ok _ :=
    decode_dialect_eq_ok_iff.mpr ⟨rfl, hkind ▸ hdeclared, hframe⟩
  refine ⟨nonce.bytes ++ sealed,
    CipherSuite.decode_eq_ok_iff.mpr ⟨cipher, nonce, sealed, hkey, rfl, hseal⟩, fun ambient => ?_⟩
  rw [outcome_decode, withKeys, hread]
  rfl

/-- `decodeText` over a later key source of the same kind gives the plaintext back if the version in
the token still has the key with which `encodeText` sealed it. -/
theorem decodeText_of_encodeText {later : κ'} {resolved found : VersionedKey} {token : String}
    (hissued : (codec.encodeText plaintext).run before = (.ok token, after))
    (hcurrent : (KeySource.lookup codec.keys none).answer = .ok resolved)
    (hkind : KeySource.kind later = KeySource.kind codec.keys)
    (hkept : (KeySource.lookup later resolved.version).answer = .ok found)
    (hkey : found.key = resolved.key) (ambient : Ambient) :
    (((codec.withKeys later).decodeText token).run ambient).1 = .ok plaintext := by
  obtain ⟨bytes, hmade, rfl⟩ := run_encodeText_eq_ok_iff.mp hissued
  rw [decodeText_eq_ok_iff]
  exact ⟨bytes, TextForm.normalized_encode _ _,
    decode_of_encode hmade hcurrent hkind hkept hkey ambient⟩

/-- A token of a ring with one key is read after the ring got another key. -/
theorem decodeText_of_encodeText_rotated :
    ∃ token after,
      ((⟨.aesGcm, .hex, .ofList .number [⟨List.replicate 16 1, some (.number 1)⟩]⟩ :
        Codec KeyRing).encodeText [1, 2, 3]).run ⟨List.replicate 12 0, [], []⟩ =
          (.ok token, after) ∧
      (((⟨.aesGcm, .hex, KeyRing.rotate (.ofList .number [⟨List.replicate 16 1, some (.number 1)⟩])
        ⟨List.replicate 16 2, some (.number 2)⟩⟩ : Codec KeyRing).decodeText token).run after).1 =
          .ok [1, 2, 3] := by
  let codec : Codec KeyRing :=
    ⟨.aesGcm, .hex, .ofList .number [⟨List.replicate 16 1, some (.number 1)⟩]⟩
  let later : KeyRing := codec.keys.rotate ⟨List.replicate 16 2, some (.number 2)⟩
  have hcurrent : (KeySource.lookup codec.keys none).answer =
      .ok ⟨List.replicate 16 1, some (.number 1)⟩ := rfl
  have hsame : KeySource.kind later = KeySource.kind codec.keys := rfl
  have hkept : (KeySource.lookup later (some (.number 1))).answer =
      .ok ⟨List.replicate 16 1, some (.number 1)⟩ :=
    KeyRing.lookup_answer_eq_ok_iff.mpr (KeyRing.entry?_rotate_of_eq_some rfl _)
  have hkind : ∀ version ∈ some (KeyVersion.number 1),
      version.kind = KeySource.kind codec.keys := by
    rintro _ ⟨⟩
    rfl
  obtain ⟨bytes, after, hmade⟩ : ∃ bytes after,
      (codec.encode [1, 2, 3]).run ⟨List.replicate 12 0, [], []⟩ = (.ok bytes, after) :=
    exists_run_encode hcurrent hkind (by decide) (by decide) (by decide) rfl
  have hissued := run_encodeText_eq_ok_iff.mpr ⟨bytes, hmade, rfl⟩
  exact ⟨_, after, hissued, decodeText_of_encodeText hissued hcurrent hsame hkept rfl after⟩

/-! ## Accepted tokens -/

/-- The text spells an envelope that `Seals` the plaintext under the nonce, with a version of the
declared kind and the key that `lookup` gives for it. -/
def Spells (codec : Codec κ) (version : Option KeyVersion) (nonce : Nonce) (plaintext : Bytes)
    (token : String) : Prop :=
  (∀ v ∈ version, v.kind = KeySource.kind codec.keys) ∧
  ∃ resolved bytes, (KeySource.lookup codec.keys version).answer = .ok resolved ∧
    codec.suite.Seals version resolved.key nonce plaintext bytes ∧
    codec.encoding.normalized token = codec.encoding.encode bytes

/-- `decodeText` accepts exactly the texts that spell an envelope of the plaintext. The version, the
nonce and the plaintext determine that text, but for the case of hexadecimal letters. -/
theorem decodeText_accepts (codec : Codec κ) :
    (∀ token plaintext ambient, ((codec.decodeText token).run ambient).1 = .ok plaintext ↔
      ∃ version nonce, codec.Spells version nonce plaintext token) ∧
    ∀ version nonce plaintext token token', codec.Spells version nonce plaintext token →
      codec.Spells version nonce plaintext token' →
      codec.encoding.normalized token = codec.encoding.normalized token' ∧
        (codec.encoding ≠ .hex → token = token') := by
  constructor
  · intro token plaintext ambient
    simp only [decodeText_eq_ok_iff, decode_eq_ok_iff]
    constructor
    · rintro ⟨bytes, htext, version, resolved, nonce, hkind, hanswer, hseals⟩
      exact ⟨version, nonce, hkind, resolved, bytes, hanswer, hseals, htext⟩
    · rintro ⟨version, nonce, hkind, resolved, bytes, hanswer, hseals, htext⟩
      exact ⟨bytes, htext, version, resolved, nonce, hkind, hanswer, hseals⟩
  · rintro version nonce plaintext token token' ⟨-, resolved, bytes, hanswer, hseals, htext⟩
      ⟨-, resolved', bytes', hanswer', hseals', htext'⟩
    obtain rfl : resolved = resolved' := Except.ok.inj (hanswer.symm.trans hanswer')
    obtain rfl : bytes = bytes' := hseals.unique hseals'
    have hsame : codec.encoding.normalized token = codec.encoding.normalized token' :=
      htext.trans htext'.symm
    refine ⟨hsame, fun hne => ?_⟩
    rwa [TextForm.normalized_of_ne_hex hne, TextForm.normalized_of_ne_hex hne] at hsame

end Codec

end SealedToken
