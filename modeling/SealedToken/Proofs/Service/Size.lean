import SealedToken.Proofs.Service.Csrf
import SealedToken.Proofs.Service.Log
import SealedToken.Proofs.Text.Bits
import SealedToken.Proofs.Text.Canonical

/-!
# The sizes of tokens

The length of a token is a function of the lengths of its version, of the plaintext, or of the nonce
and the code. It does not depend on their bytes, nor on the key.

* `versionRoom`, `nonceRoom`: the bytes that a version and a nonce take up in an envelope.
* `TextForm.textLength`, `TextForm.length_encode`: the number of characters in the text of so many
  bytes.
* `Codec.length_of_run_encode`, `Signer.length_of_run_sign` and their texts: the lengths of issued
  tokens.
* `token_sizes`: all of this, of one token and of two side by side.
* `longest_signature`: the bound on signatures is attained.
-/

namespace SealedToken

/-! ## Entries -/

/-- The number of bytes of the version in an envelope. -/
def KeyVersion.size : KeyVersion → Nat
  | label text => (utf8 text).length
  | number _ => 8

/-- What the version of a token takes up, with its tag and its length byte. -/
def versionRoom : Option KeyVersion → Nat
  | some version => 2 + version.size
  | none => 0

/-- The length of the nonce entry of a signature. There is none for an empty nonce. -/
def nonceRoom (size : UInt8) : Nat := if size = 0 then 0 else 2 + size.toNat

theorem KeyVersion.size_of_toBytes {version : KeyVersion} {bs : Bytes}
    (h : version.toBytes = .ok bs) :
    bs.length = version.size := by
  cases version with
  | label text =>
    rw [toBytes] at h
    split at h
    · cases h
    · cases h
      rfl
  | number value =>
    cases h
    exact length_littleEndian numberVersionLength value.toNat

theorem entryLength_of_versionBytes {version : Option KeyVersion} {raw : Option Bytes}
    (h : Envelope.versionBytes version = .ok raw) :
    Envelope.entryLength raw = versionRoom version := by
  cases version with
  | none =>
    cases h
    rfl
  | some version =>
    obtain ⟨bs, hbs, rfl⟩ := Envelope.versionBytes_some_iff.mp h
    rw [Envelope.entryLength, versionRoom, KeyVersion.size_of_toBytes hbs]

/-- The version entry is at most 257 bytes long. -/
theorem versionRoom_le {version : Option KeyVersion} {raw : Option Bytes}
    (h : Envelope.versionBytes version = .ok raw) : versionRoom version ≤ 257 := by
  rw [← entryLength_of_versionBytes h]
  cases raw with
  | none => exact Nat.zero_le _
  | some bs =>
    have := Envelope.length_of_versionBytes h
    rw [Envelope.entryLength]
    omega

theorem nonceRoom_le (size : UInt8) : nonceRoom size ≤ 257 := by
  have := size.toNat_lt
  rw [nonceRoom]
  split <;> omega

/-! ## Texts -/

/-- The number of characters that `encode` writes for so many bytes. -/
def TextForm.textLength : TextForm → (count : Nat) → Nat
  | base64Url, count | base64Standard, count => (4 * count + 2) / 3
  | hex, count => 2 * count

theorem Base64.length_sextets (bs : Bytes) : (sextets bs).length = (4 * bs.length + 2) / 3 := by
  rw [length_eq_of_length_packed (sextets_wellFormed bs).1, packed_sextets]

theorem TextForm.length_encode (form : TextForm) (bs : Bytes) :
    (form.encode bs).length = form.textLength bs.length := by
  rw [← String.length_toList, toList_encode, List.length_map]
  cases form with
  | base64Url | base64Standard => exact Base64.length_sextets bs
  | hex =>
    have hdigits := Hex.length_digits bs
    rwa [Hex.digits_eq_map, List.length_map] at hdigits

/-! ## Services -/

variable {κ κ' : Type} [KeySource κ] [KeySource κ'] {before after before' after' : Ambient}

/-- The length of an encrypted token: the version entry, the terminal tag, a nonce of 12 bytes, the
plaintext, and a tag of 16 bytes. -/
theorem Codec.length_of_run_encode {codec : Codec κ} {plaintext bytes : Bytes}
    (h : (codec.encode plaintext).run before = (.ok bytes, after)) :
    bytes.length = versionRoom (KeySource.currentVersion codec.keys) + 29 + plaintext.length := by
  obtain ⟨resolved, nonce, hanswer, -, -, hseals, -⟩ := run_encode_eq_ok_iff.mp h
  obtain ⟨_, _, _, _, hframe⟩ := id hseals
  obtain ⟨-, raw, hraw, -⟩ := Envelope.encode_eq_ok_iff.mp hframe
  have hversion : Envelope.versionBytes resolved.version = .ok raw := hraw
  rw [hseals.length_eq, sealedLength, KeySource.currentVersion_of_ok hanswer, hversion,
    ← entryLength_of_versionBytes hversion]
  show Envelope.entryLength raw + 1 + (12 + (plaintext.length + 16)) = _
  omega

theorem Codec.length_of_run_encodeText {codec : Codec κ} {plaintext : Bytes} {token : String}
    (h : (codec.encodeText plaintext).run before = (.ok token, after)) :
    token.length = codec.encoding.textLength
      (versionRoom (KeySource.currentVersion codec.keys) + 29 + plaintext.length) := by
  obtain ⟨bytes, hencode, rfl⟩ := run_encodeText_eq_ok_iff.mp h
  rw [TextForm.length_encode, length_of_run_encode hencode]

/-- The length of a signature: the version entry, the nonce entry, the terminal tag and the code. -/
theorem Signer.length_of_run_sign {signer : Signer κ} {payload signature : Bytes} {size : UInt8}
    (h : (signer.sign payload size).run before = (.ok signature, after)) :
    signature.length = versionRoom (KeySource.currentVersion signer.keys) + nonceRoom size + 1 +
        signer.hash.outputLength ∧
      versionRoom (KeySource.currentVersion signer.keys) ≤ 257 := by
  obtain ⟨nonce, middle, resolved, hdraw, hanswer, hframe, -⟩ := run_sign_eq_ok_iff.mp h
  have hgives := NonceSource.run_draw_iff.mp hdraw
  obtain ⟨-, raw, hraw, -⟩ := Envelope.encode_eq_ok_iff.mp hframe
  have hversion : Envelope.versionBytes resolved.version = .ok raw := hraw
  rw [hgives.encode_eq hversion] at hframe
  have hnonce :
      (if size = 0 then [] else EntryTag.nonce.code :: size :: nonce).length = nonceRoom size := by
    rw [nonceRoom, apply_ite List.length, List.length_cons, List.length_cons,
      hgives.length_eq, Nat.add_comm 2]
    rfl
  obtain rfl := Except.ok.inj hframe
  rw [KeySource.currentVersion_of_ok hanswer]
  refine ⟨?_, versionRoom_le hversion⟩
  rw [List.length_append, List.length_append, Envelope.length_entry,
    entryLength_of_versionBytes hversion, hnonce, List.length_cons, HashAlgorithm.mac,
    HashAlgorithm.length_hmac]
  omega

theorem Csrf.length_of_run_issue {csrf : Csrf κ} {session token : String}
    (h : (csrf.issue session).run before = (.ok token, after)) :
    token.length = csrf.encoding.textLength
      (versionRoom (KeySource.currentVersion csrf.signer.keys) +
      nonceRoom csrf.nonceSize + 1 + csrf.signer.hash.outputLength) := by
  obtain ⟨signature, hsign, rfl⟩ := run_issue_eq_ok_iff.mp h
  rw [TextForm.length_encode, (Signer.length_of_run_sign hsign).1]

theorem HashAlgorithm.outputLength_le (hash : HashAlgorithm) : hash.outputLength ≤ 64 := by
  cases hash <;> decide

/-- The lengths of tokens are sums of the lengths of versions, plaintexts, nonces and codes. So they
do not depend on the keys, on the bytes of plaintexts and payloads, or on the cipher suite. A
signature is at most 579 bytes long. -/
theorem token_sizes :
    (∀ (codec : Codec κ) (plaintext : Bytes) (before : Ambient) (bytes : Bytes) (after : Ambient),
      (codec.encode plaintext).run before = (.ok bytes, after) →
        bytes.length = versionRoom (KeySource.currentVersion codec.keys) + 29 + plaintext.length) ∧
    (∀ (signer : Signer κ) (payload : Bytes) (size : UInt8) (before : Ambient)
      (signature : Bytes) (after : Ambient),
      (signer.sign payload size).run before = (.ok signature, after) →
        signature.length = versionRoom (KeySource.currentVersion signer.keys) + nonceRoom size + 1 +
          signer.hash.outputLength ∧ signature.length ≤ 579) ∧
    (∀ (codec : Codec κ) (plaintext : Bytes) (before : Ambient) (token : String) (after : Ambient),
      (codec.encodeText plaintext).run before = (.ok token, after) →
        token.length = codec.encoding.textLength
          (versionRoom (KeySource.currentVersion codec.keys) + 29 + plaintext.length)) ∧
    (∀ (csrf : Csrf κ) (session : String) (before : Ambient) (token : String) (after : Ambient),
      (csrf.issue session).run before = (.ok token, after) →
        token.length = csrf.encoding.textLength
          (versionRoom (KeySource.currentVersion csrf.signer.keys) +
          nonceRoom csrf.nonceSize + 1 + csrf.signer.hash.outputLength)) ∧
    (∀ (hash : HashAlgorithm) (key payload nonce : Bytes),
      (hash.mac key payload nonce).length = hash.outputLength) ∧
    (∀ (form : TextForm) (bytes : Bytes),
      (form.encode bytes).length = form.textLength bytes.length) ∧
    (∀ (codec : Codec κ) (codec' : Codec κ') (plaintext plaintext' : Bytes)
      (before before' : Ambient) (bytes bytes' : Bytes) (after after' : Ambient),
      (codec.encode plaintext).run before = (.ok bytes, after) →
      (codec'.encode plaintext').run before' = (.ok bytes', after') →
      versionRoom (KeySource.currentVersion codec.keys) =
        versionRoom (KeySource.currentVersion codec'.keys) →
      plaintext.length = plaintext'.length → bytes.length = bytes'.length) ∧
    ∀ (signer : Signer κ) (signer' : Signer κ') (payload payload' : Bytes) (size : UInt8)
      (before before' : Ambient) (signature signature' : Bytes) (after after' : Ambient),
      (signer.sign payload size).run before = (.ok signature, after) →
      (signer'.sign payload' size).run before' = (.ok signature', after') →
      versionRoom (KeySource.currentVersion signer.keys) =
        versionRoom (KeySource.currentVersion signer'.keys) →
      signer.hash.outputLength = signer'.hash.outputLength →
        signature.length = signature'.length := by
  refine ⟨?_, ?_, ?_, ?_, ?_, TextForm.length_encode, ?_, ?_⟩
  · intro codec plaintext before bytes after h
    exact Codec.length_of_run_encode h
  · intro signer payload size before signature after h
    obtain ⟨hlength, hversion⟩ := Signer.length_of_run_sign h
    have := nonceRoom_le size
    have := signer.hash.outputLength_le
    exact ⟨hlength, by omega⟩
  · intro codec plaintext before token after h
    exact Codec.length_of_run_encodeText h
  · intro csrf session before token after h
    exact Csrf.length_of_run_issue h
  · intro hash key payload nonce
    exact hash.length_hmac key _
  · intro codec codec' plaintext plaintext' before before' bytes bytes' after after' h h'
      hversion hlength
    rw [Codec.length_of_run_encode h, Codec.length_of_run_encode h', hversion, hlength]
  · intro signer signer' payload payload' size before before' signature signature' after after'
      h h' hversion hhash
    rw [(Signer.length_of_run_sign h).1, (Signer.length_of_run_sign h').1, hversion, hhash]

/-- A label of 255 bytes, the most that fit behind a length byte. -/
def longestLabel : KeyVersion := .label (ofLatin1 (List.replicate 255 97))

theorem toBytes_longestLabel : longestLabel.toBytes = .ok (List.replicate 255 97) := by
  have hascii : Ascii (List.replicate 255 97) := by
    intro b hb
    rw [List.eq_of_mem_replicate hb]
    decide
  simp only [longestLabel, KeyVersion.toBytes, utf8_ofLatin1 hascii, List.length_replicate]
  rfl

/-- A label and a nonce of 255 bytes and a SHA-512 code make a signature of 579 bytes. -/
theorem longest_signature : ∃ (before after : Ambient) (signature : Bytes),
    ((Signer.ofHash .sha512 (FixedKey.mk [] (some longestLabel))).sign [] 255).run before =
      (.ok signature, after) ∧
      signature.length = 579 := by
  let signer : Signer FixedKey := .ofHash .sha512 ⟨[], some longestLabel⟩
  have hraw : Envelope.versionBytes (some longestLabel) = .ok (some (List.replicate 255 97)) :=
    Envelope.versionBytes_some_iff.mpr ⟨_, toBytes_longestLabel, rfl⟩
  have hversion : versionRoom (KeySource.currentVersion signer.keys) = 257 := by
    show versionRoom (some longestLabel) = 257
    rw [← entryLength_of_versionBytes hraw, Envelope.entryLength, List.length_replicate]
  have hdraw : (signer.nonces.draw 255).run ⟨List.replicate 255 0, [], []⟩ = _ :=
    NonceSource.run_draw_iff.mpr (.system (by decide) (by rw [List.length_replicate]; decide))
  obtain ⟨signature, after, hsigned⟩ := Signer.exists_run_sign hdraw rfl hraw []
  obtain ⟨hlength, -⟩ :=
    (@token_sizes FixedKey FixedKey _ _).2.1 signer [] 255 _ signature after hsigned
  refine ⟨_, after, signature, hsigned, ?_⟩
  rw [hlength, hversion]
  rfl

end SealedToken
