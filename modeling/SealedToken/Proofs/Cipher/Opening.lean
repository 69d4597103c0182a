import SealedToken.Proofs.Cipher
import SealedToken.Proofs.Cipher.KeySchedule

/-!
# The ciphers of a suite

Sealed bytes are a nonce, a ciphertext and a tag. A key opens what it sealed, and nothing else.

* `SealingScheme.sealWith?_eq_some_iff`, `Cipher.length_of_sealWith`: the sealed bytes of a
  plaintext, and their length.
* `Cipher.Yields`: the bytes come from sealing a plaintext under some nonce;
  `Cipher.Yields.exists_split` cuts the tag off.
* `CipherSuite.Chooses`: the cipher that a suite has for a key.
  `CipherSuite.ofKey_eq_ok_iff_chooses`: `Cipher.ofKey` builds it.
* `CipherSuite.Encrypts`: ciphertext and tag by the definitions of AES-GCM and ChaCha20-Poly1305.
  `CipherSuite.sealWith_eq_ok_iff_encrypts`: `Cipher.sealWith` computes them.
* `CipherSuite.Opening`: the outcomes of `CipherSuite.decode`; `CipherSuite.decode_eq_iff` says that
  it has them.
* `CipherSuite.failsClosed`: the consequences, for every suite and key.
-/

namespace SealedToken

/-! ## Sealed bytes -/

theorem SealingScheme.sealWith?_eq_some_iff {scheme : SealingScheme} {nonce : Nonce}
    {plaintext sealed : Bytes} :
    scheme.sealWith? nonce plaintext = some sealed ↔ plaintext.length ≤ scheme.limit ∧
      sealed = scheme.mask nonce plaintext ++ scheme.tag nonce (scheme.mask nonce plaintext) := by
  rw [sealWith?]
  by_cases h : plaintext.length ≤ scheme.limit
  · simp [h, eq_comm]
  · simp [h]

namespace Cipher

variable {cipher : Cipher} {nonce : Nonce} {plaintext plaintext' sealed ciphertext : Bytes}

/-- A tag is all that sealing adds. -/
theorem length_of_sealWith (h : cipher.sealWith nonce plaintext = .ok sealed) :
    sealed.length = plaintext.length + tagLength := by
  obtain ⟨-, rfl⟩ := SealingScheme.sealWith?_eq_some_iff.mp (sealWith_eq_ok_iff.mp h)
  rw [List.length_append, SealingScheme.length_mask, cipher.scheme.length_tag]

/-- The bytes are a nonce, and ciphertext and tag of the plaintext under it. -/
def Yields (cipher : Cipher) (plaintext ciphertext : Bytes) : Prop :=
  ∃ nonce sealed, ciphertext = nonce.bytes ++ sealed ∧ cipher.sealWith nonce plaintext = .ok sealed

theorem Yields.length_eq (h : cipher.Yields plaintext ciphertext) :
    ciphertext.length = nonceLength + (plaintext.length + tagLength) := by
  obtain ⟨nonce, sealed, rfl, hseal⟩ := h
  rw [List.length_append, nonce.length_bytes, length_of_sealWith hseal]

/-- The last bytes are the tag of those in the middle. -/
theorem Yields.exists_split {body tag : Bytes} (h : cipher.Yields plaintext (body ++ tag))
    (htag : tag.length = tagLength) :
    ∃ nonce, body = nonce.bytes ++ cipher.scheme.mask nonce plaintext ∧
      tag = cipher.scheme.tag nonce (cipher.scheme.mask nonce plaintext) := by
  obtain ⟨nonce, sealed, hsplit, hseal⟩ := h
  obtain ⟨-, rfl⟩ := SealingScheme.sealWith?_eq_some_iff.mp (sealWith_eq_ok_iff.mp hseal)
  rw [← List.append_assoc] at hsplit
  obtain ⟨hbody, rfl⟩ := List.append_inj' hsplit (htag.trans (cipher.scheme.length_tag _ _).symm)
  exact ⟨nonce, hbody, rfl⟩

/-- With a nonce and a ciphertext goes one tag. -/
theorem Yields.tag_unique {body tag tag' : Bytes} (h : cipher.Yields plaintext (body ++ tag))
    (h' : cipher.Yields plaintext' (body ++ tag')) (htag : tag.length = tagLength)
    (htag' : tag'.length = tagLength) : tag = tag' := by
  obtain ⟨nonce, hbody, rfl⟩ := h.exists_split htag
  obtain ⟨nonce', hbody', rfl⟩ := h'.exists_split htag'
  obtain ⟨hnonce, hmask⟩ := List.append_inj (hbody.symm.trans hbody')
    (nonce.length_bytes.trans nonce'.length_bytes.symm)
  obtain rfl := Nonce.eq_of_bytes_eq hnonce
  rw [hmask]

/-- What does not open under its nonce was not sealed by the cipher. -/
theorem not_yields_of_openWith?
    (h : cipher.scheme.openWith? nonce sealed = none) (plaintext : Bytes) :
    ¬ cipher.Yields plaintext (nonce.bytes ++ sealed) := by
  rintro ⟨nonce', sealed', hsplit, hseal⟩
  obtain ⟨hnonce, rfl⟩ := List.append_inj hsplit (nonce.length_bytes.trans nonce'.length_bytes.symm)
  obtain rfl := Nonce.eq_of_bytes_eq hnonce
  rw [sealWith_eq_ok_iff, ← SealingScheme.openWith?_eq_some_iff, h] at hseal
  cases hseal

end Cipher

/-! ## The ciphers of a suite -/

/-- The round keys of AES with a key of one of its lengths. -/
theorem Aes.expands_iff_of_mem {key : Bytes} {count : Nat} {keys : List Aes.Block}
    (h : (key.length, count) ∈ [(16, 10), (24, 12), (32, 14)]) :
    Aes.Expands key count keys ↔ keys = Aes.roundKeys key := by
  have hcases : key.length = 4 * 4 ∧ count = 4 + 6 ∨ key.length = 4 * 6 ∧ count = 6 + 6 ∨
      key.length = 4 * 8 ∧ count = 8 + 6 := by simpa using h
  rcases hcases with ⟨hkey, rfl⟩ | ⟨hkey, rfl⟩ | ⟨hkey, rfl⟩ <;>
    exact Aes.expands_iff hkey (by decide)

namespace CipherSuite

/-- `suite.Chooses key cipher`: the suite has that cipher for the key. The length of a key of
AES-GCM tells AES-128, AES-192 and AES-256 apart. -/
inductive Chooses : CipherSuite → Bytes → Cipher → Prop
  | aes128Gcm (key : CipherKey 16) : Chooses .aesGcm key.bytes (.aes128Gcm key)
  | aes192Gcm (key : CipherKey 24) : Chooses .aesGcm key.bytes (.aes192Gcm key)
  | aes256Gcm (key : CipherKey 32) : Chooses .aesGcm key.bytes (.aes256Gcm key)
  | chaCha20Poly1305 (key : CipherKey 32) :
    Chooses .chaCha20Poly1305 key.bytes (.chaCha20Poly1305 key)

/-- `suite.Encrypts key nonce plaintext sealed`: the bytes `sealed` are the ciphertext and the tag
of the plaintext under the key and the nonce. -/
inductive Encrypts (key : Bytes) (nonce : Nonce) (plaintext : Bytes) : CipherSuite → Bytes → Prop
  /-- AES has 10, 12 or 14 rounds, by the length of the key -/
  | aesGcm {count : Nat} {keys : List Aes.Block} {ciphertext : Bytes}
    (hcount : (key.length, count) ∈ [(16, 10), (24, 12), (32, 14)])
    (hkeys : Aes.Expands key count keys)
    (hlength : plaintext.length ≤ 2 ^ 36)
    (hciphertext : ciphertext =
      xorBytes plaintext (Gcm.keystream (Aes.encrypt keys) nonce.bytes plaintext.length)) :
    Encrypts key nonce plaintext .aesGcm
      (ciphertext ++ Gcm.tag (Aes.encrypt keys) nonce.bytes ciphertext)
  /-- the first block of the keystream is the key of the tag -/
  | chaCha20Poly1305 {ciphertext : Bytes} (hkey : key.length = 32)
    (hlength : plaintext.length < 64 * (2 ^ 32 - 1))
    (hciphertext : ciphertext =
      xorBytes plaintext (ChaCha20.keystream key nonce.bytes 1 plaintext.length)) :
    Encrypts key nonce plaintext .chaCha20Poly1305 (ciphertext ++
      Poly1305.tag (ChaCha20.keystream key nonce.bytes 0 32) (chaChaAuthenticated ciphertext))

variable {suite : CipherSuite} {key plaintext ciphertext sealed : Bytes}
  {nonce : Nonce} {cipher : Cipher}

theorem ofKey_eq_ok_iff_chooses :
    Cipher.ofKey suite key = .ok cipher ↔ suite.Chooses key cipher := by
  rw [Cipher.ofKey_eq_ok_iff]
  constructor
  · rintro ⟨rfl, rfl⟩
    cases cipher with
    | aes128Gcm key => exact .aes128Gcm key
    | aes192Gcm key => exact .aes192Gcm key
    | aes256Gcm key => exact .aes256Gcm key
    | chaCha20Poly1305 key => exact .chaCha20Poly1305 key
  · rintro (_ | _ | _ | _) <;> exact ⟨rfl, rfl⟩

theorem encrypts_aesGcm_iff (count : Nat)
    (h : (key.length, count) ∈ [(16, 10), (24, 12), (32, 14)]) :
    Encrypts key nonce plaintext .aesGcm sealed ↔
      (aesGcmScheme key).sealWith? nonce plaintext = some sealed := by
  rw [SealingScheme.sealWith?_eq_some_iff]
  constructor
  · intro hencrypts
    cases hencrypts with
    | aesGcm hcount hkeys hlength hciphertext =>
      obtain rfl := (Aes.expands_iff_of_mem hcount).mp hkeys
      subst hciphertext
      exact ⟨hlength, rfl⟩
  · rintro ⟨hlength, rfl⟩
    exact .aesGcm h ((Aes.expands_iff_of_mem h).mpr rfl) hlength rfl

theorem encrypts_chaCha20Poly1305_iff (h : key.length = 32) :
    Encrypts key nonce plaintext .chaCha20Poly1305 sealed ↔
      (chaCha20Poly1305Scheme key).sealWith? nonce plaintext = some sealed := by
  rw [SealingScheme.sealWith?_eq_some_iff]
  constructor
  · intro hencrypts
    cases hencrypts with
    | chaCha20Poly1305 _ hlength hciphertext =>
      subst hciphertext
      exact ⟨Nat.le_sub_one_of_lt hlength, rfl⟩
  · rintro ⟨hlength, rfl⟩
    exact .chaCha20Poly1305 h (Nat.lt_of_le_sub_one (by decide) hlength) rfl

/-- The cipher that `Cipher.ofKey` builds seals as its suite does under that key. -/
theorem sealWith_eq_ok_iff_encrypts (h : Cipher.ofKey suite key = .ok cipher) :
    cipher.sealWith nonce plaintext = .ok sealed ↔ suite.Encrypts key nonce plaintext sealed := by
  rw [Cipher.sealWith_eq_ok_iff]
  cases ofKey_eq_ok_iff_chooses.mp h with
  | aes128Gcm key => exact (encrypts_aesGcm_iff 10 (by simp [key.length_bytes])).symm
  | aes192Gcm key => exact (encrypts_aesGcm_iff 12 (by simp [key.length_bytes])).symm
  | aes256Gcm key => exact (encrypts_aesGcm_iff 14 (by simp [key.length_bytes])).symm
  | chaCha20Poly1305 key => exact (encrypts_chaCha20Poly1305_iff key.length_bytes).symm

-- AES-128-GCM of one block of zeros under a key and a nonce of zeros.
example :
    (Cipher.aes128Gcm ⟨zeroBytes 16, rfl⟩).scheme.sealWith? ⟨zeroBytes 12, rfl⟩ (zeroBytes 16) =
    some [0x03, 0x88, 0xda, 0xce, 0x60, 0xb6, 0xa3, 0x92, 0xf3, 0x28, 0xc2, 0xb9, 0x71, 0xb2,
      0xfe, 0x78, 0xab, 0x6e, 0x47, 0xd4, 0x2c, 0xec, 0x13, 0xbd, 0xf5, 0x3a, 0x67, 0xb2, 0x12,
      0x57, 0xbd, 0xdf] := by
  decide +kernel

/-! ## Opening -/

/-- The bytes are a nonce and what the suite seals under it. -/
def Yields (suite : CipherSuite) (key plaintext ciphertext : Bytes) : Prop :=
  ∃ nonce sealed, ciphertext = nonce.bytes ++ sealed ∧ suite.Encrypts key nonce plaintext sealed

theorem yields_iff (h : Cipher.ofKey suite key = .ok cipher) :
    suite.Yields key plaintext ciphertext ↔ cipher.Yields plaintext ciphertext := by
  simp only [Yields, Cipher.Yields, sealWith_eq_ok_iff_encrypts h]

theorem Encrypts.key_length_mem (h : suite.Encrypts key nonce plaintext sealed) :
    key.length ∈ suite.keyLengths := by
  cases h with
  | aesGcm hcount =>
    have hcases : key.length = 16 ∨ key.length = 24 ∨ key.length = 32 := by
      simp only [List.mem_cons, Prod.mk.injEq, List.not_mem_nil, or_false] at hcount
      exact hcount.imp And.left (Or.imp And.left And.left)
    simpa [keyLengths] using hcases
  | chaCha20Poly1305 hkey => simpa [keyLengths] using hkey

/-- The outcomes of `CipherSuite.decode`: the plaintext of what the suite sealed under the key,
and for all other bytes the first that applies of a wrong key length, no room for a nonce, and a
wrong tag. -/
inductive Opening (suite : CipherSuite) (key ciphertext : Bytes) : Except CipherError Bytes → Prop
  | badKey : key.length ∉ suite.keyLengths →
    Opening suite key ciphertext (.error (.invalidKeyLength suite suite.keyLengths key.length))
  | tooShort : key.length ∈ suite.keyLengths → ciphertext.length < SealedToken.nonceLength →
    Opening suite key ciphertext
      (.error (.ciphertextTooShort SealedToken.nonceLength ciphertext.length))
  | genuine (plaintext : Bytes) : suite.Yields key plaintext ciphertext →
    Opening suite key ciphertext (.ok plaintext)
  | forged : key.length ∈ suite.keyLengths → SealedToken.nonceLength ≤ ciphertext.length →
    (∀ plaintext, ¬ suite.Yields key plaintext ciphertext) →
    Opening suite key ciphertext (.error .tagMismatch)

theorem decode_eq_ok_iff_yields :
    suite.decode key ciphertext = .ok plaintext ↔ suite.Yields key plaintext ciphertext := by
  rw [decode_eq_ok_iff]
  constructor
  · rintro ⟨cipher, nonce, sealed, hkey, hct, hseal⟩
    exact ⟨nonce, sealed, hct, (sealWith_eq_ok_iff_encrypts hkey).mp hseal⟩
  · rintro ⟨nonce, sealed, hct, hencrypts⟩
    obtain ⟨cipher, hkey⟩ := Cipher.exists_ofKey_iff.mpr hencrypts.key_length_mem
    exact ⟨cipher, nonce, sealed, hkey, hct, (sealWith_eq_ok_iff_encrypts hkey).mpr hencrypts⟩

theorem mem_keyLengths_of_decode (h : suite.decode key ciphertext = .ok plaintext) :
    key.length ∈ suite.keyLengths := by
  obtain ⟨_, _, _, hencrypts⟩ := decode_eq_ok_iff_yields.mp h
  exact hencrypts.key_length_mem

theorem Yields.length_eq (h : suite.Yields key plaintext ciphertext) :
    ciphertext.length = SealedToken.nonceLength + (plaintext.length + tagLength) := by
  obtain ⟨cipher, hkey⟩ :=
    Cipher.exists_ofKey_iff.mpr (mem_keyLengths_of_decode (decode_eq_ok_iff_yields.mpr h))
  exact ((yields_iff hkey).mp h).length_eq

theorem decode_eq_tagMismatch_iff :
    suite.decode key ciphertext = .error .tagMismatch ↔ key.length ∈ suite.keyLengths ∧
      SealedToken.nonceLength ≤ ciphertext.length ∧
      ∀ plaintext, ¬ suite.Yields key plaintext ciphertext := by
  constructor
  · intro herror
    rcases decode_eq_error_iff.mp herror with ⟨-, he⟩ | ⟨-, -, he⟩
      | ⟨cipher, nonce, sealed, hkey, rfl, hopen, -⟩
    · cases he
    · cases he
    · refine ⟨Cipher.exists_ofKey_iff.mp ⟨cipher, hkey⟩, ?_, fun plaintext hyields => ?_⟩
      · rw [List.length_append, nonce.length_bytes]
        exact Nat.le_add_right _ _
      · exact Cipher.not_yields_of_openWith? hopen plaintext ((yields_iff hkey).mp hyields)
  · rintro ⟨h, hroom, hnone⟩
    cases hdecode : suite.decode key ciphertext with
    | ok plaintext => exact absurd (decode_eq_ok_iff_yields.mp hdecode) (hnone plaintext)
    | error e =>
      rcases decode_eq_error_iff.mp hdecode with ⟨hlen, -⟩ | ⟨-, hshort, -⟩
        | ⟨-, -, -, -, -, -, rfl⟩
      · exact absurd h hlen
      · exact absurd hroom (Nat.not_le_of_lt hshort)
      · rfl

/-- Opening gives the plaintext of what the key sealed, and of all else the first reason
against it. -/
theorem decode_eq_iff {outcome : Except CipherError Bytes} :
    suite.decode key ciphertext = outcome ↔ suite.Opening key ciphertext outcome := by
  constructor
  · rintro rfl
    cases hdecode : suite.decode key ciphertext with
    | ok plaintext => exact .genuine plaintext (decode_eq_ok_iff_yields.mp hdecode)
    | error e =>
      rcases decode_eq_error_iff.mp hdecode with ⟨hlen, rfl⟩ | ⟨h, hshort, rfl⟩
        | ⟨-, -, -, -, -, -, rfl⟩
      · exact .badKey hlen
      · exact .tooShort h hshort
      · obtain ⟨h, hroom, hnone⟩ := decode_eq_tagMismatch_iff.mp hdecode
        exact .forged h hroom hnone
  · rintro (hlen | ⟨h, hshort⟩ | ⟨plaintext, hyields⟩ | ⟨h, hroom, hnone⟩)
    · exact decode_eq_error_iff.mpr (.inl ⟨hlen, rfl⟩)
    · exact decode_eq_error_iff.mpr (.inr (.inl ⟨h, hshort, rfl⟩))
    · exact decode_eq_ok_iff_yields.mpr hyields
    · exact decode_eq_tagMismatch_iff.mpr ⟨h, hroom, hnone⟩

/-- Another tag is no tag. -/
theorem decode_of_other_tag {body tag tag' : Bytes}
    (h : suite.decode key (body ++ tag) = .ok plaintext)
    (htag : tag.length = tagLength) (htag' : tag'.length = tagLength) (hne : tag' ≠ tag) :
    suite.decode key (body ++ tag') = .error .tagMismatch := by
  have hmem := mem_keyLengths_of_decode h
  have hyields := decode_eq_ok_iff_yields.mp h
  refine decode_eq_tagMismatch_iff.mpr ⟨hmem, ?_, fun plaintext' hyields' => ?_⟩
  · have hlen := hyields.length_eq
    rw [List.length_append] at hlen ⊢
    omega
  · obtain ⟨cipher, hkey⟩ := Cipher.exists_ofKey_iff.mpr hmem
    exact hne (((yields_iff hkey).mp hyields').tag_unique ((yields_iff hkey).mp hyields) htag' htag)

theorem run_encode_eq_ok_iff_encrypts {before after : Ambient} :
    (suite.encode key plaintext).run before = (.ok ciphertext, after) ↔
      ∃ nonce sealed, nonce.bytes = before.entropy.take SealedToken.nonceLength ∧
        suite.Encrypts key nonce plaintext sealed ∧ ciphertext = nonce.bytes ++ sealed ∧
        after = before.drawn SealedToken.nonceLength := by
  rw [run_encode_eq_ok_iff]
  constructor
  · rintro ⟨cipher, nonce, sealed, hkey, hnonce, hseal, h⟩
    exact ⟨nonce, sealed, hnonce, (sealWith_eq_ok_iff_encrypts hkey).mp hseal, h⟩
  · rintro ⟨nonce, sealed, hnonce, hencrypts, h⟩
    obtain ⟨cipher, hkey⟩ := Cipher.exists_ofKey_iff.mpr hencrypts.key_length_mem
    exact ⟨cipher, nonce, sealed, hkey, hnonce, (sealWith_eq_ok_iff_encrypts hkey).mpr hencrypts, h⟩

theorem decode_of_run_encode {before after : Ambient}
    (h : (suite.encode key plaintext).run before = (.ok ciphertext, after)) :
    suite.decode key ciphertext = .ok plaintext := by
  obtain ⟨nonce, sealed, -, hencrypts, hct, -⟩ := run_encode_eq_ok_iff_encrypts.mp h
  exact decode_eq_ok_iff_yields.mpr ⟨nonce, sealed, hct, hencrypts⟩

theorem exists_run_encode {before : Ambient} (h : key.length ∈ suite.keyLengths)
    (hplain : plaintext.length < 2 ^ 32)
    (hentropy : SealedToken.nonceLength ≤ before.entropy.length) :
    ∃ ciphertext after, (suite.encode key plaintext).run before = (.ok ciphertext, after) := by
  obtain ⟨_, _, _, -, -, -, hrun⟩ := exists_run_encode_eq h hentropy hplain
  exact ⟨_, _, hrun⟩

/-- `CipherSuite.decode` opens what `CipherSuite.encode` sealed under the key, and nothing else. -/
structure FailsClosed (suite : CipherSuite) (key : Bytes) : Prop where
  /-- `Cipher.ofKey` builds a cipher for the key lengths of the suite -/
  exists_cipher_iff : (∃ cipher, Cipher.ofKey suite key = .ok cipher) ↔
    key.length ∈ suite.keyLengths
  /-- it is the AES of the key's length, or ChaCha20 -/
  ofKey_eq_ok_iff : ∀ cipher, Cipher.ofKey suite key = .ok cipher ↔ suite.Chooses key cipher
  of_cipher : ∀ cipher, Cipher.ofKey suite key = .ok cipher →
    cipher.suite = suite ∧ cipher.key = key
  /-- it seals with 10, 12 or 14 rounds of AES, or with ChaCha20, under that key -/
  sealWith_eq_ok_iff : ∀ cipher nonce plaintext sealed, Cipher.ofKey suite key = .ok cipher →
    (cipher.sealWith nonce plaintext = .ok sealed ↔ suite.Encrypts key nonce plaintext sealed)
  decode_eq_iff : ∀ ciphertext outcome,
    suite.decode key ciphertext = outcome ↔ suite.Opening key ciphertext outcome
  length_eq : ∀ ciphertext plaintext, suite.decode key ciphertext = .ok plaintext →
    ciphertext.length = plaintext.length + 28
  /-- without room for a tag there is none -/
  no_room : ∀ ciphertext, key.length ∈ suite.keyLengths →
    12 ≤ ciphertext.length → ciphertext.length < 28 →
    suite.decode key ciphertext = .error .tagMismatch
  other_tag : ∀ body tag tag' plaintext, tag.length = 16 → tag'.length = 16 → tag' ≠ tag →
    suite.decode key (body ++ tag) = .ok plaintext →
      suite.decode key (body ++ tag') = .error .tagMismatch
  /-- `CipherSuite.encode` seals under the 12 bytes that it draws -/
  run_encode_eq_ok_iff : ∀ plaintext ciphertext before after,
    (suite.encode key plaintext).run before = (.ok ciphertext, after) ↔
      ∃ nonce sealed, nonce.bytes = before.entropy.take 12 ∧
        suite.Encrypts key nonce plaintext sealed ∧
        ciphertext = nonce.bytes ++ sealed ∧ after = before.drawn 12
  opens_sealed : ∀ plaintext ciphertext before after,
    (suite.encode key plaintext).run before = (.ok ciphertext, after) →
      suite.decode key ciphertext = .ok plaintext
  exists_sealed : ∀ plaintext before, key.length ∈ suite.keyLengths → plaintext.length < 2 ^ 32 →
    12 ≤ before.entropy.length →
      ∃ ciphertext after, (suite.encode key plaintext).run before = (.ok ciphertext, after)

theorem failsClosed (suite : CipherSuite) (key : Bytes) : suite.FailsClosed key where
  exists_cipher_iff := Cipher.exists_ofKey_iff
  ofKey_eq_ok_iff cipher := ofKey_eq_ok_iff_chooses
  of_cipher cipher h := Cipher.ofKey_eq_ok_iff.mp h
  sealWith_eq_ok_iff cipher nonce plaintext sealed h := sealWith_eq_ok_iff_encrypts h
  decode_eq_iff ciphertext outcome := decode_eq_iff
  length_eq ciphertext plaintext h := by
    have hlen := (decode_eq_ok_iff_yields.mp h).length_eq
    rw [hlen, SealedToken.nonceLength, tagLength]
    omega
  no_room ciphertext hkey hroom hshort := by
    refine decode_eq_tagMismatch_iff.mpr ⟨hkey, hroom, fun plaintext hyields => ?_⟩
    have hlen := hyields.length_eq
    rw [SealedToken.nonceLength, tagLength] at hlen
    omega
  other_tag body tag tag' plaintext htag htag' hne h := decode_of_other_tag h htag htag' hne
  run_encode_eq_ok_iff plaintext ciphertext before after := run_encode_eq_ok_iff_encrypts
  opens_sealed plaintext ciphertext before after h := decode_of_run_encode h
  exists_sealed plaintext before hkey hplain hentropy := exists_run_encode hkey hplain hentropy

end CipherSuite

end SealedToken
