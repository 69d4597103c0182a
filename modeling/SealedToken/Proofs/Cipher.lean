import Mathlib.Algebra.Group.Nat.Defs
import SealedToken.NonceSource
import SealedToken.Proofs.Outcome

/-!
# Sealing and opening

* `Cipher.ofKey_eq_ok_iff`: the keys that `Cipher.ofKey` accepts for a suite.
* `Cipher.openWith_eq_ok_iff`, `Cipher.decode_eq_ok_iff`, `CipherSuite.decode_eq_ok_iff`: opening
  gives a plaintext exactly if sealing that plaintext gives the sealed bytes.
* `Cipher.decode_eq_error_iff`, `CipherSuite.decode_eq_error_iff`: the errors of opening, in the
  order of the checks. `CipherSuite.encode_raisesOnly`: sealing never ends in `tagMismatch`.
* `Cipher.exists_sealWith`: a plaintext within the limit can be sealed under every nonce.
* `CipherSuite.run_encode_eq_ok_iff`: `CipherSuite.encode` takes the next 12 random bytes for the
  nonce. `CipherSuite.run_encode_of_not_mem`, `CipherSuite.run_encode_of_lt`: it takes none if the
  key is refused or fewer than 12 are left.
-/

namespace SealedToken

/-! ## Nonces -/

theorem Nonce.eq_of_bytes_eq {nonce nonce' : Nonce} (h : nonce.bytes = nonce'.bytes) :
    nonce = nonce' := by
  cases nonce
  cases h
  rfl

theorem Nonce.ofBytes_eq_ok_iff {bs : Bytes} {nonce : Nonce} :
    Nonce.ofBytes bs = .ok nonce ↔ nonce.bytes = bs := by
  rw [ofBytes]
  constructor
  · intro h
    split at h
    · cases h
      rfl
    · cases h
  · rintro rfl
    rw [dif_pos nonce.length_bytes]

/-- `freshNonce` succeeds with the next 12 random bytes and takes them. -/
theorem run_freshNonce_eq_ok_iff {before after : Ambient} {nonce : Nonce} :
    (freshNonce nonceLength).run before = (.ok nonce, after) ↔
      nonce.bytes = before.entropy.take nonceLength ∧ after = before.drawn nonceLength := by
  have hcheck : checkNonceLength nonceLength = .ok () := rfl
  rw [freshNonce, Action.run_ofExcept_bind_of_ok hcheck, Action.run_bind_eq_ok_iff]
  simp only [Action.run_draw_eq_ok_iff, Action.run_ofExcept_eq_ok_iff, Nonce.ofBytes_eq_ok_iff]
  constructor
  · rintro ⟨bs, middle, ⟨-, rfl, rfl⟩, hn, rfl⟩
    exact ⟨hn, rfl⟩
  · rintro ⟨hn, rfl⟩
    have hlen : nonceLength ≤ before.entropy.length := by
      have h := nonce.length_bytes
      rw [hn, List.length_take] at h
      omega
    exact ⟨_, _, ⟨hlen, rfl, rfl⟩, hn, rfl⟩

theorem run_freshNonce_of_lt {before : Ambient} (h : before.entropy.length < nonceLength) :
    (freshNonce nonceLength).run before =
      (.error (.entropy "entropy exhausted"), before.drawFailed nonceLength) := by
  have hcheck : checkNonceLength nonceLength = .ok () := rfl
  rw [freshNonce, Action.run_ofExcept_bind_of_ok hcheck]
  exact Action.run_bind_error (Action.run_draw_of_lt h)

/-! ## Ciphers -/

theorem CipherKey.ofBytes?_eq_some_iff {length : Nat} {bs : Bytes} {key : CipherKey length} :
    ofBytes? length bs = some key ↔ key.bytes = bs := by
  rw [ofBytes?]
  constructor
  · intro h
    split at h
    · cases h
      rfl
    · cases h
  · rintro rfl
    rw [dif_pos key.length_bytes]

namespace Cipher

variable {cipher : Cipher} {nonce : Nonce} {plaintext sealed ciphertext : Bytes}

theorem length_key_mem (cipher : Cipher) : cipher.key.length ∈ cipher.suite.keyLengths := by
  cases cipher with
  | aes128Gcm key | aes192Gcm key | aes256Gcm key | chaCha20Poly1305 key =>
    simp [suite, Cipher.key, key.length_bytes, CipherSuite.keyLengths]

theorem ofKey?_eq_some_iff {suite : CipherSuite} {key : Bytes} :
    ofKey? suite key = some cipher ↔ cipher.suite = suite ∧ cipher.key = key := by
  constructor
  · intro h
    unfold ofKey? at h
    split at h
    case h_5 => cases h
    all_goals
      obtain ⟨cipherKey, hkey, rfl⟩ := Option.map_eq_some_iff.mp h
      exact ⟨rfl, CipherKey.ofBytes?_eq_some_iff.mp hkey⟩
  · rintro ⟨rfl, rfl⟩
    cases cipher with
    | aes128Gcm key | aes192Gcm key | aes256Gcm key | chaCha20Poly1305 key =>
      have hkey := CipherKey.ofBytes?_eq_some_iff.mpr (Eq.refl key.bytes)
      simp [ofKey?, suite, Cipher.key, key.length_bytes, hkey]

/-- `ofKey` builds the cipher that has the suite and the key. -/
theorem ofKey_eq_ok_iff {suite : CipherSuite} {key : Bytes} :
    ofKey suite key = .ok cipher ↔ cipher.suite = suite ∧ cipher.key = key := by
  rw [ofKey, ← ofKey?_eq_some_iff]
  cases ofKey? suite key <;> simp

theorem exists_ofKey_iff {suite : CipherSuite} {key : Bytes} :
    (∃ cipher, ofKey suite key = .ok cipher) ↔ key.length ∈ suite.keyLengths := by
  simp only [ofKey_eq_ok_iff]
  constructor
  · rintro ⟨cipher, rfl, rfl⟩
    exact cipher.length_key_mem
  · intro h
    cases suite with
    | aesGcm =>
      have hlength : key.length = 16 ∨ key.length = 24 ∨ key.length = 32 := by
        simpa [CipherSuite.keyLengths] using h
      rcases hlength with h16 | h24 | h32
      · exact ⟨aes128Gcm ⟨key, h16⟩, rfl, rfl⟩
      · exact ⟨aes192Gcm ⟨key, h24⟩, rfl, rfl⟩
      · exact ⟨aes256Gcm ⟨key, h32⟩, rfl, rfl⟩
    | chaCha20Poly1305 =>
      have hlength : key.length = 32 := by simpa [CipherSuite.keyLengths] using h
      exact ⟨chaCha20Poly1305 ⟨key, hlength⟩, rfl, rfl⟩

theorem ofKey_eq_error_iff {suite : CipherSuite} {key : Bytes} {e : CipherError} :
    ofKey suite key = .error e ↔ key.length ∉ suite.keyLengths ∧
      e = .invalidKeyLength suite suite.keyLengths key.length := by
  rw [← exists_ofKey_iff, ofKey]
  cases ofKey? suite key <;> simp [eq_comm]

theorem sealWith_eq_ok_iff :
    cipher.sealWith nonce plaintext = .ok sealed ↔
      cipher.scheme.sealWith? nonce plaintext = some sealed := by
  rw [sealWith]
  cases cipher.scheme.sealWith? nonce plaintext <;> simp

/-- The limit of every `scheme` is above 2^32 bytes. -/
theorem lt_limit (cipher : Cipher) : 2 ^ 32 < cipher.scheme.limit := by
  cases cipher with
  | aes128Gcm | aes192Gcm | aes256Gcm =>
    show 2 ^ 32 < 16 * 4294967296
    decide
  | chaCha20Poly1305 =>
    show 2 ^ 32 < 64 * 4294967295 - 1
    decide

/-- `sealWith` succeeds on a plaintext of fewer than 2^32 bytes, under every nonce. -/
theorem exists_sealWith (cipher : Cipher) (nonce : Nonce) (h : plaintext.length < 2 ^ 32) :
    ∃ sealed, cipher.sealWith nonce plaintext = .ok sealed := by
  have hle : plaintext.length ≤ cipher.scheme.limit := Nat.le_of_lt (Nat.lt_trans h cipher.lt_limit)
  simp only [sealWith_eq_ok_iff]
  rw [SealingScheme.sealWith?, if_pos hle]
  exact ⟨_, rfl⟩

/-- `openWith` gives a plaintext exactly if `sealWith` of that plaintext, under the same nonce,
gives the bytes that are opened. -/
theorem openWith_eq_ok_iff {bs : Bytes} :
    cipher.openWith bs sealed = .ok plaintext ↔
      ∃ nonce : Nonce, nonce.bytes = bs ∧ cipher.sealWith nonce plaintext = .ok sealed := by
  rw [openWith]
  constructor
  · intro h
    split at h
    · next hlen =>
      refine ⟨⟨bs, hlen⟩, rfl, ?_⟩
      rw [sealWith_eq_ok_iff, ← SealingScheme.openWith?_eq_some_iff]
      split at h
      · next he =>
        cases h
        exact he
      · cases h
    · cases h
  · rintro ⟨nonce, rfl, hseal⟩
    rw [sealWith_eq_ok_iff, ← SealingScheme.openWith?_eq_some_iff] at hseal
    rw [dif_pos nonce.length_bytes, hseal]

/-- `Cipher.decode` gives a plaintext exactly if the bytes are a nonce and what `sealWith` gives for
that plaintext under it. -/
theorem decode_eq_ok_iff :
    cipher.decode ciphertext = .ok plaintext ↔
      ∃ nonce sealed, ciphertext = nonce.bytes ++ sealed ∧
        cipher.sealWith nonce plaintext = .ok sealed := by
  rw [decode]
  constructor
  · intro h
    split at h
    · cases h
    · obtain ⟨nonce, hn, hseal⟩ := openWith_eq_ok_iff.mp h
      exact ⟨nonce, _, by rw [hn, List.take_append_drop], hseal⟩
  · rintro ⟨nonce, sealed, rfl, hseal⟩
    have hlen : ¬ (nonce.bytes ++ sealed).length < nonceLength := by
      rw [List.length_append, nonce.length_bytes]
      omega
    rw [if_neg hlen, List.take_left' nonce.length_bytes, List.drop_left' nonce.length_bytes,
      openWith_eq_ok_iff]
    exact ⟨nonce, rfl, hseal⟩

theorem openWith_eq_error_iff {e : CipherError} :
    cipher.openWith nonce.bytes sealed = .error e ↔
      cipher.scheme.openWith? nonce sealed = none ∧ e = .tagMismatch := by
  rw [openWith, dif_pos nonce.length_bytes]
  cases cipher.scheme.openWith? nonce sealed <;> simp [eq_comm]

/-- `Cipher.decode` fails on fewer than 12 bytes, and on bytes of which the rest does not open under
the first 12. -/
theorem decode_eq_error_iff {e : CipherError} :
    cipher.decode ciphertext = .error e ↔
      (ciphertext.length < nonceLength ∧ e = .ciphertextTooShort nonceLength ciphertext.length) ∨
      ∃ nonce sealed, ciphertext = nonce.bytes ++ sealed ∧
        cipher.scheme.openWith? nonce sealed = none ∧ e = .tagMismatch := by
  rw [decode]
  by_cases hlen : ciphertext.length < nonceLength
  · rw [if_pos hlen]
    constructor
    · rintro ⟨⟩
      exact .inl ⟨hlen, rfl⟩
    · rintro (⟨-, rfl⟩ | ⟨nonce, sealed, rfl, -⟩)
      · rfl
      · rw [List.length_append, nonce.length_bytes] at hlen
        omega
  -- with room for a nonce there is one way to split
  · obtain ⟨nonce, sealed, rfl⟩ :
        ∃ (nonce : Nonce) (sealed : Bytes), ciphertext = nonce.bytes ++ sealed :=
      ⟨⟨ciphertext.take nonceLength, List.length_take_of_le (Nat.le_of_not_lt hlen)⟩, _,
        (List.take_append_drop nonceLength ciphertext).symm⟩
    rw [if_neg hlen, List.take_left' nonce.length_bytes, List.drop_left' nonce.length_bytes,
      openWith_eq_error_iff]
    constructor
    · intro h
      exact .inr ⟨nonce, sealed, rfl, h⟩
    · rintro (⟨hlt, -⟩ | ⟨nonce', sealed', hsplit, h⟩)
      · exact absurd hlt hlen
      · obtain ⟨hnonce, rfl⟩ :=
          List.append_inj hsplit (nonce.length_bytes.trans nonce'.length_bytes.symm)
        obtain rfl := Nonce.eq_of_bytes_eq hnonce
        exact h

/-- `Cipher.encode` seals under the next 12 random bytes and puts them in front. -/
theorem run_encode_eq_ok_iff {before after : Ambient} :
    (cipher.encode plaintext).run before = (.ok ciphertext, after) ↔
      ∃ nonce sealed, nonce.bytes = before.entropy.take nonceLength ∧
        cipher.sealWith nonce plaintext = .ok sealed ∧ ciphertext = nonce.bytes ++ sealed ∧
        after = before.drawn nonceLength := by
  simp only [encode, CipherSuite.nonceLength, Action.run_bind_eq_ok_iff,
    Action.run_mapError_eq_ok_iff, run_freshNonce_eq_ok_iff, Action.run_ofExcept_eq_ok_iff]
  constructor
  · rintro ⟨nonce, middle, ⟨hn, rfl⟩, sealed, middle, ⟨hseal, rfl⟩, he⟩
    cases he
    exact ⟨nonce, sealed, hn, hseal, rfl, rfl⟩
  · rintro ⟨nonce, sealed, hn, hseal, rfl, rfl⟩
    exact ⟨nonce, _, ⟨hn, rfl⟩, sealed, _, ⟨hseal, rfl⟩, rfl⟩

end Cipher

/-! ## Suites -/

namespace CipherSuite

variable {suite : CipherSuite} {key plaintext ciphertext : Bytes}

theorem decode_eq_ok_iff :
    suite.decode key ciphertext = .ok plaintext ↔
      ∃ cipher nonce sealed, Cipher.ofKey suite key = .ok cipher ∧
        ciphertext = nonce.bytes ++ sealed ∧ cipher.sealWith nonce plaintext = .ok sealed := by
  rw [decode, bind_eq_ok_iff]
  simp only [Cipher.decode_eq_ok_iff]
  constructor
  · rintro ⟨cipher, hkey, nonce, sealed, hct, hseal⟩
    exact ⟨cipher, nonce, sealed, hkey, hct, hseal⟩
  · rintro ⟨cipher, nonce, sealed, hkey, hct, hseal⟩
    exact ⟨cipher, hkey, nonce, sealed, hct, hseal⟩

/-- `CipherSuite.decode` fails for the length of the key, else for fewer than 12 bytes, else with
`tagMismatch`. -/
theorem decode_eq_error_iff {e : CipherError} :
    suite.decode key ciphertext = .error e ↔
      (key.length ∉ suite.keyLengths ∧ e = .invalidKeyLength suite suite.keyLengths key.length) ∨
      (key.length ∈ suite.keyLengths ∧ ciphertext.length < SealedToken.nonceLength ∧
        e = .ciphertextTooShort SealedToken.nonceLength ciphertext.length) ∨
      ∃ cipher nonce sealed, Cipher.ofKey suite key = .ok cipher ∧
        ciphertext = nonce.bytes ++ sealed ∧
        cipher.scheme.openWith? nonce sealed = none ∧ e = .tagMismatch := by
  rw [decode, bind_eq_error_iff, Cipher.ofKey_eq_error_iff, ← Cipher.exists_ofKey_iff]
  simp only [Cipher.decode_eq_error_iff]
  constructor
  · rintro (h | ⟨cipher, hkey, hshort | ⟨nonce, sealed, h⟩⟩)
    · exact .inl h
    · exact .inr (.inl ⟨⟨cipher, hkey⟩, hshort⟩)
    · exact .inr (.inr ⟨cipher, nonce, sealed, hkey, h⟩)
  · rintro (h | ⟨⟨cipher, hkey⟩, hshort⟩ | ⟨cipher, nonce, sealed, hkey, h⟩)
    · exact .inl h
    · exact .inr ⟨cipher, hkey, .inl hshort⟩
    · exact .inr ⟨cipher, hkey, .inr ⟨nonce, sealed, h⟩⟩

theorem decode_eq_ok_iff_openWith? :
    suite.decode key ciphertext = .ok plaintext ↔
      ∃ cipher nonce sealed, Cipher.ofKey suite key = .ok cipher ∧
        ciphertext = nonce.bytes ++ sealed ∧
        cipher.scheme.openWith? nonce sealed = some plaintext := by
  simp only [decode_eq_ok_iff, Cipher.sealWith_eq_ok_iff, SealingScheme.openWith?_eq_some_iff]

theorem run_encode_eq_ok_iff {before after : Ambient} :
    (suite.encode key plaintext).run before = (.ok ciphertext, after) ↔
      ∃ cipher nonce sealed, Cipher.ofKey suite key = .ok cipher ∧
        nonce.bytes = before.entropy.take SealedToken.nonceLength ∧
        cipher.sealWith nonce plaintext = .ok sealed ∧
        ciphertext = nonce.bytes ++ sealed ∧ after = before.drawn SealedToken.nonceLength := by
  simp only [encode, Action.run_bind_eq_ok_iff, Action.run_ofExcept_eq_ok_iff,
    Cipher.run_encode_eq_ok_iff]
  constructor
  · rintro ⟨cipher, middle, ⟨hkey, rfl⟩, nonce, sealed, h⟩
    exact ⟨cipher, nonce, sealed, hkey, h⟩
  · rintro ⟨cipher, nonce, sealed, hkey, h⟩
    exact ⟨cipher, _, ⟨hkey, rfl⟩, nonce, sealed, h⟩

/-- `CipherSuite.encode` refuses a key of another length before it draws a nonce. -/
theorem run_encode_of_not_mem {before : Ambient} (h : key.length ∉ suite.keyLengths) :
    (suite.encode key plaintext).run before =
      (.error (.invalidKeyLength suite suite.keyLengths key.length), before) :=
  Action.run_ofExcept_bind_of_error (Cipher.ofKey_eq_error_iff.mpr ⟨h, rfl⟩)

theorem run_encode_of_lt {before : Ambient} (hkey : key.length ∈ suite.keyLengths)
    (hfew : before.entropy.length < SealedToken.nonceLength) :
    (suite.encode key plaintext).run before =
      (.error (.nonce (.entropy "entropy exhausted")),
        before.drawFailed SealedToken.nonceLength) := by
  obtain ⟨cipher, hcipher⟩ := Cipher.exists_ofKey_iff.mpr hkey
  rw [encode, Action.run_ofExcept_bind_of_ok hcipher]
  apply Action.run_bind_error
  rw [Action.run_mapError, nonceLength, run_freshNonce_of_lt hfew]
  rfl

/-- `CipherSuite.encode` succeeds with a key of the suite, 12 random bytes, and a plaintext of fewer
than 2^32 bytes. -/
theorem exists_run_encode_eq {before : Ambient} (hkey : key.length ∈ suite.keyLengths)
    (henough : SealedToken.nonceLength ≤ before.entropy.length)
    (hplain : plaintext.length < 2 ^ 32) :
    ∃ cipher nonce sealed, Cipher.ofKey suite key = .ok cipher ∧
      nonce.bytes = before.entropy.take SealedToken.nonceLength ∧
      cipher.sealWith nonce plaintext = .ok sealed ∧
      (suite.encode key plaintext).run before =
        (.ok (nonce.bytes ++ sealed), before.drawn SealedToken.nonceLength) := by
  obtain ⟨cipher, hcipher⟩ := Cipher.exists_ofKey_iff.mpr hkey
  let nonce : Nonce := ⟨before.entropy.take SealedToken.nonceLength, List.length_take_of_le henough⟩
  obtain ⟨sealed, hseal⟩ := cipher.exists_sealWith nonce hplain
  exact ⟨cipher, nonce, sealed, hcipher, rfl, hseal,
    run_encode_eq_ok_iff.mpr ⟨cipher, nonce, sealed, hcipher, rfl, hseal, rfl, rfl⟩⟩

end CipherSuite

/-! ## Errors of sealing -/

/-- `CipherSuite.encode` never fails with `tagMismatch`. -/
theorem CipherSuite.encode_raisesOnly (suite : CipherSuite) (key plaintext : Bytes) :
    (suite.encode key plaintext).RaisesOnly (· ≠ .tagMismatch) := by
  refine .bind (.ofExcept ?_) fun cipher => ?_
  · intro e he
    obtain ⟨-, rfl⟩ := Cipher.ofKey_eq_error_iff.mp he
    exact nofun
  refine .bind (.mapError_of_forall (fun _ => nofun) _) fun nonce => ?_
  refine .bind (.ofExcept ?_) fun sealed => .pure _
  intro e he
  rw [Cipher.sealWith] at he
  split at he
  · cases he
  · cases he
    exact nofun

end SealedToken
