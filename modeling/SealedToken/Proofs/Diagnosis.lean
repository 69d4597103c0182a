import SealedToken.Proofs.Cipher
import SealedToken.Proofs.Envelope.Grammar
import SealedToken.Proofs.Service.Signer

/-!
# The numbers in errors

An error of the envelope and cipher layers may carry two numbers, and its message states how they
compare: a declared length above the bytes that remain, a length above a maximum, a length other
than the supported ones.

* `Primitive`: the operations of the two layers with their arguments. `Primitive.error?`: the error
  of one.
* `LayerError.IsTrue`: the statement that the message of an error makes about its numbers.
* `Primitive.Fails`: one rule for each error with numbers, which are computed from the arguments.
  `Primitive.fails_of_error?`: every error of an operation comes by a rule.
* `Primitive.Misstates`, `Primitive.errors_state_facts_iff`: the only false statement is that of
  `Cipher.openWith` under a nonce that is too long, which the error calls too short.
-/

namespace SealedToken

/-! ## Errors -/

/-- An error of the envelope or the cipher layer. -/
inductive LayerError where
  | envelope (cause : EnvelopeError)
  | cipher (cause : CipherError)
  | nonce (cause : NonceError)

/-- The relation that `message` states between the lengths in the error holds of them. -/
def NonceError.IsTrue : NonceError → Prop
  | invalidLength requested supported => requested ≠ supported
  | entropy _ => True

/-- The relation that `message` states between the lengths in the error holds of them. -/
def EnvelopeError.IsTrue : EnvelopeError → Prop
  | lengthOutOfRange _ declared remaining => remaining < declared
  | versionTooLong length max | nonceTooLong length max => max = 255 ∧ max < length
  | missingTerminal | truncated _ | unexpectedTag _ | duplicateEntry _ | invalidVersion _ => True

/-- The relation that `message` states between the lengths in the error holds of them. -/
def CipherError.IsTrue : CipherError → Prop
  | invalidKeyLength suite expected actual => expected = suite.keyLengths ∧ actual ∉ expected
  | ciphertextTooShort nonceLength actual => actual < nonceLength
  | nonce cause => cause.IsTrue
  | tagMismatch | failure _ => True

namespace LayerError

/-- The relation that the message of the error states between its lengths holds of them. -/
def IsTrue : LayerError → Prop
  | envelope cause => cause.IsTrue
  | cipher cause => cause.IsTrue
  | nonce cause => cause.IsTrue

/-- The error carries lengths. -/
def hasNumbers : LayerError → Bool
  | envelope (.lengthOutOfRange ..) | envelope (.versionTooLong ..) => true
  | envelope (.nonceTooLong ..) => true
  | cipher (.invalidKeyLength ..) | cipher (.ciphertextTooShort ..) => true
  | cipher (.nonce (.invalidLength ..)) | nonce (.invalidLength ..) => true
  | _ => false

/-- An error that carries no lengths is true. -/
theorem isTrue_of_not_hasNumbers {error : LayerError} (h : error.hasNumbers = false) :
    error.IsTrue := by
  cases error with
  | envelope cause =>
    cases cause with
    | lengthOutOfRange | versionTooLong | nonceTooLong => cases h
    | missingTerminal | truncated | unexpectedTag | duplicateEntry | invalidVersion => trivial
  | cipher cause =>
    cases cause with
    | invalidKeyLength | ciphertextTooShort => cases h
    | nonce cause =>
      cases cause with
      | invalidLength => cases h
      | entropy => trivial
    | tagMismatch | failure => trivial
  | nonce cause =>
    cases cause with
    | invalidLength => cases h
    | entropy => trivial

end LayerError

/-! ## Operations -/

/-- An operation of the envelope or the cipher layer, with its arguments. -/
inductive Primitive where
  | writeVersion (version : KeyVersion)
  | readVersion (kind : KeyVersion.Kind) (bytes : Bytes)
  | writeEnvelope (envelope : Envelope)
  | readEnvelope (options : Dialect) (bytes : Bytes)
  | makeCipher (suite : CipherSuite) (key : Bytes)
  | sealUnder (cipher : Cipher) (nonce : Nonce) (plaintext : Bytes)
  | openUnder (cipher : Cipher) (nonce sealed : Bytes)
  | encode (cipher : Cipher) (plaintext : Bytes)
  | decode (cipher : Cipher) (ciphertext : Bytes)
  | encodeWithKey (suite : CipherSuite) (key plaintext : Bytes)
  | decodeWithKey (suite : CipherSuite) (key ciphertext : Bytes)
  | checkNonceLength (length : Nat)
  | freshNonce (length : Nat)
  | drawNonce (source : NonceSource) (size : UInt8)

/-- The error of an outcome, with `f` applied. -/
def errorOf? {ε α : Type} (f : ε → LayerError) : Except ε α → Option LayerError
  | .error e => some (f e)
  | .ok _ => none

namespace Primitive

/-- The error of the run of the operation from `before`, if it fails. -/
def error? (before : Ambient) : Primitive → Option LayerError
  | writeVersion version => errorOf? .envelope version.toBytes
  | readVersion kind bytes => errorOf? .envelope (KeyVersion.ofBytes kind bytes)
  | writeEnvelope envelope => errorOf? .envelope envelope.encode
  | readEnvelope options bytes => errorOf? .envelope (Envelope.decode options bytes)
  | makeCipher suite key => errorOf? .cipher (Cipher.ofKey suite key)
  | sealUnder cipher nonce plaintext => errorOf? .cipher (cipher.sealWith nonce plaintext)
  | openUnder cipher nonce sealed => errorOf? .cipher (cipher.openWith nonce sealed)
  | encode cipher plaintext => errorOf? .cipher ((cipher.encode plaintext).run before).1
  | decode cipher ciphertext => errorOf? .cipher (cipher.decode ciphertext)
  | encodeWithKey suite key plaintext =>
    errorOf? .cipher ((suite.encode key plaintext).run before).1
  | decodeWithKey suite key ciphertext => errorOf? .cipher (suite.decode key ciphertext)
  | checkNonceLength length => errorOf? .nonce (SealedToken.checkNonceLength length)
  | freshNonce length => errorOf? .nonce ((SealedToken.freshNonce length).run before).1
  | drawNonce source size => errorOf? .nonce ((source.draw size).run before).1

/-- `Fails operation error`: the operation fails with that error. The lengths in it are those of the
arguments. -/
inductive Fails : Primitive → LayerError → Prop where
  | withoutNumbers (operation : Primitive) {error : LayerError} (h : error.hasNumbers = false) :
    Fails operation error
  /-- a label has more bytes than fit behind a length byte -/
  | longLabel {text : String} (hlong : 255 < (utf8 text).length) :
    Fails (writeVersion (.label text)) (.envelope (.versionTooLong (utf8 text).length 255))
  | longVersion {text : String} (nonce : Option Bytes) (payload : Bytes)
    (hlong : 255 < (utf8 text).length) :
    Fails (writeEnvelope ⟨some (.label text), nonce, payload⟩)
      (.envelope (.versionTooLong (utf8 text).length 255))
  | longNonce (version : Option KeyVersion) {nonce : Bytes} (payload : Bytes)
    (hlong : 255 < nonce.length) :
    Fails (writeEnvelope ⟨version, some nonce, payload⟩)
      (.envelope (.nonceTooLong nonce.length 255))
  /-- the second length is that of what follows the length byte -/
  | lengthOutOfRange (options : Dialect) (front : Bytes)
    (tag : EntryTag) {length : UInt8} {tail : Bytes}
    (hshort : tail.length < length.toNat) :
    Fails (readEnvelope options (front ++ tag.code :: length :: tail))
      (.envelope (.lengthOutOfRange tag length.toNat tail.length))
  | keyOfCipher {suite : CipherSuite} {key : Bytes} (hkey : key.length ∉ suite.keyLengths) :
    Fails (makeCipher suite key) (.cipher (.invalidKeyLength suite suite.keyLengths key.length))
  | keyToEncode {suite : CipherSuite} {key : Bytes} (plaintext : Bytes)
    (hkey : key.length ∉ suite.keyLengths) :
    Fails (encodeWithKey suite key plaintext)
      (.cipher (.invalidKeyLength suite suite.keyLengths key.length))
  | keyToDecode {suite : CipherSuite} {key : Bytes} (ciphertext : Bytes)
    (hkey : key.length ∉ suite.keyLengths) :
    Fails (decodeWithKey suite key ciphertext)
      (.cipher (.invalidKeyLength suite suite.keyLengths key.length))
  | decode (cipher : Cipher) {ciphertext : Bytes} (hshort : ciphertext.length < 12) :
    Fails (decode cipher ciphertext) (.cipher (.ciphertextTooShort 12 ciphertext.length))
  | decodeWithKey (suite : CipherSuite) (key : Bytes) {ciphertext : Bytes}
    (hshort : ciphertext.length < 12) :
    Fails (decodeWithKey suite key ciphertext) (.cipher (.ciphertextTooShort 12 ciphertext.length))
  /-- a nonce of more than 12 bytes gets the same error as one of fewer -/
  | openUnder (cipher : Cipher) {nonce : Bytes} (sealed : Bytes) (hlength : nonce.length ≠ 12) :
    Fails (openUnder cipher nonce sealed) (.cipher (.ciphertextTooShort 12 nonce.length))
  | checkNonceLength {length : Nat} (hlength : length ≠ 12) :
    Fails (checkNonceLength length) (.nonce (.invalidLength length 12))
  | freshNonce {length : Nat} (hlength : length ≠ 12) :
    Fails (freshNonce length) (.nonce (.invalidLength length 12))
  /-- the error of a custom source is passed on -/
  | passedOn {fill : (length : Nat) → Except NonceError { bs : Bytes // bs.length = length }}
    {size : UInt8} {cause : NonceError} (hsize : size ≠ 0)
    (hcause : fill size.toNat = .error cause) :
    Fails (drawNonce (.custom fill) size) (.nonce cause)

variable {before : Ambient} {error : LayerError}

/-- An operation fails by the rules if every error of its outcome is one of the rules. -/
theorem fails_of_errorOf? {operation : Primitive} {ε α : Type} {f : ε → LayerError}
    {outcome : Except ε α} (hfails : ∀ e, outcome = .error e → operation.Fails (f e))
    (h : errorOf? f outcome = some error) :
    operation.Fails error := by
  cases outcome with
  | ok a => cases h
  | error e =>
    cases h
    exact hfails e rfl

/-! ## Envelopes -/

theorem fails_writeVersion {version : KeyVersion} {e : EnvelopeError}
    (h : version.toBytes = .error e) :
    (writeVersion version).Fails (.envelope e) := by
  obtain ⟨text, rfl, hlong, rfl⟩ := KeyVersion.toBytes_eq_error_iff.mp h
  exact .longLabel hlong

theorem fails_readVersion {kind : KeyVersion.Kind} {bytes : Bytes} {e : EnvelopeError}
    (h : KeyVersion.ofBytes kind bytes = .error e) :
    (readVersion kind bytes).Fails (.envelope e) := by
  obtain ⟨reason, rfl⟩ := KeyVersion.exists_reason_of_ofBytes h
  exact .withoutNumbers _ rfl

theorem fails_writeEnvelope {envelope : Envelope} {e : EnvelopeError}
    (h : envelope.encode = .error e) :
    (writeEnvelope envelope).Fails (.envelope e) := by
  obtain ⟨version, nonce, payload⟩ := envelope
  rcases Envelope.encode_eq_error_iff.mp h with ⟨text, hversion, hlong, rfl⟩
    | ⟨-, bs, hnonce, hlong, rfl⟩
  · obtain rfl : version = some (.label text) := hversion
    exact .longVersion nonce payload hlong
  · obtain rfl : nonce = some bs := hnonce
    exact .longNonce version payload hlong

/-- `Envelope.decode` fails with lengths only for an entry that is longer than what is left. -/
theorem fails_readEnvelope {options : Dialect} {bytes : Bytes} {e : EnvelopeError}
    (h : Envelope.decode options bytes = .error e) :
    (readEnvelope options bytes).Fails (.envelope e) := by
  obtain ⟨row, rest, hcut⟩ := exists_isCut options bytes
  obtain ⟨result, hending⟩ := hcut.exists_ending
  obtain rfl : result = .error e := (Envelope.decode_of_isCut hcut hending).symm.trans h
  obtain rfl := hcut.bytes_eq
  cases hending with
  | missingTerminal | unexpectedTag | truncated | duplicateEntry | invalidVersion =>
    exact .withoutNumbers _ rfl
  | @lengthOutOfRange tag length tail hplace hshort =>
    exact .lengthOutOfRange options row.bytes tag hshort

/-! ## Ciphers and nonces -/

theorem fails_makeCipher {suite : CipherSuite} {key : Bytes} {e : CipherError}
    (h : Cipher.ofKey suite key = .error e) :
    (makeCipher suite key).Fails (.cipher e) := by
  obtain ⟨hkey, rfl⟩ := Cipher.ofKey_eq_error_iff.mp h
  exact .keyOfCipher hkey

theorem fails_openUnder {cipher : Cipher} {nonce sealed : Bytes} {e : CipherError}
    (h : cipher.openWith nonce sealed = .error e) :
    (openUnder cipher nonce sealed).Fails (.cipher e) := by
  by_cases hlength : nonce.length = nonceLength
  · obtain ⟨-, rfl⟩ := (@Cipher.openWith_eq_error_iff cipher ⟨nonce, hlength⟩ sealed e).mp h
    exact .withoutNumbers _ rfl
  · rw [Cipher.openWith, dif_neg hlength] at h
    cases h
    exact .openUnder cipher sealed hlength

theorem fails_decode {cipher : Cipher} {ciphertext : Bytes} {e : CipherError}
    (h : cipher.decode ciphertext = .error e) :
    (Primitive.decode cipher ciphertext).Fails (.cipher e) := by
  rcases Cipher.decode_eq_error_iff.mp h with ⟨hshort, rfl⟩ | ⟨_, _, -, -, rfl⟩
  · exact .decode cipher hshort
  · exact .withoutNumbers _ rfl

theorem fails_decodeWithKey {suite : CipherSuite} {key ciphertext : Bytes} {e : CipherError}
    (h : suite.decode key ciphertext = .error e) :
    (decodeWithKey suite key ciphertext).Fails (.cipher e) := by
  rcases CipherSuite.decode_eq_error_iff.mp h with ⟨hkey, rfl⟩ | ⟨-, hshort, rfl⟩
    | ⟨_, _, _, -, -, -, rfl⟩
  · exact .keyToDecode ciphertext hkey
  · exact .decodeWithKey suite key hshort
  · exact .withoutNumbers _ rfl

/-- `freshNonce` fails for a length other than 12, or for want of random bytes. -/
theorem freshNonce_error {length : Nat} {e : NonceError}
    (h : ((SealedToken.freshNonce length).run before).1 = .error e) :
    (length ≠ nonceLength ∧ e = .invalidLength length nonceLength) ∨
      e = .entropy "entropy exhausted" := by
  by_cases hlength : length = nonceLength
  · subst hlength
    by_cases hfew : before.entropy.length < nonceLength
    · rw [run_freshNonce_of_lt hfew] at h
      cases h
      exact .inr rfl
    · let nonce : Nonce :=
        ⟨before.entropy.take nonceLength, List.length_take_of_le (Nat.le_of_not_lt hfew)⟩
      have hrun : (SealedToken.freshNonce nonceLength).run before =
          (.ok nonce, before.drawn nonceLength) :=
        run_freshNonce_eq_ok_iff.mpr ⟨rfl, rfl⟩
      rw [hrun] at h
      cases h
  · have hcheck : SealedToken.checkNonceLength length =
        .error (.invalidLength length nonceLength) := if_neg hlength
    rw [SealedToken.freshNonce, Action.run_ofExcept_bind_of_error hcheck] at h
    cases h
    exact .inl ⟨hlength, rfl⟩

theorem not_hasNumbers_of_sealWith {cipher : Cipher} {nonce : Nonce} {plaintext : Bytes}
    {e : CipherError} (h : cipher.sealWith nonce plaintext = .error e) :
    (LayerError.cipher e).hasNumbers = false := by
  rw [Cipher.sealWith] at h
  split at h
  · cases h
  · cases h
    rfl

/-- `Cipher.encode` asks for nonces of 12 bytes, so its errors carry no lengths. -/
theorem not_hasNumbers_of_encode {cipher : Cipher} {plaintext : Bytes} {e : CipherError}
    (h : ((cipher.encode plaintext).run before).1 = .error e) :
    (LayerError.cipher e).hasNumbers = false := by
  rw [Cipher.encode, Action.outcome_bind, bind_eq_error_iff] at h
  rcases h with h | ⟨nonce, -, h⟩
  · rw [Action.run_mapError, mapError_eq_error_iff] at h
    obtain ⟨cause, hcause, rfl⟩ := h
    rcases freshNonce_error hcause with ⟨hlength, -⟩ | rfl
    · exact absurd rfl hlength
    · rfl
  · rw [Action.outcome_bind, bind_eq_error_iff, Action.run_ofExcept] at h
    rcases h with h | ⟨sealed, -, h⟩
    · exact not_hasNumbers_of_sealWith h
    · cases h

theorem fails_encodeWithKey {suite : CipherSuite} {key plaintext : Bytes} {e : CipherError}
    (h : ((suite.encode key plaintext).run before).1 = .error e) :
    (encodeWithKey suite key plaintext).Fails (.cipher e) := by
  rw [CipherSuite.encode, Action.outcome_bind, bind_eq_error_iff, Action.run_ofExcept] at h
  rcases h with h | ⟨cipher, -, h⟩
  · obtain ⟨hkey, rfl⟩ := Cipher.ofKey_eq_error_iff.mp h
    exact .keyToEncode plaintext hkey
  · exact .withoutNumbers _ (not_hasNumbers_of_encode h)

theorem fails_checkNonceLength {length : Nat} {e : NonceError}
    (h : SealedToken.checkNonceLength length = .error e) :
    (Primitive.checkNonceLength length).Fails (.nonce e) := by
  rw [SealedToken.checkNonceLength] at h
  split at h
  · cases h
  · next hlength =>
    cases h
    exact .checkNonceLength hlength

theorem fails_freshNonce {length : Nat} {e : NonceError}
    (h : ((SealedToken.freshNonce length).run before).1 = .error e) :
    (Primitive.freshNonce length).Fails (.nonce e) := by
  rcases freshNonce_error h with ⟨hlength, rfl⟩ | rfl
  · exact .freshNonce hlength
  · exact .withoutNumbers _ rfl

theorem fails_drawNonce {source : NonceSource} {size : UInt8} {e : NonceError}
    (h : ((source.draw size).run before).1 = .error e) :
    (drawNonce source size).Fails (.nonce e) := by
  obtain ⟨answer, after, hgives⟩ := source.exists_gives size before
  rw [NonceSource.run_draw_iff.mpr hgives] at h
  cases hgives with
  | empty | system => cases h
  | exhausted =>
    cases h
    exact .withoutNumbers _ rfl
  | custom hsize => exact .passedOn hsize (map_eq_error_iff.mp h)

/-- Every error of an operation is one of the rules of `Fails`. -/
theorem fails_of_error? {operation : Primitive} (h : operation.error? before = some error) :
    operation.Fails error := by
  cases operation with
  | writeVersion => exact fails_of_errorOf? (fun _ => fails_writeVersion) h
  | readVersion => exact fails_of_errorOf? (fun _ => fails_readVersion) h
  | writeEnvelope => exact fails_of_errorOf? (fun _ => fails_writeEnvelope) h
  | readEnvelope => exact fails_of_errorOf? (fun _ => fails_readEnvelope) h
  | makeCipher => exact fails_of_errorOf? (fun _ => fails_makeCipher) h
  | sealUnder =>
    exact fails_of_errorOf? (fun _ he => .withoutNumbers _ (not_hasNumbers_of_sealWith he)) h
  | openUnder => exact fails_of_errorOf? (fun _ => fails_openUnder) h
  | encode =>
    exact fails_of_errorOf? (fun _ he => .withoutNumbers _ (not_hasNumbers_of_encode he)) h
  | decode => exact fails_of_errorOf? (fun _ => fails_decode) h
  | encodeWithKey => exact fails_of_errorOf? (fun _ => fails_encodeWithKey) h
  | decodeWithKey => exact fails_of_errorOf? (fun _ => fails_decodeWithKey) h
  | checkNonceLength => exact fails_of_errorOf? (fun _ => fails_checkNonceLength) h
  | freshNonce => exact fails_of_errorOf? (fun _ => fails_freshNonce) h
  | drawNonce => exact fails_of_errorOf? (fun _ => fails_drawNonce) h

/-! ## Misstatements -/

/-- The operations that fail with an error whose lengths are not as its message says. -/
inductive Misstates : Primitive → Prop where
  /-- the message says that the nonce is shorter than 12 bytes -/
  | longNonce (cipher : Cipher) {nonce : Bytes} (sealed : Bytes) (hlong : 12 < nonce.length) :
    Misstates (openUnder cipher nonce sealed)
  /-- a custom source fails with an error that is not true -/
  | passedOn {fill : (length : Nat) → Except NonceError { bs : Bytes // bs.length = length }}
    {size : UInt8} {cause : NonceError} (hsize : size ≠ 0)
    (hcause : fill size.toNat = .error cause) (huntrue : ¬ cause.IsTrue) :
    Misstates (drawNonce (.custom fill) size)

variable {operation : Primitive}

/-- The errors of the rules are true for every operation that is not among `Misstates`. -/
theorem Fails.isTrue (h : operation.Fails error) (hstates : ¬ operation.Misstates) :
    error.IsTrue := by
  cases h with
  | withoutNumbers _ hplain => exact LayerError.isTrue_of_not_hasNumbers hplain
  | longLabel hlong | longVersion _ _ hlong | longNonce _ _ hlong => exact ⟨rfl, hlong⟩
  | lengthOutOfRange _ _ _ hshort => exact hshort
  | keyOfCipher hkey | keyToEncode _ hkey | keyToDecode _ hkey => exact ⟨rfl, hkey⟩
  | decode _ hshort | decodeWithKey _ _ hshort => exact hshort
  | openUnder cipher sealed hlength =>
    have hle := Nat.le_of_not_lt fun hlong => hstates (.longNonce cipher sealed hlong)
    exact Nat.lt_of_le_of_ne hle hlength
  | checkNonceLength hlength | freshNonce hlength => exact hlength
  | passedOn hsize hcause =>
    exact Classical.not_not.mp fun huntrue => hstates (.passedOn hsize hcause huntrue)

theorem Misstates.exists_untrue (h : operation.Misstates) (before : Ambient) :
    ∃ error, operation.error? before = some error ∧ ¬ error.IsTrue := by
  cases h with
  | @longNonce cipher nonce sealed hlong =>
    have hlength : nonce.length ≠ nonceLength := Nat.ne_of_gt hlong
    refine ⟨.cipher (.ciphertextTooShort 12 nonce.length), ?_, Nat.not_lt_of_lt hlong⟩
    rw [error?, Cipher.openWith, dif_neg hlength]
    rfl
  | @passedOn fill size cause hsize hcause huntrue =>
    have hrun := NonceSource.run_draw_iff.mpr (@NonceSource.Gives.custom size before fill hsize)
    refine ⟨.nonce cause, ?_, huntrue⟩
    rw [error?, hrun, hcause]
    rfl

/-- Every error of an operation is one of `Fails`, so the lengths in it are those of the arguments.
All errors of an operation are true unless it opens under a nonce of more than 12 bytes, which
`message` calls fewer, or draws from a custom source that fails with an error that is not true. -/
theorem errors_state_facts_iff (operation : Primitive) (before : Ambient) :
    (∀ error, operation.error? before = some error → operation.Fails error) ∧
    ((∀ error, operation.error? before = some error → error.IsTrue) ↔ ¬ operation.Misstates) := by
  refine ⟨fun error => fails_of_error?, ?_, ?_⟩
  · intro htrue hmisstates
    obtain ⟨error, herror, huntrue⟩ := hmisstates.exists_untrue before
    exact huntrue (htrue error herror)
  · intro hstates error herror
    exact (fails_of_error? herror).isTrue hstates

/-- ChaCha20-Poly1305 under a key of zero bytes. -/
def zeroCipher : Cipher := .chaCha20Poly1305 ⟨List.replicate 32 0, by decide⟩

/-- Opening under a nonce of 13 bytes fails with a message that says that 13 is less than 12. -/
theorem not_all_errors_state_facts :
    ¬ ∀ (operation : Primitive) (before : Ambient) (error : LayerError),
      operation.error? before = some error → error.IsTrue := by
  intro h
  have herror : (openUnder zeroCipher (List.replicate 13 0) []).error? ⟨[], [], []⟩ =
      some (.cipher (.ciphertextTooShort 12 13)) := rfl
  have hless : 13 < 12 := h _ _ _ herror
  exact absurd hless (by decide)

end Primitive

end SealedToken
