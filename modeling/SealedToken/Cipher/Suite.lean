import SealedToken.Choice
import SealedToken.Cipher.Aes
import SealedToken.Cipher.ChaCha20
import SealedToken.Cipher.Gcm
import SealedToken.Cipher.Poly1305
import SealedToken.Cipher.Scheme

/-!
# Cipher suites

* `CipherSuite`: AES-GCM or ChaCha20-Poly1305, with `keyLengths`.
* `Cipher`: AES-GCM with a key of one of three lengths, or ChaCha20-Poly1305, and its key.
  `Cipher.ofKey` chooses the cipher by the suite and the length of the key.
* `Cipher.sealWith`, `Cipher.openWith`: sealing under a given nonce. Nothing but the plaintext is
  sealed.
* `Cipher.decode`, `CipherSuite.decode`: opening what carries its nonce in front.
* `CipherError`: why one of these failed, with its `message`.
-/

namespace SealedToken

/-- An authenticated cipher. -/
inductive CipherSuite where
  /-- the key's length chooses between AES-128, AES-192 and AES-256 -/
  | aesGcm
  | chaCha20Poly1305
deriving DecidableEq, Repr

namespace CipherSuite

instance : Choice CipherSuite where
  choices := [aesGcm, chaCha20Poly1305]
  name
    | aesGcm => "aes_gcm"
    | chaCha20Poly1305 => "chacha20_poly1305"
  title
    | aesGcm => "AesGcm"
    | chaCha20Poly1305 => "ChaCha20Poly1305"

instance : Inhabited CipherSuite := ⟨chaCha20Poly1305⟩

/-- The lengths of the keys that the suite takes, in bytes. -/
def keyLengths : CipherSuite → List Nat
  | aesGcm => [16, 24, 32]
  | chaCha20Poly1305 => [32]

/-- The length of the nonces that the suite takes, in bytes. -/
def nonceLength (_ : CipherSuite) : Nat := SealedToken.nonceLength

end CipherSuite

/-! ## Errors -/

/-- Why a cipher operation failed. -/
inductive CipherError where
  | invalidKeyLength (suite : CipherSuite) (expected : List Nat) (actual : Nat)
  /-- there is not even room for a nonce -/
  | ciphertextTooShort (nonceLength actual : Nat)
  /-- the key or the sealed bytes are wrong -/
  | tagMismatch
  | nonce (cause : NonceError)
  /-- sealing failed for another reason -/
  | failure (reason : String)
deriving DecidableEq, Repr

/-- The text of an error. -/
def CipherError.message : CipherError → String
  | .invalidKeyLength suite expected actual =>
    let lengths := ", ".intercalate (expected.map toString)
    s!"invalid key length for {Choice.title suite}: expected one of [" ++
      lengths ++ s!"], actual={actual}"
  | .ciphertextTooShort nonceLength actual =>
    s!"ciphertext too short: {actual} < nonce length {nonceLength}"
  | .tagMismatch => "AEAD tag mismatch"
  | .nonce cause => cause.message
  | .failure reason => s!"crypto failure: {reason}"

/-! ## The two schemes -/

/-- AES in Galois/Counter Mode. The counter allows 2^32 blocks. -/
def aesGcmScheme (key : Bytes) : SealingScheme :=
  let keys := Aes.roundKeys key
  { keystream := fun nonce => Gcm.keystream (Aes.encrypt keys) nonce.bytes
    tag := fun nonce => Gcm.tag (Aes.encrypt keys) nonce.bytes
    limit := 16 * 4294967296
    length_keystream := fun nonce => Gcm.length_keystream (Aes.length_encrypt keys) nonce.bytes
    length_tag := fun nonce => Gcm.length_tag (Aes.length_encrypt keys) nonce.bytes }

/-- The input of the tag of ChaCha20-Poly1305: the ciphertext filled up to whole blocks, and the
lengths of the associated data and of the ciphertext in bytes. -/
def chaChaAuthenticated (ciphertext : Bytes) : Bytes :=
  ciphertext ++ zeroFill 16 ciphertext.length ++ littleEndian 8 0 ++
    littleEndian 8 ciphertext.length

/-- ChaCha20 with Poly1305. The first block of the keystream gives the one-time key of the tag; the
counter allows fewer than 2^32 - 1 whole blocks after it. -/
def chaCha20Poly1305Scheme (key : Bytes) : SealingScheme where
  keystream nonce length := ChaCha20.keystream key nonce.bytes 1 length
  tag nonce ciphertext :=
    Poly1305.tag (ChaCha20.keystream key nonce.bytes 0 32) (chaChaAuthenticated ciphertext)
  limit := 64 * 4294967295 - 1
  length_keystream nonce length := ChaCha20.length_keystream key nonce.bytes 1 length
  length_tag _ _ := Poly1305.length_tag _ _

/-! ## Ciphers -/

/-- A key of `length` bytes. -/
structure CipherKey (length : Nat) where
  bytes : Bytes
  length_bytes : bytes.length = length
deriving DecidableEq

/-- The key of the bytes, if there are `length` of them. -/
def CipherKey.ofBytes? (length : Nat) (bs : Bytes) : Option (CipherKey length) :=
  if h : bs.length = length then some ⟨bs, h⟩ else none

/-- A cipher with its key bound. -/
inductive Cipher where
  | aes128Gcm (key : CipherKey 16)
  | aes192Gcm (key : CipherKey 24)
  | aes256Gcm (key : CipherKey 32)
  | chaCha20Poly1305 (key : CipherKey 32)
deriving DecidableEq

namespace Cipher

/-- The suite that the cipher belongs to. -/
def suite : Cipher → CipherSuite
  | chaCha20Poly1305 _ => .chaCha20Poly1305
  | _ => .aesGcm

/-- The bytes of the cipher's key. -/
def key : Cipher → Bytes
  | aes128Gcm key => key.bytes
  | aes192Gcm key => key.bytes
  | aes256Gcm key => key.bytes
  | chaCha20Poly1305 key => key.bytes

/-- The cipher of the suite for the key, whose length chooses among those of AES. -/
def ofKey? (suite : CipherSuite) (key : Bytes) : Option Cipher :=
  match suite, key.length with
  | .aesGcm, 16 => (CipherKey.ofBytes? 16 key).map aes128Gcm
  | .aesGcm, 24 => (CipherKey.ofBytes? 24 key).map aes192Gcm
  | .aesGcm, 32 => (CipherKey.ofBytes? 32 key).map aes256Gcm
  | .chaCha20Poly1305, 32 => (CipherKey.ofBytes? 32 key).map chaCha20Poly1305
  | _, _ => none

/-- The cipher of the suite for the key, or the lengths that a key of the suite can have. -/
def ofKey (suite : CipherSuite) (key : Bytes) : Except CipherError Cipher :=
  match ofKey? suite key with
  | some cipher => .ok cipher
  | none => .error (.invalidKeyLength suite suite.keyLengths key.length)

/-- The sealing scheme of the cipher's variant under its key. -/
def scheme : Cipher → SealingScheme
  | aes128Gcm key => aesGcmScheme key.bytes
  | aes192Gcm key => aesGcmScheme key.bytes
  | aes256Gcm key => aesGcmScheme key.bytes
  | chaCha20Poly1305 key => chaCha20Poly1305Scheme key.bytes

/-- Ciphertext and tag of a plaintext. -/
def sealWith (cipher : Cipher) (nonce : Nonce) (plaintext : Bytes) : Except CipherError Bytes :=
  match cipher.scheme.sealWith? nonce plaintext with
  | some sealed => .ok sealed
  | none => .error (.failure s!"{Choice.title cipher.suite} seal failed")

/-- The plaintext of a ciphertext and tag under a nonce of any length; only one length is ever
right. -/
def openWith (cipher : Cipher) (nonce sealed : Bytes) : Except CipherError Bytes :=
  if h : nonce.length = nonceLength then
    match cipher.scheme.openWith? ⟨nonce, h⟩ sealed with
    | some plaintext => .ok plaintext
    | none => .error .tagMismatch
  else .error (.ciphertextTooShort nonceLength nonce.length)

/-- The plaintext of a nonce, ciphertext and tag. -/
def decode (cipher : Cipher) (ciphertext : Bytes) : Except CipherError Bytes :=
  if ciphertext.length < nonceLength then
    .error (.ciphertextTooShort nonceLength ciphertext.length)
  else cipher.openWith (ciphertext.take nonceLength) (ciphertext.drop nonceLength)

end Cipher

/-- The plaintext of a nonce, ciphertext and tag under a key of the suite. -/
def CipherSuite.decode (suite : CipherSuite)
    (key ciphertext : Bytes) : Except CipherError Bytes := do
  let cipher ← Cipher.ofKey suite key
  cipher.decode ciphertext

end SealedToken
