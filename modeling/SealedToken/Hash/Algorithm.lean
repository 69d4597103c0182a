import SealedToken.Choice
import SealedToken.Hash.Sha1
import SealedToken.Hash.Sha2

/-!
# Hash algorithms and message authentication

* `HashAlgorithm`: the seven hashes, with `digest`, `blockSize` and `outputLength`.
* `HashAlgorithm.hmac`: the keyed hash of a message.
* `HashAlgorithm.mac`, `HashAlgorithm.checkMac`: the authentication code of a payload and a nonce,
  and its check. The code is over the payload followed by the nonce, with nothing between them.
* `HashAlgorithm.length_hmac`: a code is as long as the algorithm says.
-/

namespace SealedToken

/-- A hash for message authentication. -/
inductive HashAlgorithm where
  | sha1
  | sha224
  | sha256
  | sha384
  | sha512
  | sha512_224
  | sha512_256
deriving DecidableEq, Repr

namespace HashAlgorithm

instance : Choice HashAlgorithm where
  choices := [sha1, sha224, sha256, sha384, sha512, sha512_224, sha512_256]
  name
    | sha1 => "sha1"
    | sha224 => "sha224"
    | sha256 => "sha256"
    | sha384 => "sha384"
    | sha512 => "sha512"
    | sha512_224 => "sha512_224"
    | sha512_256 => "sha512_256"
  title
    | sha1 => "Sha1"
    | sha224 => "Sha224"
    | sha256 => "Sha256"
    | sha384 => "Sha384"
    | sha512 => "Sha512"
    | sha512_224 => "Sha512_224"
    | sha512_256 => "Sha512_256"

instance : Inhabited HashAlgorithm := ⟨sha256⟩

/-- The length of a digest in bytes. -/
def outputLength : HashAlgorithm → Nat
  | sha1 => 20
  | sha224 | sha512_224 => 28
  | sha256 | sha512_256 => 32
  | sha384 => 48
  | sha512 => 64

/-- The length of a block in bytes. -/
def blockSize : HashAlgorithm → Nat
  | sha1 | sha224 | sha256 => 64
  | sha384 | sha512 | sha512_224 | sha512_256 => 128

/-- The digest of a message. -/
def digest : HashAlgorithm → Bytes → Bytes
  | sha1 => Sha1.digest
  | sha224 => Sha2.sha224
  | sha256 => Sha2.sha256
  | sha384 => Sha2.sha384
  | sha512 => Sha2.sha512
  | sha512_224 => Sha2.sha512_224
  | sha512_256 => Sha2.sha512_256

@[simp] theorem length_digest (hash : HashAlgorithm) (message : Bytes) :
    (hash.digest message).length = hash.outputLength := by
  cases hash
  case sha1 => exact Sha1.length_digest message
  all_goals exact Sha2.length_digest _ _ _ message

/-! ## Authentication codes -/

/-- The key as one block: hashed if it is longer than that, and filled with zero bytes. -/
def keyBlock (hash : HashAlgorithm) (key : Bytes) : Bytes :=
  let short := if hash.blockSize < key.length then hash.digest key else key
  short ++ zeroBytes (hash.blockSize - short.length)

/-- The keyed hash of a message: the digest of the key block under the outer mask and of the inner
digest, which takes the key block under the inner mask and the message. -/
def hmac (hash : HashAlgorithm) (key message : Bytes) : Bytes :=
  let block := hash.keyBlock key
  hash.digest (block.map (· ^^^ 0x5c) ++ hash.digest (block.map (· ^^^ 0x36) ++ message))

@[simp] theorem length_hmac (hash : HashAlgorithm) (key message : Bytes) :
    (hash.hmac key message).length = hash.outputLength :=
  hash.length_digest _

-- Two of the codes published for other implementations to agree on.
example : sha256.hmac (utf8 "onvIzKsW6Ec2Q5VqS49zrNlmvrvibh8e") (utf8 "hello, world!") =
    [0xf5, 0x01, 0xaa, 0x64, 0x71, 0x38, 0x39, 0xfc, 0x02, 0x80, 0x07, 0x84, 0xb9, 0x7b, 0x94, 0xa9,
      0xda, 0x8d, 0x99, 0x6d, 0xae, 0x77, 0x6b, 0x98, 0x5f, 0xf9, 0xbb, 0xa6, 0x1e, 0x32, 0x58,
      0x9c] := by
  decide +kernel

example : sha1.hmac (utf8 "onvIzKsW6Ec2Q5VqS49zrNlmvrvibh8e") (utf8 "hello, world!") =
    [0xc3, 0x00, 0x9b, 0x74, 0xc1, 0x36, 0xd5, 0x86, 0xe9, 0x89, 0x5b, 0x7e, 0x26, 0x24, 0xca, 0xef,
      0x2f, 0xfd, 0x6c, 0xa7] := by
  decide +kernel

/-- The authentication code of a payload and a nonce. -/
def mac (hash : HashAlgorithm) (key payload nonce : Bytes) : Bytes :=
  hash.hmac key (payload ++ nonce)

/-- `code` is the authentication code of the payload and the nonce. -/
def checkMac (hash : HashAlgorithm) (key payload nonce code : Bytes) : Bool :=
  hash.mac key payload nonce == code

end HashAlgorithm

end SealedToken
