import SealedToken.Envelope.KeyVersion

/-!
# Envelopes

An envelope frames a payload. Its wire form is

* for a version, the tag 1, a length byte, and the version;
* for a nonce, the tag 2, a length byte, and the nonce;
* the tag 0, and the payload up to the end.

`Envelope.encode` writes this form. An empty nonce is written as none.
-/

namespace SealedToken

/-- A payload, the version of its key, and the nonce of a signature. -/
structure Envelope where
  version : Option KeyVersion
  nonce : Option Bytes
  payload : Bytes
deriving DecidableEq, Repr

/-- The length of the longest nonce on the wire, in bytes. -/
def maxNonceLength : Nat := 255

namespace Envelope

/-- An entry with a length byte, or nothing. -/
def entry (tag : EntryTag) : Option Bytes → Bytes
  | some value => tag.code :: UInt8.ofNat value.length :: value
  | none => []

/-- The bytes of an optional version. -/
def versionBytes : Option KeyVersion → Except EnvelopeError (Option Bytes)
  | some version => version.toBytes.map some
  | none => .ok none

/-- The nonce that is written: one that is not empty. -/
def writtenNonce (nonce : Option Bytes) : Option Bytes := nonce.filter (· ≠ [])

/-- The wire form of an envelope. -/
def encode (envelope : Envelope) : Except EnvelopeError Bytes := do
  let version ← versionBytes envelope.version
  let nonce := writtenNonce envelope.nonce
  let length := (nonce.getD []).length
  if maxNonceLength < length then throw (.nonceTooLong length maxNonceLength)
  return entry .version version ++ entry .nonce nonce ++ EntryTag.terminal.code :: envelope.payload

end Envelope

end SealedToken
