import SealedToken.Envelope.Tag

/-!
# Envelope errors

* `EnvelopeError`: why a version or an envelope could not be written or read, with its `message`.
* `EnvelopeError.isWriterFault`: the error is about what was to be written.
-/

namespace SealedToken

/-- Why a version or an envelope could not be written or read. -/
inductive EnvelopeError where
  /-- the bytes end before a terminal entry -/
  | missingTerminal
  /-- the bytes end where a length is due -/
  | truncated (tag : EntryTag)
  /-- an entry is said to be longer than what is left -/
  | lengthOutOfRange (tag : EntryTag) (declared remaining : Nat)
  /-- a tag that is unknown or has no place here -/
  | unexpectedTag (byte : UInt8)
  /-- a second entry of one kind -/
  | duplicateEntry (tag : EntryTag)
  /-- a version entry that cannot be read -/
  | invalidVersion (reason : String)
  /-- a label that does not fit behind a one-byte length -/
  | versionTooLong (length max : Nat)
  /-- a nonce that does not fit behind a one-byte length -/
  | nonceTooLong (length max : Nat)
deriving DecidableEq, Repr

namespace EnvelopeError

/-- The text of an error. -/
def message : EnvelopeError → String
  | missingTerminal => "envelope ends before terminal entry"
  | truncated tag => s!"envelope truncated inside {tag.title} entry"
  | lengthOutOfRange tag declared remaining =>
    s!"{tag.title} entry declares {declared} bytes but only {remaining} remain"
  | unexpectedTag byte => s!"unexpected tag: {tagName byte}"
  | duplicateEntry tag => s!"duplicate {tag.title} entry"
  | invalidVersion reason => s!"invalid version entry: {reason}"
  | versionTooLong length max => s!"version label too long: {length} > {max}"
  | nonceTooLong length max => s!"nonce too long: {length} > {max}"

/-- The error is about what was to be written, and not about bytes that were read. -/
def isWriterFault : EnvelopeError → Bool
  | versionTooLong .. | nonceTooLong .. => true
  | _ => false

end EnvelopeError

end SealedToken
