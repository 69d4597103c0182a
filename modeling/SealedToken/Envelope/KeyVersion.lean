import SealedToken.Bytes
import SealedToken.Envelope.Error

/-!
# Key versions

* `KeyVersion`: what an envelope says about the key that it was made with, a label or a number.
* `KeyVersion.Kind`: which of the two a key source uses.
* `KeyVersion.toBytes`, `KeyVersion.ofBytes`: the bytes of a version entry. A label is its UTF-8
  form, a number has eight bytes, the lowest first.
-/

namespace SealedToken

/-- How a key source names its versions. -/
inductive KeyVersion.Kind where
  | label
  | number
deriving DecidableEq, Repr

instance : Inhabited KeyVersion.Kind := ⟨.label⟩

/-- The name that messages show. -/
def KeyVersion.Kind.title : KeyVersion.Kind → String
  | .label => "Label"
  | .number => "Number"

/-- The version of a key. -/
inductive KeyVersion where
  | label (text : String)
  | number (value : UInt64)
deriving DecidableEq, Repr

/-- The length of a number on the wire, in bytes. -/
def numberVersionLength : Nat := 8

/-- The length of the longest label on the wire, in bytes: that of its entry must fit
into one byte. -/
def maxLabelLength : Nat := 255

namespace KeyVersion

/-- Whether the version is a label or a number. -/
def kind : KeyVersion → KeyVersion.Kind
  | label _ => .label
  | number _ => .number

/-- The version as messages show it. -/
def text : KeyVersion → String
  | label text => text
  | number value => toString value.toNat

/-- The bytes of the version's entry. -/
def toBytes : KeyVersion → Except EnvelopeError Bytes
  | label text =>
    let bs := utf8 text
    if maxLabelLength < bs.length then .error (.versionTooLong bs.length maxLabelLength) else .ok bs
  | number value => .ok (littleEndian numberVersionLength value.toNat)

/-- The version of the given kind that an entry's bytes stand for. -/
def ofBytes (kind : KeyVersion.Kind) (bs : Bytes) : Except EnvelopeError KeyVersion :=
  match kind with
  | .label =>
    match ofUtf8? bs with
    | some text => .ok (label text)
    | none => .error (.invalidVersion "label is not UTF-8")
  | .number =>
    if bs.length = numberVersionLength then .ok (number (UInt64.ofNat (ofLittleEndian bs)))
    else .error
      (.invalidVersion s!"number version must be {numberVersionLength} bytes, got {bs.length}")

end KeyVersion

end SealedToken
