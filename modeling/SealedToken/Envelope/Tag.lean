/-!
# Entry tags

An envelope is a row of entries, each behind a tag byte.

* `EntryTag`: the three kinds of entries, with `code`, `ofCode?` and `title`.
* `tagName`: how messages name a tag byte, known or not.
-/

namespace SealedToken

/-- The kind of an entry. -/
inductive EntryTag where
  /-- the payload, always last -/
  | terminal
  /-- the version of the key -/
  | version
  /-- the nonce of a signature -/
  | nonce
deriving DecidableEq, Repr

namespace EntryTag

/-- The tag byte. -/
def code : EntryTag → UInt8
  | terminal => 0
  | version => 1
  | nonce => 2

/-- The kind of entry behind a tag byte. -/
def ofCode? (code : UInt8) : Option EntryTag :=
  if code = 0 then some terminal
  else if code = 1 then some version
  else if code = 2 then some nonce
  else none

/-- The name that messages show. -/
def title : EntryTag → String
  | terminal => "Terminal"
  | version => "Version"
  | nonce => "Nonce"

theorem ofCode?_eq_some_iff {byte : UInt8} {tag : EntryTag} :
    ofCode? byte = some tag ↔ byte = tag.code := by
  constructor
  · intro h
    unfold ofCode? at h
    split at h
    · next hb => cases h; exact hb
    · split at h
      · next hb => cases h; exact hb
      · split at h
        · next hb => cases h; exact hb
        · cases h
  · rintro rfl
    cases tag <;> rfl

end EntryTag

/-- How messages name a tag byte: by its title, or in hexadecimal. -/
def tagName (byte : UInt8) : String :=
  match EntryTag.ofCode? byte with
  | some tag => tag.title
  | none => "0x" ++ String.ofList (Nat.toDigits 16 byte.toNat)

end SealedToken
