import SealedToken.Key.Source

/-!
# Key rings

* `KeyRing`: keys in the order in which they were added, one of them current.
* `KeyRing.rotate`, `KeyRing.revoke`: adding a key, which becomes current, and dropping a version.
-/

namespace SealedToken

/-- Keys, one of them current. Nothing says that their versions are of the kind the
ring declares. -/
structure KeyRing where
  kind : KeyVersion.Kind
  entries : List VersionedKey
  /-- the position of the current key -/
  current : Nat
deriving DecidableEq, Repr

namespace KeyRing

/-- A ring whose last key is current. -/
def ofList (kind : KeyVersion.Kind) (entries : List VersionedKey) : KeyRing :=
  ⟨kind, entries, entries.length - 1⟩

/-- The entry that is asked for: the current one, or the first of a version. -/
def entry? (ring : KeyRing) : Option KeyVersion → Option VersionedKey
  | none => ring.entries[ring.current]?
  | some version => ring.entries.find? fun entry => entry.version = some version

instance : KeySource KeyRing where
  kind := kind
  lookup ring version :=
    { answer := match ring.entry? version with
        | some entry => .ok entry
        | none => .error (.plain "no such key version") }

/-- The ring with one more key, which is current. -/
def rotate (ring : KeyRing) (entry : VersionedKey) : KeyRing :=
  { ring with entries := ring.entries ++ [entry], current := ring.entries.length }

/-- The ring without the keys of a version, or without those that have none. Of the keys that are
left, the first with the version of the current key becomes current, or else the first. -/
def revoke (ring : KeyRing) (version : Option KeyVersion) : KeyRing :=
  let entries := ring.entries.filter fun entry => entry.version ≠ version
  let current := ring.entries[ring.current]?.bind fun old =>
    entries.findIdx? fun entry => entry.version = old.version
  { ring with entries, current := current.getD 0 }

end KeyRing

end SealedToken
