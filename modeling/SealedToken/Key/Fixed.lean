import SealedToken.Key.Source

/-!
# A key that never changes

* `FixedKey`: one key with at most one version.
* `BrokenSource`: a source that has no key at all.
-/

namespace SealedToken

/-- One key. Every envelope made with it carries its version, if it has one. -/
structure FixedKey where
  key : Bytes
  version : Option KeyVersion
deriving DecidableEq, Repr

namespace FixedKey

/-- The key, unless a version is asked for that is not its own. -/
def answer (fixed : FixedKey) (version : Option KeyVersion) : Except KeyError VersionedKey :=
  match version with
  | none => .ok ⟨fixed.key, fixed.version⟩
  | some asked =>
    if fixed.version = some asked then .ok ⟨fixed.key, fixed.version⟩
    else .error (.plain s!"unknown key version {asked.text}")

/-- Versions are of the kind of the key's own; a key without one counts as labelled. -/
instance : KeySource FixedKey where
  kind fixed := (fixed.version.map KeyVersion.kind).getD .label
  lookup fixed version := { answer := fixed.answer version }

end FixedKey

/-- A source that fails with one reason whatever it is asked for. -/
structure BrokenSource where
  reason : String
deriving DecidableEq, Repr

instance : KeySource BrokenSource where
  kind _ := .label
  lookup source _ := { answer := .error (.plain source.reason) }

end SealedToken
