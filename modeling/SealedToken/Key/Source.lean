import SealedToken.Action
import SealedToken.Key.SecretForm

/-!
# Key sources

A key source has a current key and remembers the keys of earlier versions, so that what was made
with them can still be read. Its contract: asked for a version, it gives the key that was current
under that version, however often the current key has changed since.

* `VersionedKey`: a key and its version.
* `KeySource`: a type whose values can be asked for the current key or for that of a version.
* `KeySource.resolve`: asking, as an action: the call and the queries it leads to are recorded.
* `KeyError`: why there was no answer, with its `message`.
-/

namespace SealedToken

/-- Why a key source gave no key. -/
inductive KeyError where
  /-- a failure of the source, in its own words -/
  | plain (reason : String)
  /-- the secret was found but is not in the form that was expected -/
  | undecodable (cause : SecretFault)
deriving DecidableEq, Repr

/-- The text of an error. -/
def KeyError.message : KeyError → String
  | plain reason => reason
  | undecodable cause => cause.message

/-- A key, and the version it has if it has one. -/
structure VersionedKey where
  key : Bytes
  version : Option KeyVersion
deriving DecidableEq, Repr

/-- The result of asking a key source: the queries it passed on to its store, and its answer. -/
structure Lookup where
  answer : Except KeyError VersionedKey
  queries : List StoreQuery := []

/-- A type of key sources. -/
class KeySource (κ : Type) where
  /-- how versions are named -/
  kind : κ → KeyVersion.Kind
  /-- asking for the current key, or for that of a version -/
  lookup : κ → Option KeyVersion → Lookup

/-- Asks for the current key, or for that of a version. -/
def KeySource.resolve {κ : Type} [KeySource κ] (keys : κ) (version : Option KeyVersion) :
    Action KeyError VersionedKey := do
  let lookup := KeySource.lookup keys version
  Action.record (.resolve version :: lookup.queries.map .fetch) (lookup.queries.map (·.event))
  Action.ofExcept lookup.answer

/-- `resolve` records the call, the queries and their events, and ends in the answer of `lookup`. -/
@[simp] theorem KeySource.run_resolve {κ : Type} [KeySource κ] (keys : κ)
    (version : Option KeyVersion) (ambient : Ambient) :
    (KeySource.resolve keys version).run ambient =
      ((KeySource.lookup keys version).answer,
        { ambient with
          calls := ambient.calls ++
            .resolve version :: (KeySource.lookup keys version).queries.map .fetch
          events := ambient.events ++ (KeySource.lookup keys version).queries.map (·.event) }) := by
  simp [KeySource.resolve, Action.run_bind]

end SealedToken
