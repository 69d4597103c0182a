import SealedToken.Key.Source

/-!
# Keys in a parameter store

A parameter keeps its history under numbers, which are the versions of the key. A query selects by
the parameter's full name: the name alone, or with a number or a label behind a colon.

* `ParameterAnswer`: what the store answers.
* `ParameterStore`: a key source over a client of the store; `ParameterStore.fullName` is the full
  name.
* `ParameterTable`: a client that answers from a list.
-/

namespace SealedToken

/-- The value of a parameter and the number of its version; 0 stands for no version. -/
structure ParameterAnswer where
  value : String
  version : UInt64
deriving DecidableEq, Repr

/-- A parameter whose versions are keys. -/
structure ParameterStore where
  /-- how the store answers a query -/
  client : ParameterQuery → Except KeyError ParameterAnswer
  name : String
  withDecryption : Option Bool := none
  /-- the label of the current version -/
  label : Option String := none
  /-- how a text becomes key bytes -/
  decoder : SecretForm := .auto

namespace ParameterStore

/-- The full name for a version: the number if it is not 0, or else the label if there is one. -/
def fullName (store : ParameterStore) (version : UInt64) : String :=
  if version = 0 then
    match store.label with
    | some label => store.name ++ ":" ++ label
    | none => store.name
  else store.name ++ ":" ++ toString version.toNat

/-- The version of an answer. -/
def versionOf (value : ParameterAnswer) : Option KeyVersion :=
  if value.version = 0 then none else some (.number value.version)

/-- The key in the store's answer to a query, and its version. -/
def answer (store : ParameterStore) (query : ParameterQuery) :
    Except KeyError VersionedKey := do
  let value ← store.client query
  let key ← (store.decoder.decode value.value).mapError KeyError.undecodable
  return ⟨key, versionOf value⟩

/-- The lookup that sends the query for `version`. -/
def fetch (store : ParameterStore) (version : UInt64) : Lookup :=
  let query := ⟨store.fullName version, store.withDecryption⟩
  { answer := store.answer query, queries := [.parameter query] }

/-- Versions are numbers; the store is not asked for a label. -/
instance : KeySource ParameterStore where
  kind _ := .number
  lookup store
    | none => store.fetch 0
    | some (.number value) => store.fetch value
    | some (.label text) =>
      { answer := .error (.plain s!"parameter store versions are numbers, got label {text}") }

end ParameterStore

/-- One entry of a table: a full name, and the answer or the failure for it. -/
structure ParameterEntry where
  name : String
  /-- a value, or the reason for a failure -/
  content : Except String ParameterAnswer

/-- A parameter store that is a list of entries. -/
abbrev ParameterTable := List ParameterEntry

/-- The client that answers from the first entry of the requested name. -/
def ParameterTable.client (table : ParameterTable) (query : ParameterQuery) :
    Except KeyError ParameterAnswer :=
  match table.find? fun entry => entry.name = query.name with
  | some entry => entry.content.mapError .plain
  | none => .error (.plain "parameter not found")

end SealedToken
