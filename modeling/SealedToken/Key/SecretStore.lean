import SealedToken.Key.Source

/-!
# Keys in a secret store

One secret holds all versions of a key, each under an id, which is the key's version.

* `SecretAnswer`: what the store answers.
* `SecretStore`: a key source over a client of the store.
* `SecretTable`: a client that answers from a list.
-/

namespace SealedToken

/-- The value of a secret, as text or as bytes, and the id of its version. -/
structure SecretAnswer where
  binary : Option Bytes
  string : Option String
  versionId : Option String
deriving DecidableEq, Repr

/-- A secret whose versions are keys. -/
structure SecretStore where
  /-- how the store answers a query -/
  client : SecretQuery → Except KeyError SecretAnswer
  secretId : String
  /-- the stage that every query names -/
  versionStage : Option String := none
  /-- how a text becomes key bytes -/
  decoder : SecretForm := .auto

namespace SecretStore

/-- The query for the current version, or for that of an id. -/
def query (store : SecretStore) (versionId : Option String) : SecretQuery :=
  ⟨store.secretId, versionId, store.versionStage⟩

/-- The key bytes of an answer. A text goes before bytes. -/
def keyBytes (store : SecretStore) (value : SecretAnswer) : Except KeyError Bytes :=
  match value.string, value.binary with
  | some text, _ => (store.decoder.decode text).mapError .undecodable
  | none, some bs => .ok bs
  | none, none =>
    .error (.plain s!"secret {store.secretId} has neither string nor binary value")

/-- The key in the store's answer to a query, and its version. -/
def answer (store : SecretStore) (query : SecretQuery) : Except KeyError VersionedKey := do
  let value ← store.client query
  let key ← store.keyBytes value
  return ⟨key, value.versionId.map KeyVersion.label⟩

/-- The lookup that sends the query for `versionId`. -/
def fetch (store : SecretStore) (versionId : Option String) : Lookup :=
  let query := store.query versionId
  { answer := store.answer query, queries := [.secret query] }

/-- Versions are labels; the store is not asked for a number. -/
instance : KeySource SecretStore where
  kind _ := .label
  lookup store
    | none => store.fetch none
    | some (.label id) => store.fetch (some id)
    | some (.number value) =>
      { answer := .error (.plain s!"secret store versions are labels, got number {value.toNat}") }

end SecretStore

/-- One entry of a table: an id, or none, and the answer or the failure for it. -/
structure SecretEntry where
  id : Option String
  /-- a value, or the reason for a failure -/
  content : Except String SecretAnswer

/-- A secret store that is a list of entries. -/
abbrev SecretTable := List SecretEntry

/-- The client that answers from the first entry of the requested id. -/
def SecretTable.client (table : SecretTable) (query : SecretQuery) :
    Except KeyError SecretAnswer :=
  match table.find? fun entry => entry.id = query.versionId with
  | some entry => entry.content.mapError .plain
  | none => .error (.plain "secret not found")

end SealedToken
