/-!
# Queries to key stores

* `SecretQuery`: what a secret store is asked for.
* `ParameterQuery`: what a parameter store is asked for.
* `StoreQuery`: either of them.
-/

namespace SealedToken

/-- A query to a secret store: for a version by its id, or for the current one. -/
structure SecretQuery where
  secretId : String
  versionId : Option String
  versionStage : Option String
deriving DecidableEq, Repr

/-- A query to a parameter store; the version or label is part of the name. -/
structure ParameterQuery where
  name : String
  withDecryption : Option Bool
deriving DecidableEq, Repr

/-- A query to a key store. -/
inductive StoreQuery where
  | secret (query : SecretQuery)
  | parameter (query : ParameterQuery)
deriving DecidableEq, Repr

end SealedToken
