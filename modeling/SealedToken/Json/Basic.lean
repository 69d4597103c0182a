/-!
# JSON values

* `Json`: a value as it was written: members in order, repeated keys kept, numbers as their text.
-/

namespace SealedToken

/-- A JSON value. -/
inductive Json where
  | null
  | bool (value : Bool)
  /-- a number, as it was written -/
  | number (literal : String)
  | string (text : String)
  | array (items : List Json)
  /-- the members in order, with every key that was written -/
  | object (members : List (String × Json))
deriving Repr, Inhabited

end SealedToken
