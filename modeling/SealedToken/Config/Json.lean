import SealedToken.Config
import SealedToken.Json.Parser

/-!
# Settings as JSON

Settings are an object with any of four members, or an array of their values in order, of which the
last may be missing. A choice is written as its name, or as an object that has the name for its only
key, with `null` for the value. A size is a plain integer.

* `Config.parse?`: the settings that a text spells. Nothing is ignored: unknown or repeated keys and
  values of any other form are refused.
* `Config.render`: the settings as an object with all four members.
-/

namespace SealedToken

/-- The choice that a value names. -/
def Choice.ofJson? {α : Type} [Choice α] : Json → Option α
  | .string name => Choice.ofName? name
  | .object [(name, .null)] => Choice.ofName? name
  | _ => none

/-- The number that decimal digits spell. -/
def decimalValue (digits : List Char) : Nat :=
  digits.foldl (fun n c => n * 10 + (c.toNat - 48)) 0

/-- The size that a value spells, written as an integer below 256. -/
def sizeOfJson? : Json → Option UInt8
  | .number literal =>
    let digits := literal.toList
    if digits.all Json.isDigit ∧ decimalValue digits < 256 then
      some (UInt8.ofNat (decimalValue digits))
    else none
  | _ => none

namespace ConfigOverrides

/-- The keys of the settings, in order. -/
def keys : List String := ["cipher", "hash", "encoding", "csrf_nonce_size"]

/-- The settings with one more, which must be known and not be given yet. -/
def set? (overrides : ConfigOverrides) (key : String) (value : Json) : Option ConfigOverrides :=
  match key with
  | "cipher" =>
    if overrides.cipher.isSome then none
    else (Choice.ofJson? value).map fun suite => { overrides with cipher := some suite }
  | "hash" =>
    if overrides.hash.isSome then none
    else (Choice.ofJson? value).map fun hash => { overrides with hash := some hash }
  | "encoding" =>
    if overrides.encoding.isSome then none
    else (Choice.ofJson? value).map fun form => { overrides with encoding := some form }
  | "csrf_nonce_size" =>
    if overrides.csrfNonceSize.isSome then none
    else (sizeOfJson? value).map fun size => { overrides with csrfNonceSize := some size }
  | _ => none

/-- The settings of an object's members. -/
def ofMembers? (members : List (String × Json)) : Option ConfigOverrides :=
  members.foldlM (fun overrides (key, value) => overrides.set? key value) {}

/-- The settings that a value spells. -/
def ofJson? : Json → Option ConfigOverrides
  | .object members => ofMembers? members
  | .array values => if values.length ≤ keys.length then ofMembers? (keys.zip values) else none
  | _ => none

end ConfigOverrides

namespace Config

/-- The settings that a text spells. -/
def parse? (text : String) : Option Config := do
  let json ← Json.parse? text
  let overrides ← ConfigOverrides.ofJson? json
  return overrides.config

/-- A member whose value is a name. -/
def renderName {α : Type} [Choice α] (key : String) (choice : α) : String :=
  "\"" ++ key ++ "\":\"" ++ Choice.name choice ++ "\""

/-- The settings as an object, without blanks. -/
def render (config : Config) : String :=
  let members := [renderName "cipher" config.cipher, renderName "hash" config.hash,
    renderName "encoding" config.encoding,
    "\"csrf_nonce_size\":" ++ toString config.csrfNonceSize.toNat]
  "\x7b" ++ ",".intercalate members ++ "\x7d"

end Config

end SealedToken
