/-!
# Settings chosen by name

A setting such as the cipher suite is one of a few choices. Each has a name that settings are
written with and a title that messages and diagnostic texts show.

* `Choice`: a type of choices with its `choices`, `name` and `title`.
* `Choice.ofName?`: the choice of a name.
-/

namespace SealedToken

/-- A type whose values settings choose by name. -/
class Choice (α : Type) where
  /-- every choice -/
  choices : List α
  /-- the name that settings are written with -/
  name : α → String
  /-- the name that messages show -/
  title : α → String

/-- The choice that settings write as `name`. -/
def Choice.ofName? {α : Type} [Choice α] (name : String) : Option α :=
  Choice.choices.find? fun choice => Choice.name choice = name

end SealedToken
