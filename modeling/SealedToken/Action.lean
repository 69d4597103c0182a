import SealedToken.Envelope.KeyVersion
import SealedToken.Event

/-!
# Actions

Tokens are made from random bytes and from keys that others keep. An action is a computation that
draws such bytes and leaves a trace of what it asked for.

* `Ambient`: the random bytes that are left, and the trace: `Call`s to the outside and diagnostic
  events.
* `Action`: a computation over it that may fail; a failure keeps the trace. `Action.run` runs it.
* `Action.draw`: the next random bytes, or a failure that takes none.
* `Action.run_bind`, `Action.run_record`, …: how each operation runs.
-/

namespace SealedToken

/-- A call of an action: a draw of random bytes, a question to a key source, or a query to its
store. -/
inductive Call where
  /-- random bytes, which were there -/
  | draw (length : Nat)
  /-- random bytes, which were not there -/
  | drawFailed (length : Nat)
  /-- nonce bytes of a source other than the system's -/
  | fill (length : Nat)
  /-- the current key of a key source, or that of a version -/
  | resolve (version : Option KeyVersion)
  /-- a query that a key source passed on to its store -/
  | fetch (query : StoreQuery)
deriving DecidableEq, Repr

/-- The random bytes that an action draws from, and the trace that it writes to. -/
structure Ambient where
  /-- the random bytes that are left -/
  entropy : Bytes
  /-- what was asked of the outside, in order -/
  calls : List Call := []
  /-- what was reported, in order -/
  events : List Event := []
deriving DecidableEq, Repr

/-- A computation that draws random bytes, leaves a trace, and may fail with an `ε`. -/
abbrev Action (ε : Type) := EStateM ε Ambient

namespace Action

variable {ε ε' α β : Type}

/-- The outcome of an action, and the ambient after it. -/
def run (action : Action ε α) (ambient : Ambient) : Except ε α × Ambient :=
  match EStateM.run action ambient with
  | .ok value after => (.ok value, after)
  | .error error after => (.error error, after)

/-- The action that ends in `outcome` and leaves the ambient as it is. -/
def ofExcept : Except ε α → Action ε α
  | .ok value => pure value
  | .error error => throw error

/-- The action with `f` applied to its error. -/
def mapError (f : ε → ε') (action : Action ε α) : Action ε' α := EStateM.adaptExcept f action

/-- `record` appends `calls` and `events` to the trace. -/
def record (calls : List Call) (events : List Event) : Action ε Unit :=
  modify fun ambient =>
    { ambient with calls := ambient.calls ++ calls, events := ambient.events ++ events }

/-- `emit` appends one event to the trace. -/
def emit (event : Event) : Action ε Unit := record [] [event]

/-- The next `length` random bytes. If fewer are left, none is taken. -/
def draw (length : Nat) : Action NonceError Bytes := do
  let ambient ← get
  if length ≤ ambient.entropy.length then
    set { ambient with entropy := ambient.entropy.drop length }
    record [.draw length] []
    return ambient.entropy.take length
  else
    record [.drawFailed length] []
    throw (.entropy "entropy exhausted")

/-! ## How actions run -/

@[simp] theorem run_pure (value : α) (ambient : Ambient) :
    (pure value : Action ε α).run ambient = (.ok value, ambient) := rfl

@[simp] theorem run_throw (error : ε) (ambient : Ambient) :
    (throw error : Action ε α).run ambient = (.error error, ambient) := rfl

/-- A bind runs `rest` in the ambient that `action` leaves; a failure of `action` is the outcome. -/
theorem run_bind (action : Action ε α) (rest : α → Action ε β) (ambient : Ambient) :
    (action >>= rest).run ambient =
      match action.run ambient with
      | (.ok value, after) => (rest value).run after
      | (.error error, after) => (.error error, after) := by
  unfold run
  simp only [EStateM.run, bind, EStateM.bind]
  cases action ambient <;> rfl

@[simp] theorem run_map (f : α → β) (action : Action ε α) (ambient : Ambient) :
    (f <$> action).run ambient = ((action.run ambient).1.map f, (action.run ambient).2) := by
  unfold run
  simp only [EStateM.run, Functor.map, EStateM.map]
  cases action ambient <;> rfl

@[simp] theorem run_ofExcept (outcome : Except ε α) (ambient : Ambient) :
    (ofExcept outcome).run ambient = (outcome, ambient) := by
  cases outcome <;> rfl

@[simp] theorem run_mapError (f : ε → ε') (action : Action ε α) (ambient : Ambient) :
    (action.mapError f).run ambient =
      ((action.run ambient).1.mapError f, (action.run ambient).2) := by
  unfold run mapError
  simp only [EStateM.run, EStateM.adaptExcept]
  cases action ambient <;> rfl

@[simp] theorem run_record (calls : List Call) (events : List Event) (ambient : Ambient) :
    (record calls events : Action ε Unit).run ambient =
      (.ok (),
        { ambient with
          calls := ambient.calls ++ calls
          events := ambient.events ++ events }) :=
  rfl

/-- `draw` takes the next `length` bytes, or fails and takes none. -/
theorem run_draw (length : Nat) (ambient : Ambient) :
    (draw length).run ambient =
      if length ≤ ambient.entropy.length then
        (.ok (ambient.entropy.take length),
          { entropy := ambient.entropy.drop length, calls := ambient.calls ++ [.draw length],
            events := ambient.events })
      else
        (.error (.entropy "entropy exhausted"),
          { ambient with calls := ambient.calls ++ [.drawFailed length] }) := by
  have hget : (get : Action NonceError Ambient).run ambient = (.ok ambient, ambient) := rfl
  rw [draw, run_bind, hget]
  dsimp only
  split
  · next h =>
    have hset : (set { ambient with entropy := ambient.entropy.drop length } :
        Action NonceError PUnit).run ambient =
          (.ok ⟨⟩, { ambient with entropy := ambient.entropy.drop length }) := rfl
    rw [run_bind, hset]
    simp [Except.map]
  · simp [run_bind]

end Action

end SealedToken
