import SealedToken.Key.Source

/-!
# Outcomes and runs

* `bind_eq_ok_iff`, `map_eq_ok_iff`, `mapError_eq_ok_iff`, `check_eq_ok_iff`: a composed outcome is
  a success exactly if its parts are. `bind_eq_error_iff` and the like: it has the error of the
  first part that fails.
* `Action.run_bind_ok`, `Action.run_bind_error`: the run of `action >>= rest` after a known run of
  `action`.
* `Action.outcome_bind`, `Action.run_bind_eq_ok_iff`: the outcome of a bind, and its successful
  runs.
* `Action.run_eq_iff_of_rules`: if an action follows its rules and one of them applies, it has
  exactly the runs that the rules allow.
* `Action.RaisesOnly`: every error of an action satisfies `P`. `Action.RaisesOnly.bind`: of a bind
  it follows from its parts.
* `Action.run_draw_eq_ok_iff`, `KeySource.run_resolve_eq_ok_iff`: the successful runs of `draw` and
  `resolve`. `Ambient.drawn`, `Ambient.drawFailed`, `Ambient.filled`, `Ambient.asked` and
  `Ambient.reported` are the ambients that actions leave.
* `KeySource.run_resolve_bind_of_error`, `KeySource.run_resolve_bind_of_ok`: the run of an action
  that starts with `resolve`.
-/

namespace SealedToken

variable {ε ε' α β : Type}

/-! ## Outcomes -/

@[simp] theorem pure_eq_ok_iff {a b : α} : (pure a : Except ε α) = .ok b ↔ a = b := by
  simp [pure, Except.pure]

@[simp] theorem bind_eq_ok_iff {x : Except ε α} {f : α → Except ε β} {b : β} :
    (x >>= f) = .ok b ↔ ∃ a, x = .ok a ∧ f a = .ok b := by
  cases x <;> simp [bind, Except.bind]

@[simp] theorem map_eq_ok_iff {x : Except ε α} {f : α → β} {b : β} :
    x.map f = .ok b ↔ ∃ a, x = .ok a ∧ f a = b := by
  cases x <;> simp [Except.map]

@[simp] theorem mapError_eq_ok_iff {x : Except ε α} {f : ε → ε'} {a : α} :
    x.mapError f = .ok a ↔ x = .ok a := by
  cases x with
  | error e => exact ⟨nofun, nofun⟩
  | ok b =>
    constructor
    · rintro ⟨⟩
      rfl
    · rintro ⟨⟩
      rfl

/-- A `do` block that begins with a check succeeds exactly if the condition fails and the rest
succeeds. -/
@[simp] theorem check_eq_ok_iff {c : Prop} [Decidable c] {e : ε} {f : α → Except ε β}
    {x : Except ε β} {b : β} :
    (if c then (throw e : Except ε α) >>= f else x) = .ok b ↔ ¬ c ∧ x = .ok b := by
  by_cases hc : c <;> simp [hc, bind, Except.bind, throw, throwThe, MonadExceptOf.throw]

@[simp] theorem pure_ne_error {a : α} {e : ε} : (pure a : Except ε α) ≠ .error e := nofun

@[simp] theorem bind_eq_error_iff {x : Except ε α} {f : α → Except ε β} {e : ε} :
    (x >>= f) = .error e ↔ x = .error e ∨ ∃ a, x = .ok a ∧ f a = .error e := by
  cases x <;> simp [bind, Except.bind]

@[simp] theorem map_eq_error_iff {x : Except ε α} {f : α → β} {e : ε} :
    x.map f = .error e ↔ x = .error e := by
  cases x <;> simp [Except.map]

@[simp] theorem mapError_eq_error_iff {x : Except ε α} {f : ε → ε'} {e : ε'} :
    x.mapError f = .error e ↔ ∃ cause, x = .error cause ∧ f cause = e := by
  cases x with
  | error cause =>
    constructor
    · rintro ⟨⟩
      exact ⟨cause, rfl, rfl⟩
    · rintro ⟨_, ⟨⟩, rfl⟩
      rfl
  | ok a =>
    constructor
    · intro h
      cases h
    · rintro ⟨_, h, -⟩
      cases h

/-- A `do` block that begins with a check fails with the error of the check, or with one
of the rest. -/
@[simp] theorem check_eq_error_iff {c : Prop} [Decidable c] {e e' : ε} {f : α → Except ε β}
    {x : Except ε β} :
    (if c then (throw e : Except ε α) >>= f else x) = .error e' ↔
      (c ∧ e = e') ∨ (¬ c ∧ x = .error e') := by
  by_cases hc : c <;> simp [hc, bind, Except.bind, throw, throwThe, MonadExceptOf.throw]

/-! ## Runs -/

namespace Action

variable {action : Action ε α} {rest : α → Action ε β} {before middle after : Ambient}

theorem run_bind_ok {a : α} (h : action.run before = (.ok a, middle)) :
    (action >>= rest).run before = (rest a).run middle := by
  rw [run_bind, h]

theorem run_bind_error {e : ε} (h : action.run before = (.error e, middle)) :
    (action >>= rest).run before = (.error e, middle) := by
  rw [run_bind, h]

theorem run_bind_eq_ok_iff {b : β} : (action >>= rest).run before = (.ok b, after) ↔
    ∃ a middle, action.run before = (.ok a, middle) ∧ (rest a).run middle = (.ok b, after) := by
  rcases h : action.run before with ⟨outcome, left⟩
  cases outcome with
  | ok a =>
    rw [run_bind_ok h]
    constructor
    · intro hr
      exact ⟨a, left, rfl, hr⟩
    · rintro ⟨a', left', he, hr⟩
      cases he
      exact hr
  | error e =>
    rw [run_bind_error h]
    constructor
    · intro he
      cases he
    · rintro ⟨a, left', he, -⟩
      cases he

/-- The runs of an action are those of `Rule` if every rule describes its run and some rule always
applies. -/
theorem run_eq_iff_of_rules {Rule : Except ε α → Ambient → Prop}
    (hfollows : ∀ outcome after, Rule outcome after → action.run before = (outcome, after))
    (happlies : ∃ outcome after, Rule outcome after) (outcome : Except ε α) (after : Ambient) :
    action.run before = (outcome, after) ↔ Rule outcome after := by
  refine ⟨fun hrun => ?_, hfollows outcome after⟩
  obtain ⟨outcome', after', hrule⟩ := happlies
  cases hrun.symm.trans (hfollows outcome' after' hrule)
  exact hrule

/-- The outcome of a composed action: that of the rest, run on the ambient that the first part left,
unless the first part fails. -/
theorem outcome_bind (action : Action ε α) (rest : α → Action ε β) (before : Ambient) :
    ((action >>= rest).run before).1 = (do
      let a ← (action.run before).1
      ((rest a).run (action.run before).2).1) := by
  rw [run_bind]
  rcases action.run before with ⟨outcome, middle⟩
  cases outcome <;> rfl

theorem run_ofExcept_bind_of_error {outcome : Except ε α} {e : ε} (h : outcome = .error e) :
    (ofExcept outcome >>= rest).run before = (.error e, before) := by
  rw [h]
  rfl

theorem run_ofExcept_bind_of_ok {outcome : Except ε α} {a : α} (h : outcome = .ok a) :
    (ofExcept outcome >>= rest).run before = (rest a).run before := by
  rw [h]
  rfl

@[simp] theorem run_ofExcept_eq_ok_iff {outcome : Except ε α} {a : α} :
    (ofExcept outcome).run before = (.ok a, after) ↔ outcome = .ok a ∧ after = before := by
  rw [run_ofExcept, Prod.mk.injEq, eq_comm (a := before)]

@[simp] theorem run_mapError_eq_ok_iff {f : ε → ε'} {a : α} :
    (action.mapError f).run before = (.ok a, after) ↔ action.run before = (.ok a, after) := by
  rw [run_mapError, Prod.mk.injEq, mapError_eq_ok_iff, ← Prod.mk.injEq]

theorem run_map_eq_ok_iff {f : α → β} {b : β} :
    (f <$> action).run before = (.ok b, after) ↔
      ∃ a, action.run before = (.ok a, after) ∧ f a = b := by
  rw [run_map, Prod.mk.injEq, map_eq_ok_iff]
  constructor
  · rintro ⟨⟨a, ha, rfl⟩, rfl⟩
    exact ⟨a, Prod.ext ha rfl, rfl⟩
  · rintro ⟨a, h, rfl⟩
    rw [h]
    exact ⟨⟨a, rfl, rfl⟩, rfl⟩

/-! ## Errors of actions -/

/-- Every error with which a run of the action fails satisfies `P`. -/
def RaisesOnly (P : ε → Prop) (action : Action ε α) : Prop :=
  ∀ before e, (action.run before).1 = .error e → P e

namespace RaisesOnly

variable {P : ε → Prop}

theorem pure (a : α) : RaisesOnly P (Pure.pure a : Action ε α) := by
  intro before e h
  cases h

theorem record (calls : List Call) (events : List Event) :
    RaisesOnly P (Action.record calls events : Action ε Unit) := by
  intro before e h
  cases h

theorem ofExcept {outcome : Except ε α} (h : ∀ e, outcome = .error e → P e) :
    RaisesOnly P (Action.ofExcept outcome) := by
  intro before e he
  rw [run_ofExcept] at he
  exact h e he

theorem bind (haction : RaisesOnly P action) (hrest : ∀ a, RaisesOnly P (rest a)) :
    RaisesOnly P (action >>= rest) := by
  intro before e h
  rw [outcome_bind, bind_eq_error_iff] at h
  rcases h with h | ⟨a, -, h⟩
  · exact haction before e h
  · exact hrest a _ e h

theorem map (f : α → β) (haction : RaisesOnly P action) : RaisesOnly P (f <$> action) := by
  intro before e h
  rw [run_map, map_eq_error_iff] at h
  exact haction before e h

/-- No run of the action fails with an error that it does not raise. -/
theorem ne {e : ε} (h : RaisesOnly (· ≠ e) action) : (action.run before).1 ≠ .error e :=
  fun he => h before e he rfl

/-- Errors that are renamed satisfy what their new names do. -/
theorem mapError {Q : ε' → Prop} {f : ε → ε'} (haction : RaisesOnly P action)
    (hf : ∀ e, P e → Q (f e)) :
    RaisesOnly Q (action.mapError f) := by
  intro before e h
  rw [run_mapError, mapError_eq_error_iff] at h
  obtain ⟨cause, hcause, rfl⟩ := h
  exact hf cause (haction before cause hcause)

/-- `mapError f` raises only errors that satisfy `Q` if `f` gives no others. -/
theorem mapError_of_forall {Q : ε' → Prop} {f : ε → ε'} (hf : ∀ e, Q (f e)) (action : Action ε α) :
    RaisesOnly Q (action.mapError f) := by
  intro before e h
  rw [run_mapError, mapError_eq_error_iff] at h
  obtain ⟨cause, -, rfl⟩ := h
  exact hf cause

end RaisesOnly

end Action

/-! ## Questions to the outside -/

/-- The ambient after a draw of `length` bytes. -/
def Ambient.drawn (ambient : Ambient) (length : Nat) : Ambient where
  entropy := ambient.entropy.drop length
  calls := ambient.calls ++ [.draw length]
  events := ambient.events

/-- The ambient after a draw of `length` bytes that failed because there were fewer. -/
def Ambient.drawFailed (ambient : Ambient) (length : Nat) : Ambient :=
  { ambient with calls := ambient.calls ++ [.drawFailed length] }

/-- The ambient after a custom source of nonces was called for `length` bytes. -/
def Ambient.filled (ambient : Ambient) (length : Nat) : Ambient :=
  { ambient with calls := ambient.calls ++ [.fill length] }

/-- The ambient after `KeySource.resolve`. -/
def Ambient.asked (ambient : Ambient) (version : Option KeyVersion) (lookup : Lookup) :
    Ambient where
  entropy := ambient.entropy
  calls := ambient.calls ++ .resolve version :: lookup.queries.map .fetch
  events := ambient.events ++ lookup.queries.map (·.event)

/-- The ambient after the events were recorded. -/
def Ambient.reported (ambient : Ambient) (events : List Event) : Ambient :=
  { ambient with events := ambient.events ++ events }

/-- The call asked a key source. -/
def Call.isResolve : Call → Bool
  | .resolve _ => true
  | _ => false

/-- `KeySource.resolve` appends one `resolve` call; its other calls are those to the store. -/
theorem Ambient.filter_isResolve_asked (ambient : Ambient)
    (version : Option KeyVersion) (lookup : Lookup) :
    (ambient.asked version lookup).calls.filter Call.isResolve =
      ambient.calls.filter Call.isResolve ++ [.resolve version] := by
  have hfetches : (lookup.queries.map Call.fetch).filter Call.isResolve = [] := by
    simp [List.filter_eq_nil_iff, Call.isResolve]
  rw [asked, List.filter_append, List.filter_cons_of_pos rfl, hfetches]

theorem Ambient.reported_nil (ambient : Ambient) : ambient.reported [] = ambient := by
  rw [reported, List.append_nil]

variable {before after : Ambient}

theorem Action.run_report (events : List Event) :
    (Action.record [] events : Action ε Unit).run before = (.ok (), before.reported events) := by
  rw [run_record, List.append_nil]
  rfl

theorem Action.run_emit (event : Event) :
    (Action.emit event : Action ε Unit).run before = (.ok (), before.reported [event]) :=
  run_report [event]

theorem Action.run_fill (length : Nat) :
    (Action.record [.fill length] [] : Action ε Unit).run before =
      (.ok (), before.filled length) := by
  rw [run_record, List.append_nil]
  rfl

theorem Action.run_draw_of_le {length : Nat} (h : length ≤ before.entropy.length) :
    (Action.draw length).run before = (.ok (before.entropy.take length), before.drawn length) := by
  rw [run_draw, if_pos h]
  rfl

theorem Action.run_draw_of_lt {length : Nat} (h : before.entropy.length < length) :
    (Action.draw length).run before =
      (.error (.entropy "entropy exhausted"), before.drawFailed length) := by
  rw [run_draw, if_neg (Nat.not_le_of_lt h)]
  rfl

theorem Action.run_draw_eq_ok_iff {length : Nat} {bs : Bytes} :
    (Action.draw length).run before = (.ok bs, after) ↔
      length ≤ before.entropy.length ∧ bs = before.entropy.take length ∧
      after = before.drawn length := by
  rw [run_draw]
  by_cases h : length ≤ before.entropy.length
  · rw [if_pos h]
    constructor
    · intro he
      cases he
      exact ⟨h, rfl, rfl⟩
    · rintro ⟨-, rfl, rfl⟩
      rfl
  · rw [if_neg h]
    constructor
    · intro he
      cases he
    · rintro ⟨hle, -, -⟩
      exact absurd hle h

theorem KeySource.run_resolve_eq {κ : Type} [KeySource κ] (keys : κ) (version : Option KeyVersion) :
    (KeySource.resolve keys version).run before =
      ((KeySource.lookup keys version).answer,
        before.asked version (KeySource.lookup keys version)) :=
  run_resolve keys version before

theorem KeySource.run_resolve_eq_ok_iff {κ : Type} [KeySource κ] {keys : κ}
    {version : Option KeyVersion} {resolved : VersionedKey} :
    (KeySource.resolve keys version).run before = (.ok resolved, after) ↔
      (KeySource.lookup keys version).answer = .ok resolved ∧
        after = before.asked version (KeySource.lookup keys version) := by
  rw [run_resolve_eq, Prod.mk.injEq, eq_comm (b := after)]

section

variable {κ : Type} [KeySource κ] {keys : κ} {version : Option KeyVersion} {f : KeyError → ε}
  {rest : VersionedKey → Action ε α}

/-- If `lookup` fails, the action ends with that error and the calls of `resolve`. -/
theorem KeySource.run_resolve_bind_of_error {e : KeyError}
    (h : (KeySource.lookup keys version).answer = .error e) :
    ((KeySource.resolve keys version).mapError f >>= rest).run before =
      (.error (f e), before.asked version (KeySource.lookup keys version)) := by
  apply Action.run_bind_error
  rw [Action.run_mapError, run_resolve_eq, h]
  rfl

theorem KeySource.run_resolve_bind_of_ok {resolved : VersionedKey}
    (h : (KeySource.lookup keys version).answer = .ok resolved) :
    ((KeySource.resolve keys version).mapError f >>= rest).run before =
      (rest resolved).run (before.asked version (KeySource.lookup keys version)) := by
  apply Action.run_bind_ok
  rw [Action.run_mapError, run_resolve_eq, h]
  rfl

end

end SealedToken
