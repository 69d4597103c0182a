import SealedToken.Proofs.Outcome
import SealedToken.Service.Operation

/-!
# Logs

The events of an action are a function of its upshot and of what is visible of its input.

* `TokenError.Kind`, `Upshot`: the end of an action, less the bytes of its result and the words of
  its error.
* `Outline`, `Envelope.outline?`, `TextForm.outline?`: the visible part of a token that can be read.
* `Action.Silent`, `Action.FailsSilently`: the action reports nothing, or nothing when it fails.
* `Action.Logs`: the events of the action are `log` of its upshot.
* `Action.Reads`: the same for an action that reads a token, whose events depend on its outline too;
  without an outline the upshot is that of an unread token.
* `Action.Logs.map`, `Action.Reads.map`, `Action.Reads.text`, `Action.logs_service`: the same for
  composed actions, from their parts.
-/

namespace SealedToken

/-! ## Upshots -/

/-- The kind of a token error. -/
inductive TokenError.Kind where
  | configuration
  | transport
  | malformedEnvelope
  | authentication
  | cipher
  | entropy
  | encoding
deriving DecidableEq, Repr

/-- The variant of the error, without its cause. -/
def TokenError.kind : TokenError → TokenError.Kind
  | configuration _ => .configuration
  | transport _ => .transport
  | malformedEnvelope _ => .malformedEnvelope
  | authentication => .authentication
  | cipher _ => .cipher
  | entropy _ => .entropy
  | encoding _ _ => .encoding

theorem TokenError.kind_eq_authentication_iff {error : TokenError} :
    error.kind = .authentication ↔ error = .authentication := by
  cases error <;> simp [kind]

/-- The outcome of a service operation as far as logs may tell it. -/
inductive Upshot where
  /-- it gives bytes or a text -/
  | made
  | verdict (genuine : Bool)
  | failed (kind : TokenError.Kind)
deriving DecidableEq, Repr

namespace Upshot

/-- The upshot of an outcome, where `see` gives that of a result. -/
def of {α : Type} (see : α → Upshot) : Except TokenError α → Upshot
  | .ok a => see a
  | .error e => failed e.kind

theorem of_map {α β : Type} {see : β → Upshot} {seePart : α → Upshot} (f : α → β)
    (hsee : ∀ a, see (f a) = seePart a) (outcome : Except TokenError α) :
    of see (outcome.map f) = of seePart outcome := by
  cases outcome with
  | ok a => exact hsee a
  | error e => rfl

/-- The upshot of an action that could not parse its token: `malformedEnvelope` or `encoding`. -/
def isUnread : Upshot → Bool
  | failed .malformedEnvelope | failed .encoding => true
  | _ => false

end Upshot

/-- The upshot of the product of an operation. -/
def Product.upshot : Product → Upshot
  | .bytes _ | .text _ => .made
  | .verdict genuine => .verdict genuine

/-! ## Outlines of tokens -/

/-- The facts about a token that events contain: its length, its version and the length of its
nonce. -/
structure Outline where
  length : Nat
  version : Option KeyVersion
  nonceLength : Nat
deriving DecidableEq, Repr

/-- The outline of an envelope whose bytes have the given length. A missing nonce has
length zero. -/
def Envelope.outline (envelope : Envelope) (length : Nat) : Outline :=
  ⟨length, envelope.version, (envelope.nonce.getD []).length⟩

/-- The outline of the envelope that `Envelope.decode` reads from the bytes. -/
def Envelope.outline? (options : Dialect) (bytes : Bytes) : Option Outline :=
  (Envelope.decode options bytes).toOption.map fun envelope => envelope.outline bytes.length

/-- The outline of the envelope in the bytes that `readToken` reads from the text. -/
def TextForm.outline? (form : TextForm) (options : Dialect) (token : String) : Option Outline :=
  (form.readToken token).toOption.bind (Envelope.outline? options)

section

variable {options : Dialect} {bytes : Bytes} {form : TextForm} {token : String}

theorem Envelope.outline?_of_error {e : EnvelopeError}
    (h : Envelope.decode options bytes = .error e) :
    outline? options bytes = none := by
  rw [outline?, h]
  rfl

theorem Envelope.outline?_of_ok {envelope : Envelope}
    (h : Envelope.decode options bytes = .ok envelope) :
    outline? options bytes = some (envelope.outline bytes.length) := by
  rw [outline?, h]
  rfl

theorem TextForm.outline?_of_error {e : TokenError} (h : form.readToken token = .error e) :
    form.outline? options token = none := by
  rw [outline?, h]
  rfl

theorem TextForm.outline?_of_ok (h : form.readToken token = .ok bytes) :
    form.outline? options token = Envelope.outline? options bytes := by
  rw [outline?, h]
  rfl

theorem TextForm.kind_of_readToken {e : TokenError} (h : form.readToken token = .error e) :
    e.kind = .encoding := by
  obtain ⟨fault, -, rfl⟩ := mapError_eq_error_iff.mp h
  rfl

end

namespace Action

variable {ε ε' α β : Type}

/-! ## Silent actions -/

section

variable {action : Action ε α} {rest : α → Action ε β}

/-- A run of the action appends no events. -/
def Silent (action : Action ε α) : Prop := ∀ before, (action.run before).2.events = before.events

/-- A run of the action that fails appends no events. -/
def FailsSilently (action : Action ε α) : Prop :=
  ∀ before e, (action.run before).1 = .error e → (action.run before).2.events = before.events

theorem Silent.ofExcept (outcome : Except ε α) : Silent (Action.ofExcept outcome) := by
  intro before
  rw [run_ofExcept]

theorem Silent.draw (length : Nat) : Silent (Action.draw length) := by
  intro before
  rw [run_draw]
  split <;> rfl

theorem Silent.mapError (f : ε → ε') (h : Silent action) : Silent (action.mapError f) := by
  intro before
  rw [run_mapError]
  exact h before

theorem Silent.bind (haction : Silent action) (hrest : ∀ a, Silent (rest a)) :
    Silent (action >>= rest) := by
  intro before
  have hmiddle := haction before
  rcases h : action.run before with ⟨outcome, middle⟩
  rw [h] at hmiddle
  cases outcome with
  | error e => rw [run_bind_error h, hmiddle]
  | ok a => rw [run_bind_ok h, hrest a, hmiddle]

/-- An action that only records events at its end, and then succeeds, never fails with events. -/
theorem FailsSilently.report (events : List Event) (a : α) :
    FailsSilently (Action.record [] events >>= fun _ => pure a : Action ε α) := by
  intro before e h
  cases h

theorem FailsSilently.bind (haction : Silent action) (hrest : ∀ a, FailsSilently (rest a)) :
    FailsSilently (action >>= rest) := by
  intro before e he
  have hmiddle := haction before
  rcases h : action.run before with ⟨outcome, middle⟩
  rw [h] at hmiddle
  cases outcome with
  | error e => rw [run_bind_error h, hmiddle]
  | ok a =>
    rw [run_bind_ok h] at he ⊢
    rw [hrest a middle e he, hmiddle]

end

/-! ## Logs of actions -/

/-- The events that a run of the action appends are `log` of its upshot. -/
def Logs (see : α → Upshot) (log : Upshot → List Event) (action : Action TokenError α) : Prop :=
  ∀ before, (action.run before).2.events = before.events ++ log (.of see (action.run before).1)

/-- The events that a run of the action appends are `log` of the outline of its token and of its
upshot. The upshot is unread exactly if there is no outline. -/
structure Reads (see : α → Upshot) (outline? : Option Outline)
    (log : Option Outline → Upshot → List Event)
    (action : Action TokenError α) : Prop where
  logs : action.Logs see (log outline?)
  unread_iff : ∀ before, outline? = none ↔ (Upshot.of see (action.run before).1).isUnread

variable {see : β → Upshot} {log : Upshot → List Event}

/-- A function on the result keeps the log if it keeps the upshot. -/
theorem Logs.map {seePart : α → Upshot} {action : Action TokenError α} (f : α → β)
    (hsee : ∀ a, see (f a) = seePart a) (h : action.Logs seePart log) :
    (f <$> action).Logs see log := by
  intro before
  rw [run_map, Upshot.of_map f hsee]
  exact h before

namespace Reads

variable {outline? : Option Outline} {log : Option Outline → Upshot → List Event}

/-- An action that fails with `malformedEnvelope` or `encoding` without any effect reads a token
without an outline. -/
theorem unread {action : Action TokenError β} {e : TokenError}
    (hrun : ∀ before, action.run before = (.error e, before))
    (hkind : (Upshot.failed e.kind).isUnread)
    (hlog : ∀ upshot, log none upshot = []) : action.Reads see none log where
  logs before := by
    rw [hrun, hlog, List.append_nil]
  unread_iff before := by
    rw [hrun]
    exact iff_of_true rfl hkind

theorem map {seePart : α → Upshot} {action : Action TokenError α} (f : α → β)
    (hsee : ∀ a, see (f a) = seePart a) (h : action.Reads seePart outline? log) :
    (f <$> action).Reads see outline? log where
  logs := h.logs.map f hsee
  unread_iff before := by
    rw [run_map, Upshot.of_map f hsee]
    exact h.unread_iff before

/-- An action on the bytes of a token, run after `readToken`, has the same log with the outline of
the text. -/
theorem text {options : Dialect} {form : TextForm} {token : String}
    {part : Bytes → Action TokenError β} (hlog : ∀ upshot, log none upshot = [])
    (h : ∀ bytes, (part bytes).Reads see (Envelope.outline? options bytes) log) :
    (Action.ofExcept (form.readToken token) >>= part).Reads see
      (form.outline? options token) log := by
  cases htext : form.readToken token with
  | error e =>
    rw [TextForm.outline?_of_error htext]
    refine unread (fun before => run_bind_error (run_ofExcept _ before)) ?_ hlog
    rw [TextForm.kind_of_readToken htext]
    rfl
  | ok bytes =>
    rw [TextForm.outline?_of_ok htext]
    refine ⟨fun before => ?_, fun before => ?_⟩
    · rw [run_ofExcept_bind_of_ok rfl]
      exact (h bytes).logs before
    · rw [run_ofExcept_bind_of_ok rfl]
      exact (h bytes).unread_iff before

end Reads

/-! ## Logs of services -/

/-- The log of a service that may not have been built: empty if it was not. -/
def logOf {σ : Type} (service : Except TokenError σ)
    (log : σ → Upshot → List Event) (upshot : Upshot) :
    List Event :=
  match service with
  | .ok built => log built upshot
  | .error _ => []

section

variable {σ : Type} {service : Except TokenError σ} {part : σ → Action TokenError β}

/-- An action of a service that may not have been built logs nothing if it was not. -/
theorem logs_service {log : σ → Upshot → List Event}
    (h : ∀ built, service = .ok built → (part built).Logs see (log built)) :
    (Action.ofExcept service >>= part).Logs see (logOf service log) := by
  intro before
  cases hservice : service with
  | error e => exact (List.append_nil _).symm
  | ok built =>
    rw [run_ofExcept_bind_of_ok rfl]
    exact h built hservice before

/-- There is no outline exactly if the service was not built or the upshot is unread. -/
theorem unread_service_iff {outline? : σ → Option Outline}
    {log : σ → Option Outline → Upshot → List Event}
    (h : ∀ built, (part built).Reads see (outline? built) (log built)) (before : Ambient) :
    service.toOption.bind outline? = none ↔
      (service.isOk →
        (Upshot.of see ((Action.ofExcept service >>= part).run before).1).isUnread) := by
  cases service with
  | error e => exact iff_of_true rfl nofun
  | ok built =>
    rw [run_ofExcept_bind_of_ok rfl]
    exact ((h built).unread_iff before).trans (imp_iff_right rfl).symm

end

end Action

end SealedToken
