import SealedToken.Proofs.Outcome
import SealedToken.Service.Operation

/-!
# The random bytes of actions

The trace of an action tells how many random bytes it took, and the next action starts where they
end.

* `takenBy`: the number of random bytes that a list of calls took. A draw that failed took none.
* `Ambient.Along`: the random bytes left are those of a stream after the ones taken so far.
* `Action.Draws`: the action appends to the trace without reading it, takes from the front as many
  bytes as its calls say, and draws at most once, and then `size` bytes. `Action.Draws.bind_quiet`,
  `Action.Draws.quiet_bind`: of a composed action it follows from its parts.
* `Action.Draws.along`: such an action stays along a stream. `Action.Draws.outcome_congr`: its
  outcome depends on the random bytes only.
* `Services.draws_perform`: every operation is such an action; decoding and checking draw nothing.
-/

namespace SealedToken

variable {ε ε' α β κ : Type}

/-! ## Calls -/

/-- The call asked for random bytes of the system. -/
def Call.isDraw : Call → Bool
  | .draw _ | .drawFailed _ => true
  | _ => false

/-- The number of random bytes that a call took. -/
def Call.taken : Call → Nat
  | .draw length => length
  | _ => 0

/-- The number of random bytes that the calls took together. -/
def takenBy : List Call → Nat
  | [] => 0
  | call :: calls => call.taken + takenBy calls

/-- The calls ask for random bytes at most once, then for `size` of them, which is not zero, and get
them if that many were left. -/
def DrawOnce (size left : Nat) (calls : List Call) : Prop :=
  calls.filter Call.isDraw = [] ∨
    0 < size ∧ calls.filter Call.isDraw = [if size ≤ left then .draw size else .drawFailed size]

@[simp] theorem takenBy_nil : takenBy [] = 0 := rfl

@[simp] theorem takenBy_cons (call : Call) (calls : List Call) :
    takenBy (call :: calls) = call.taken + takenBy calls := rfl

@[simp] theorem takenBy_append (calls calls' : List Call) :
    takenBy (calls ++ calls') = takenBy calls + takenBy calls' := by
  induction calls with
  | nil => rw [List.nil_append, takenBy_nil, Nat.zero_add]
  | cons call calls ih => rw [List.cons_append, takenBy_cons, takenBy_cons, ih, Nat.add_assoc]

@[simp] theorem takenBy_fetches (queries : List StoreQuery) : takenBy (queries.map .fetch) = 0 := by
  induction queries with
  | nil => rfl
  | cons query queries ih => rw [List.map_cons, takenBy_cons, ih]; rfl

theorem takenBy_of_not_isDraw {calls : List Call} (h : calls.filter Call.isDraw = []) :
    takenBy calls = 0 := by
  induction calls with
  | nil => rfl
  | cons call calls ih =>
    cases call with
    | draw | drawFailed => simp [Call.isDraw] at h
    | fill | resolve | fetch => rw [takenBy_cons, ih h]; rfl

section

variable {size left left' : Nat} {calls calls' : List Call}

theorem drawOnce_zero_iff : DrawOnce 0 left calls ↔ calls.filter Call.isDraw = [] :=
  or_iff_left fun h => absurd h.1 (Nat.lt_irrefl 0)

theorem DrawOnce.append_left (h : DrawOnce 0 left' calls) (h' : DrawOnce size left calls') :
    DrawOnce size left (calls ++ calls') := by
  rw [DrawOnce, List.filter_append, drawOnce_zero_iff.mp h, List.nil_append]
  exact h'

theorem DrawOnce.append_right (h : DrawOnce size left calls) (h' : DrawOnce 0 left' calls') :
    DrawOnce size left (calls ++ calls') := by
  rw [DrawOnce, List.filter_append, drawOnce_zero_iff.mp h', List.append_nil]
  exact h

theorem DrawOnce.mono (h : DrawOnce 0 left calls) : DrawOnce size left calls :=
  .inl (drawOnce_zero_iff.mp h)

end

/-! ## Ambients -/

namespace Ambient

/-- The given random bytes, and an empty trace. -/
def fresh (entropy : Bytes) : Ambient := { entropy }

/-- The random bytes of `later`, and the traces of both, that of `earlier` first. -/
def append (earlier later : Ambient) : Ambient where
  entropy := later.entropy
  calls := earlier.calls ++ later.calls
  events := earlier.events ++ later.events

/-- The random bytes of `ambient` are those of `stream` after as many as its calls took. -/
structure Along (stream : Bytes) (ambient : Ambient) : Prop where
  entropy_eq : ambient.entropy = stream.drop (takenBy ambient.calls)
  taken_le : takenBy ambient.calls ≤ stream.length

theorem along_fresh (stream : Bytes) : Along stream (fresh stream) where
  entropy_eq := rfl
  taken_le := Nat.zero_le _

/-- Without a draw among the calls, the random bytes are the whole stream. -/
theorem Along.entropy_of_quiet {stream : Bytes} {ambient : Ambient} (h : ambient.Along stream)
    (hquiet : ambient.calls.filter Call.isDraw = []) : ambient.entropy = stream := by
  rw [h.entropy_eq, takenBy_of_not_isDraw hquiet, List.drop_zero]

/-- Along what is left of a stream after `earlier` is along the stream. -/
theorem Along.append {stream : Bytes} {earlier later : Ambient} (h : earlier.Along stream)
    (hlater : later.Along earlier.entropy) : (earlier.append later).Along stream := by
  obtain ⟨hentropy, hle⟩ := hlater
  rw [h.entropy_eq] at hentropy hle
  rw [List.drop_drop] at hentropy
  rw [List.length_drop] at hle
  have htaken : takenBy (earlier.append later).calls =
      takenBy earlier.calls + takenBy later.calls :=
    takenBy_append _ _
  constructor
  · rw [htaken]
    exact hentropy
  · rw [htaken]
    have := h.taken_le
    omega

theorem append_append (first second third : Ambient) :
    (first.append second).append third = first.append (second.append third) := by
  simp [append]

@[simp] theorem takenBy_drawn (ambient : Ambient) (length : Nat) :
    takenBy (ambient.drawn length).calls = takenBy ambient.calls + length := by
  simp [drawn, Call.taken]

@[simp] theorem takenBy_asked (ambient : Ambient) (version : Option KeyVersion) (lookup : Lookup) :
    takenBy (ambient.asked version lookup).calls = takenBy ambient.calls := by
  simp [asked, Call.taken]

@[simp] theorem takenBy_reported (ambient : Ambient) (events : List Event) :
    takenBy (ambient.reported events).calls = takenBy ambient.calls := rfl

end Ambient

/-! ## Actions -/

namespace Action

/-- The action appends to the trace without reading it, takes from the front of the random bytes as
many as its calls say, and draws at most once, and then `size` bytes, or none if `size` is zero. -/
structure Draws (size : Nat) (action : Action ε α) : Prop where
  run_eq : ∀ before, action.run before =
    ((action.run (.fresh before.entropy)).1, before.append (action.run (.fresh before.entropy)).2)
  along_fresh : ∀ entropy, (action.run (.fresh entropy)).2.Along entropy
  drawOnce : ∀ entropy, DrawOnce size entropy.length (action.run (.fresh entropy)).2.calls

namespace Draws

variable {action : Action ε α} {rest : α → Action ε β} {size : Nat}

/-! ### Parts -/

theorem ofExcept (outcome : Except ε α) : Draws 0 (Action.ofExcept outcome) where
  run_eq before := by simp [Ambient.append, Ambient.fresh]
  along_fresh entropy := by
    rw [run_ofExcept]
    exact Ambient.along_fresh entropy
  drawOnce _ := by
    rw [run_ofExcept]
    exact .inl rfl

theorem pure (a : α) : Draws 0 (Pure.pure a : Action ε α) := ofExcept (.ok a)

/-- `Action.record` of calls that are no draws leaves the random bytes. -/
theorem record {calls : List Call} (h : calls.filter Call.isDraw = []) (events : List Event) :
    Draws 0 (Action.record calls events : Action ε Unit) where
  run_eq before := by simp [Ambient.append, Ambient.fresh]
  along_fresh entropy := by
    constructor <;> simp [Ambient.fresh, takenBy_of_not_isDraw h]
  drawOnce entropy := .inl (by simpa [Ambient.fresh] using h)

theorem draw (h : 0 < size) : Draws size (Action.draw size) where
  run_eq before := by
    rw [run_draw, run_draw, Ambient.fresh]
    dsimp only
    split <;> simp [Ambient.append]
  along_fresh entropy := by
    rw [run_draw, Ambient.fresh]
    dsimp only
    split <;> constructor <;> simp_all [Call.taken]
  drawOnce entropy := by
    refine .inr ⟨h, ?_⟩
    rw [run_draw, Ambient.fresh]
    dsimp only
    split <;> simp_all [Call.isDraw]

theorem resolve [KeySource κ] (keys : κ) (version : Option KeyVersion) :
    Draws 0 (KeySource.resolve keys version) where
  run_eq before := by simp [Ambient.append, Ambient.fresh]
  along_fresh entropy := by
    constructor <;> simp [Ambient.fresh, Call.taken]
  drawOnce entropy := .inl (by simp [Ambient.fresh, Call.isDraw])

/-! ### Composition -/

theorem map (f : α → β) (h : Draws size action) : Draws size (f <$> action) where
  run_eq before := by rw [run_map, run_map, h.run_eq before]
  along_fresh entropy := by
    rw [run_map]
    exact h.along_fresh entropy
  drawOnce entropy := by
    rw [run_map]
    exact h.drawOnce entropy

theorem mapError (f : ε → ε') (h : Draws size action) : Draws size (action.mapError f) where
  run_eq before := by rw [run_mapError, run_mapError, h.run_eq before]
  along_fresh entropy := by
    rw [run_mapError]
    exact h.along_fresh entropy
  drawOnce entropy := by
    rw [run_mapError]
    exact h.drawOnce entropy

/-- An action that draws nothing satisfies `Draws` for every size. -/
theorem mono (h : Draws 0 action) : Draws size action :=
  { h with drawOnce := fun _ => (h.drawOnce _).mono }

/-- The run of a composed action from an empty trace: the rest runs on the random bytes that the
first part left, and its trace is appended. -/
theorem run_bind_fresh (hrest : ∀ a, Draws size (rest a)) (entropy : Bytes) :
    (action >>= rest).run (.fresh entropy) =
      match action.run (.fresh entropy) with
      | (.ok a, middle) =>
        (((rest a).run (.fresh middle.entropy)).1,
          middle.append ((rest a).run (.fresh middle.entropy)).2)
      | (.error e, middle) => (.error e, middle) := by
  rcases h : action.run (.fresh entropy) with ⟨outcome, middle⟩
  cases outcome with
  | error e => rw [run_bind_error h]
  | ok a => rw [run_bind_ok h, (hrest a).run_eq middle]

/-- A composed action satisfies `Draws` if the draws of both parts make up at most one. -/
theorem bind_of {first second : Nat} (haction : Draws first action)
    (hrest : ∀ a, Draws second (rest a))
    (hfirst : ∀ left calls, DrawOnce first left calls → DrawOnce size left calls)
    (hboth : ∀ entropy (middle : Ambient) calls, middle.Along entropy →
      DrawOnce first entropy.length middle.calls → DrawOnce second middle.entropy.length calls →
      DrawOnce size entropy.length (middle.calls ++ calls)) :
    Draws size (action >>= rest) where
  run_eq before := by
    have hbefore := haction.run_eq before
    rw [run_bind_fresh hrest]
    rcases h : action.run (.fresh before.entropy) with ⟨outcome, middle⟩
    rw [h] at hbefore
    cases outcome with
    | error e => rw [run_bind_error hbefore]
    | ok a =>
      rw [run_bind_ok hbefore, (hrest a).run_eq (before.append middle), Ambient.append_append]
      rfl
  along_fresh entropy := by
    have hmiddle := haction.along_fresh entropy
    rw [run_bind_fresh hrest]
    rcases h : action.run (.fresh entropy) with ⟨outcome, middle⟩
    rw [h] at hmiddle
    cases outcome with
    | error e => exact hmiddle
    | ok a => exact hmiddle.append ((hrest a).along_fresh middle.entropy)
  drawOnce entropy := by
    have hmiddle := haction.along_fresh entropy
    have honce := haction.drawOnce entropy
    rw [run_bind_fresh hrest]
    rcases h : action.run (.fresh entropy) with ⟨outcome, middle⟩
    rw [h] at hmiddle honce
    cases outcome with
    | error e => exact hfirst _ _ honce
    | ok a => exact hboth _ _ _ hmiddle honce ((hrest a).drawOnce middle.entropy)

/-- An action that draws, followed by one that does not. -/
theorem bind_quiet (haction : Draws size action) (hrest : ∀ a, Draws 0 (rest a)) :
    Draws size (action >>= rest) :=
  bind_of haction hrest (fun _ _ => id) fun _ _ _ _ => DrawOnce.append_right

/-- An action that draws nothing, followed by one that draws from the same random bytes. -/
theorem quiet_bind (haction : Draws 0 action) (hrest : ∀ a, Draws size (rest a)) :
    Draws size (action >>= rest) := by
  refine bind_of haction hrest (fun _ _ => DrawOnce.mono)
    fun entropy middle calls hmiddle hquiet honce => ?_
  rw [hmiddle.entropy_of_quiet (drawOnce_zero_iff.mp hquiet)] at honce
  exact hquiet.append_left honce

/-! ### Runs -/

/-- The outcome and the random bytes that are left depend only on the random bytes before. -/
theorem outcome_congr {before before' : Ambient} (h : Draws size action)
    (hsame : before.entropy = before'.entropy) :
    (action.run before).1 = (action.run before').1 ∧
      (action.run before).2.entropy = (action.run before').2.entropy := by
  rw [h.run_eq before, h.run_eq before', hsame]
  exact ⟨rfl, rfl⟩

/-- The run appends calls to the trace, with at most one draw among them. -/
theorem exists_calls (h : Draws size action) (before : Ambient) :
    ∃ calls, (action.run before).2.calls = before.calls ++ calls ∧
      DrawOnce size before.entropy.length calls := by
  rw [h.run_eq before]
  exact ⟨_, rfl, h.drawOnce before.entropy⟩

/-- A run that starts along a stream ends along it. -/
theorem along {stream : Bytes} {before : Ambient} (h : Draws size action)
    (hbefore : before.Along stream) :
    (action.run before).2.Along stream := by
  rw [h.run_eq before]
  exact hbefore.append (h.along_fresh before.entropy)

/-- An action with `Draws 0` leaves the random bytes as they are. -/
theorem entropy_of_quiet (h : Draws 0 action) (before : Ambient) :
    (action.run before).2.entropy = before.entropy := by
  have hquiet := drawOnce_zero_iff.mp (h.drawOnce before.entropy)
  rw [h.run_eq before]
  exact (h.along_fresh before.entropy).entropy_of_quiet hquiet

end Draws

end Action

/-! ## Operations -/

theorem NonceSource.draws_draw (source : NonceSource) (size : UInt8) :
    Action.Draws size.toNat (source.draw size) := by
  unfold draw
  split
  · exact (Action.Draws.pure []).mono
  · next hsize =>
    have hpos : 0 < size.toNat := Nat.pos_of_ne_zero fun h => hsize (UInt8.toNat_inj.mp h)
    cases source with
    | system => exact .draw hpos
    | custom fill =>
      exact .mono (.bind_quiet (.record rfl []) fun _ => .bind_quiet (.ofExcept _) fun _ => .pure _)

theorem draws_freshNonce (length : Nat) : Action.Draws nonceLength (freshNonce length) := by
  refine .quiet_bind (.ofExcept _) fun _ => ?_
  exact .bind_quiet (.draw (by decide)) fun bs => .ofExcept (Nonce.ofBytes bs)

theorem CipherSuite.draws_encode (suite : CipherSuite) (key plaintext : Bytes) :
    Action.Draws SealedToken.nonceLength (suite.encode key plaintext) := by
  refine .quiet_bind (.ofExcept _) fun cipher => ?_
  refine .bind_quiet (.mapError _ (draws_freshNonce _)) fun nonce => ?_
  exact .bind_quiet (.ofExcept _) fun sealed => .pure (nonce.bytes ++ sealed)

section

variable [KeySource κ]

/-- `Codec.encode` draws at most the 12 bytes of one nonce, also when it fails. -/
theorem Codec.draws_encode (codec : Codec κ) (plaintext : Bytes) :
    Action.Draws nonceLength (codec.encode plaintext) := by
  refine .quiet_bind (.mapError _ (.resolve codec.keys none)) fun resolved => ?_
  refine .quiet_bind (.ofExcept _) fun _ => ?_
  have hsealed := codec.suite.draws_encode resolved.key plaintext
  refine .bind_quiet (.mapError _ hsealed) fun payload => ?_
  refine .bind_quiet (.ofExcept _) fun envelope => ?_
  exact .bind_quiet (.record rfl _) fun _ => .pure envelope

theorem Codec.draws_decode (codec : Codec κ) (bytes : Bytes) :
    Action.Draws 0 (codec.decode bytes) := by
  refine .bind_quiet (.ofExcept _) fun envelope => ?_
  refine .bind_quiet (.mapError _ (.resolve codec.keys envelope.version)) fun resolved => ?_
  exact .bind_quiet (.record rfl _) fun _ => .ofExcept _

/-- `Signer.sign` draws the nonce first, so its bytes are taken also when there is no key. -/
theorem Signer.draws_sign (signer : Signer κ) (payload : Bytes) (size : UInt8) :
    Action.Draws size.toNat (signer.sign payload size) := by
  refine .bind_quiet (.mapError _ (signer.nonces.draws_draw size)) fun nonce => ?_
  refine .bind_quiet (.mapError _ (.resolve signer.keys none)) fun resolved => ?_
  refine .bind_quiet (.ofExcept _) fun signature => ?_
  exact .bind_quiet (.record rfl _) fun _ => .pure signature

theorem Signer.draws_verify (signer : Signer κ) (signature payload : Bytes) :
    Action.Draws 0 (signer.verify signature payload) := by
  refine .bind_quiet (.ofExcept _) fun envelope => ?_
  refine .bind_quiet (.mapError _ (.resolve signer.keys envelope.version)) fun resolved => ?_
  exact .bind_quiet (.record rfl _) fun _ => .pure _

end

/-- The number of random bytes that an operation asks for: none for checking and for unsalted
signing. -/
def Services.nonceSize (services : Services κ) : Operation → Nat
  | .encode _ | .encodeText _ => nonceLength
  | .sign _ size => size.toNat
  | .issue _ => match services.csrf with
    | .ok csrf => csrf.nonceSize.toNat
    | .error _ => 0
  | .decode _ | .decodeText _ | .verify _ _ | .validate _ _ => 0

/-- Every operation draws at most once, and then `nonceSize` bytes. -/
theorem Services.draws_perform [KeySource κ] (services : Services κ) (operation : Operation) :
    Action.Draws (services.nonceSize operation) (services.perform operation) := by
  cases operation with
  | encode plaintext =>
    exact .quiet_bind (.ofExcept _) fun codec => .map _ (codec.draws_encode plaintext)
  | decode envelope =>
    exact .quiet_bind (.ofExcept _) fun codec => .map _ (codec.draws_decode envelope)
  | encodeText plaintext =>
    exact .quiet_bind (.ofExcept _) fun codec =>
      .map _ (.bind_quiet (codec.draws_encode plaintext) fun _ => .pure _)
  | decodeText token =>
    exact .quiet_bind (.ofExcept _) fun codec =>
      .map _ (.quiet_bind (.ofExcept _) fun bytes => codec.draws_decode bytes)
  | sign payload size =>
    exact .quiet_bind (.ofExcept _) fun signer => .map _ (signer.draws_sign payload size)
  | verify signature payload =>
    exact .quiet_bind (.ofExcept _) fun signer => .map _ (signer.draws_verify signature payload)
  | issue session =>
    rw [perform, nonceSize]
    -- the size is that of the service, if there is one
    cases services.csrf with
    | error e => exact Action.Draws.ofExcept (.error e)
    | ok csrf =>
      exact .map _
        (.bind_quiet (csrf.signer.draws_sign (utf8 session) csrf.nonceSize) fun _ => .pure _)
  | validate token session =>
    exact .quiet_bind (.ofExcept _) fun csrf =>
      .map _ (.quiet_bind (.ofExcept _) fun signature =>
        csrf.signer.draws_verify signature (utf8 session))

end SealedToken
