import SealedToken.Proofs.Entropy
import SealedToken.Proofs.Service.Codec
import SealedToken.Proofs.Service.Csrf
import SealedToken.Session

/-!
# Nonces are never used twice

Operations one after the other share the system's random bytes. Each token takes the next of them
for its nonce, so the nonces of two tokens come from different places of the stream, whatever
operations stand between them and whatever fails.

* `SealedUnder`, `SaltedWith`, `Services.Shows`: the nonce that a token shows to its readers.
* `Services.perform_shows`: it is the next block of random bytes.
* `Request`, `serve`: operations of any services over any key sources, and a run of them.
* `Served.TakesBlock`: the block of the stream that one operation of a run takes.
* `along_serve`, `pairwise_serve`: a run takes the stream in order, by induction on its requests.
* `outcomes_serve_filter`: checks leave no mark on the other operations of a run.
* `nonces_never_reused`: all of this, of every run.
* `Session.run_operations`: the operations of a session make up such a run.
-/

namespace SealedToken

variable {κ : Type}

/-! ## The nonce of a token -/

/-- The bytes are an envelope of a codec of some kind of versions, and its payload begins with the
nonce. -/
def SealedUnder (bytes nonce : Bytes) : Prop :=
  ∃ kind envelope, Envelope.decode (Dialect.codec kind) bytes = .ok envelope ∧
    envelope.payload.take nonceLength = nonce

/-- The bytes are an envelope of a signer, however it names versions, and it has the nonce. -/
def SaltedWith (bytes nonce : Bytes) : Prop :=
  ∃ kind envelope, Envelope.decode (Dialect.signer kind) bytes = .ok envelope ∧
    envelope.nonce = some nonce

theorem CipherSuite.Seals.sealedUnder_iff {suite : CipherSuite} {version : Option KeyVersion}
    {key plaintext bytes nonce' : Bytes} {nonce : Nonce}
    (h : suite.Seals version key nonce plaintext bytes) :
    SealedUnder bytes nonce' ↔ nonce.bytes = nonce' := by
  obtain ⟨cipher, sealed, -, -, hframe⟩ := h
  have hiff := Envelope.exists_decode_iff false
    (fun _ payload => payload.take SealedToken.nonceLength = nonce') hframe nofun
  rw [List.take_left' nonce.length_bytes] at hiff
  exact hiff

theorem saltedWith_iff {version : Option KeyVersion} {nonce nonce' code signature : Bytes}
    (h : Envelope.encode ⟨version, some nonce, code⟩ = .ok signature) (hne : nonce ≠ []) :
    SaltedWith signature nonce' ↔ nonce = nonce' := by
  have hiff := Envelope.exists_decode_iff true (fun found _ => found = some nonce') h fun _ => rfl
  rw [Envelope.writtenNonce_some hne, Option.some.injEq] at hiff
  exact hiff

/-! ## Operations that make tokens -/

namespace Services

/-- The product of the operation contains the nonce, in the payload of an encrypted token or in the
nonce entry of a signature. -/
def Shows (services : Services κ) (nonce : Bytes) : Operation → Product → Prop
  | .encode _, .bytes envelope => SealedUnder envelope nonce
  | .encodeText _, .text token =>
    ∃ codec bytes, services.codec = .ok codec ∧ codec.encoding.readToken token = .ok bytes ∧
      SealedUnder bytes nonce
  | .sign _ _, .bytes signature => SaltedWith signature nonce
  | .issue _, .text token =>
    ∃ csrf bytes, services.csrf = .ok csrf ∧ csrf.encoding.readToken token = .ok bytes ∧
      SaltedWith bytes nonce
  | _, _ => False

/-- The signer and the token service take their nonces from the system. -/
structure FromSystem (services : Services κ) : Prop where
  signer_nonces : ∀ signer, services.signer = .ok signer → signer.nonces = .system
  csrf_nonces : ∀ csrf, services.csrf = .ok csrf → csrf.signer.nonces = .system

end Services

section

variable [KeySource κ] {before after : Ambient}

/-- `Codec.encode` that succeeds takes 12 random bytes, which are the nonce that the envelope
shows. -/
theorem Codec.encode_shows {codec : Codec κ} {plaintext bytes : Bytes}
    (h : (codec.encode plaintext).run before = (.ok bytes, after)) :
    takenBy after.calls = takenBy before.calls + nonceLength ∧
      ∀ nonce, SealedUnder bytes nonce ↔ nonce = before.entropy.take nonceLength := by
  obtain ⟨resolved, nonce, -, -, hnonce, hseals, rfl⟩ := run_encode_eq_ok_iff.mp h
  refine ⟨?_, fun nonce' => ?_⟩
  · rw [Ambient.takenBy_reported, Ambient.takenBy_drawn, Ambient.takenBy_asked]
  · rw [hseals.sealedUnder_iff, hnonce, eq_comm]

/-- `Signer.sign` that succeeds with a salt takes as many random bytes as the salt has, which are
the nonce that the signature shows. -/
theorem Signer.sign_shows {signer : Signer κ} {payload signature : Bytes} {size : UInt8}
    (hsystem : signer.nonces = .system) (hsize : 0 < size.toNat)
    (h : (signer.sign payload size).run before = (.ok signature, after)) :
    takenBy after.calls = takenBy before.calls + size.toNat ∧
      ∀ nonce, SaltedWith signature nonce ↔ nonce = before.entropy.take size.toNat := by
  obtain ⟨nonce, middle, resolved, hdraw, -, hframe, rfl⟩ := run_sign_eq_ok_iff.mp h
  have hlen : nonce.length = size.toNat := NonceSource.length_of_draw hdraw
  have hne : nonce ≠ [] := List.ne_nil_of_length_pos (hlen ▸ hsize)
  have hne_zero : size ≠ 0 := by
    rintro rfl
    exact absurd hsize (Nat.lt_irrefl 0)
  rw [hsystem, NonceSource.draw, if_neg hne_zero, Action.run_draw_eq_ok_iff] at hdraw
  obtain ⟨-, rfl, rfl⟩ := hdraw
  refine ⟨?_, fun nonce' => ?_⟩
  · rw [Ambient.takenBy_reported, Ambient.takenBy_asked, Ambient.takenBy_drawn]
  · rw [saltedWith_iff hframe hne, eq_comm]

namespace Services

variable {services : Services κ} {operation : Operation} {product : Product}

/-- An operation of a service that may not have been built succeeds exactly if it was built and its
part succeeds. -/
theorem run_service_eq_ok_iff {σ α : Type} {service : Except TokenError σ}
    {part : σ → Action TokenError α} {wrap : α → Product} :
    (Action.ofExcept service >>= fun built => wrap <$> part built).run before =
      (.ok product, after) ↔
      ∃ built value, service = .ok built ∧ (part built).run before = (.ok value, after) ∧
        wrap value = product := by
  simp only [Action.run_bind_eq_ok_iff, Action.run_ofExcept_eq_ok_iff, Action.run_map_eq_ok_iff]
  constructor
  · rintro ⟨built, _, ⟨hbuilt, rfl⟩, value, hrun, rfl⟩
    exact ⟨built, value, hbuilt, hrun, rfl⟩
  · rintro ⟨built, value, hbuilt, hrun, rfl⟩
    exact ⟨built, _, ⟨hbuilt, rfl⟩, value, hrun, rfl⟩

/-- An operation that succeeds takes the next `nonceSize` random bytes, which are the nonce that its
product shows. -/
theorem perform_shows (hsystem : services.FromSystem) (hsize : 0 < services.nonceSize operation)
    (h : (services.perform operation).run before = (.ok product, after)) :
    takenBy after.calls = takenBy before.calls + services.nonceSize operation ∧
      ∀ nonce, services.Shows nonce operation product ↔
        nonce = before.entropy.take (services.nonceSize operation) := by
  cases operation with
  | encode plaintext =>
    rw [perform, run_service_eq_ok_iff] at h
    obtain ⟨codec, bytes, -, hrun, rfl⟩ := h
    exact Codec.encode_shows hrun
  | encodeText plaintext =>
    rw [perform, run_service_eq_ok_iff] at h
    obtain ⟨codec, token, hcodec, hrun, rfl⟩ := h
    obtain ⟨bytes, hmade, rfl⟩ := Codec.run_encodeText_eq_ok_iff.mp hrun
    obtain ⟨htaken, hshows⟩ := Codec.encode_shows hmade
    refine ⟨htaken, fun nonce => ?_⟩
    simp only [Shows, hcodec, Except.ok.injEq, exists_and_left, exists_eq_left',
      TextForm.readToken_encode]
    exact hshows nonce
  | sign payload size =>
    rw [perform, run_service_eq_ok_iff] at h
    obtain ⟨signer, signature, hsigner, hrun, rfl⟩ := h
    exact Signer.sign_shows (hsystem.signer_nonces signer hsigner) hsize hrun
  | issue session =>
    rw [perform, run_service_eq_ok_iff] at h
    obtain ⟨csrf, token, hcsrf, hrun, rfl⟩ := h
    obtain ⟨signature, hmade, rfl⟩ := Csrf.run_issue_eq_ok_iff.mp hrun
    have hsize_eq : services.nonceSize (.issue session) = csrf.nonceSize.toNat := by
      rw [nonceSize, hcsrf]
    rw [hsize_eq] at hsize ⊢
    obtain ⟨htaken, hshows⟩ := Signer.sign_shows (hsystem.csrf_nonces csrf hcsrf) hsize hmade
    refine ⟨htaken, fun nonce => ?_⟩
    simp only [Shows, hcsrf, Except.ok.injEq, exists_and_left, exists_eq_left',
      TextForm.readToken_encode]
    exact hshows nonce
  | decode | decodeText | verify | validate => exact absurd hsize (Nat.lt_irrefl 0)

end Services

end

/-! ## Runs -/

/-- The operation reads a token and makes none. -/
def Operation.isCheck : Operation → Bool
  | .decode _ | .decodeText _ | .verify _ _ | .validate _ _ => true
  | .encode _ | .encodeText _ | .sign _ _ | .issue _ => false

/-- An operation, and the services that are to do it as they are at the time. -/
structure Request where
  κ : Type
  [keySource : KeySource κ]
  services : Services κ
  fromSystem : services.FromSystem
  operation : Operation

instance (request : Request) : KeySource request.κ := request.keySource

/-- A request with the ambient before it. -/
structure Served where
  request : Request
  before : Ambient

namespace Served

/-- The outcome of the operation of the request. -/
def outcome (served : Served) : Except TokenError Product :=
  ((served.request.services.perform served.request.operation).run served.before).1

/-- What it left. -/
def after (served : Served) : Ambient :=
  ((served.request.services.perform served.request.operation).run served.before).2

/-- The calls that the operation appended. -/
def calls (served : Served) : List Call := served.after.calls.drop served.before.calls.length

/-- The number of random bytes that it needs for a nonce. -/
def size (served : Served) : Nat := served.request.services.nonceSize served.request.operation

/-- The number of random bytes taken before the request. -/
def start (served : Served) : Nat := takenBy served.before.calls

/-- The number of random bytes taken when it is done. -/
def stop (served : Served) : Nat := takenBy served.after.calls

/-- The operation draws at most once, for the number of bytes that it needs. What it takes of the
stream are the bytes from `start` to `stop`, and they are the nonce of a token that it makes. -/
structure TakesBlock (stream : Bytes) (served : Served) : Prop where
  before_eq : served.before.entropy = stream.drop served.start
  after_eq : served.after.entropy = stream.drop served.stop
  stop_le : served.stop ≤ stream.length
  calls_eq : served.after.calls = served.before.calls ++ served.calls
  /-- a draw that fails takes nothing -/
  stop_eq : served.stop = served.start + takenBy served.calls
  drawOnce : DrawOnce served.size (stream.length - served.start) served.calls
  quiet : served.request.operation.isCheck ∨
    (∃ payload, served.request.operation = .sign payload 0) →
    served.calls.filter Call.isDraw = []
  nonce_iff : ∀ product, served.outcome = .ok product → 0 < served.size →
    served.stop = served.start + served.size ∧
      ∀ nonce, served.request.services.Shows nonce served.request.operation product ↔
        nonce = (stream.drop served.start).take served.size

end Served

/-- The requests one after the other, each from the ambient that the one before it left. -/
def serve : List Request → Ambient → List Served
  | [], _ => []
  | request :: requests, before =>
    let served : Served := ⟨request, before⟩
    served :: serve requests served.after

/-! ### Steps -/

namespace Served

variable {served : Served} {stream : Bytes}

theorem draws (served : Served) :
    Action.Draws served.size (served.request.services.perform served.request.operation) :=
  served.request.services.draws_perform served.request.operation

theorem calls_eq (served : Served) : served.after.calls = served.before.calls ++ served.calls := by
  obtain ⟨added, hadded, -⟩ := served.draws.exists_calls served.before
  rw [calls, after, hadded, List.drop_left]

theorem drawOnce_calls (served : Served) :
    DrawOnce served.size served.before.entropy.length served.calls := by
  obtain ⟨added, hadded, honce⟩ := served.draws.exists_calls served.before
  rw [calls, after, hadded, List.drop_left]
  exact honce

theorem stop_eq (served : Served) : served.stop = served.start + takenBy served.calls := by
  rw [stop, start, served.calls_eq, takenBy_append]

theorem start_le_stop (served : Served) : served.start ≤ served.stop := by
  rw [served.stop_eq]
  exact Nat.le_add_right _ _

theorem size_of_isCheck (served : Served) (h : served.request.operation.isCheck) :
    served.size = 0 := by
  unfold size
  cases hop : served.request.operation with
  | decode | decodeText | verify | validate => rfl
  | encode | encodeText | sign | issue => simp [hop, Operation.isCheck] at h

/-- Every request that is served along a stream takes a block of it. -/
theorem takesBlock (h : served.before.Along stream) : served.TakesBlock stream where
  before_eq := h.entropy_eq
  after_eq := (served.draws.along h).entropy_eq
  stop_le := (served.draws.along h).taken_le
  calls_eq := served.calls_eq
  stop_eq := served.stop_eq
  drawOnce := by
    have honce := served.drawOnce_calls
    rw [h.entropy_eq, List.length_drop] at honce
    exact honce
  quiet := by
    intro hquiet
    have hsize : served.size = 0 := by
      rcases hquiet with hcheck | ⟨payload, hsign⟩
      · exact served.size_of_isCheck hcheck
      · rw [size, hsign]
        rfl
    exact drawOnce_zero_iff.mp (hsize ▸ served.drawOnce_calls)
  nonce_iff := by
    intro product hproduct hsize
    have hshows := Services.perform_shows served.request.fromSystem hsize (Prod.ext hproduct rfl)
    rw [h.entropy_eq] at hshows
    exact hshows

end Served

/-! ### Whole runs -/

variable {served : Served} {stream : Bytes} {before : Ambient}

/-- Every request of a run that starts along a stream is served along it. -/
theorem along_serve (requests : List Request) (h : before.Along stream) :
    ∀ served ∈ serve requests before, served.before.Along stream := by
  induction requests generalizing before with
  | nil =>
    intro served hserved
    cases hserved
  | cons request requests ih =>
    intro served hserved
    rcases List.mem_cons.mp hserved with rfl | hlater
    · exact h
    · exact ih ((Served.mk request before).draws.along h) served hlater

/-- The random bytes taken before a run are taken before each of its requests. -/
theorem le_start_of_mem_serve {requests : List Request} (h : served ∈ serve requests before) :
    takenBy before.calls ≤ served.start := by
  induction requests generalizing before with
  | nil => cases h
  | cons request requests ih =>
    rcases List.mem_cons.mp h with rfl | hlater
    · exact Nat.le_refl _
    · exact Nat.le_trans (Served.mk request before).start_le_stop (ih hlater)

/-- The blocks of the requests of a run are one after the other. -/
theorem pairwise_serve (requests : List Request) (before : Ambient) :
    (serve requests before).Pairwise fun earlier later => earlier.stop ≤ later.start := by
  induction requests generalizing before with
  | nil => exact .nil
  | cons request requests ih =>
    exact .cons (fun later hlater => le_start_of_mem_serve hlater) (ih _)

/-- A run without its checks gives the other requests the same outcomes. -/
theorem outcomes_serve_filter (requests : List Request) {before' : Ambient}
    (h : before.entropy = before'.entropy) :
    ((serve requests before).filter fun served => !served.request.operation.isCheck).map
        Served.outcome =
      (serve (requests.filter fun request => !request.operation.isCheck) before').map
        Served.outcome := by
  induction requests generalizing before before' with
  | nil => rfl
  | cons request requests ih =>
    let served : Served := ⟨request, before⟩
    cases hcheck : request.operation.isCheck with
    | true =>
      have hquiet : Action.Draws 0 (request.services.perform request.operation) := by
        rw [← served.size_of_isCheck hcheck]
        exact served.draws
      have hleft : served.after.entropy = before'.entropy :=
        (hquiet.entropy_of_quiet before).trans h
      simpa [serve, hcheck] using ih hleft
    | false =>
      obtain ⟨hsame, hleft⟩ := served.draws.outcome_congr h
      have hrest := ih hleft
      simpa [serve, hcheck] using ⟨hsame, hrest⟩

/-- In every run each request takes a block of the random bytes, and the blocks are one after the
other. An operation draws at most once, the next bytes, or none if there are too few; checks and
unsalted signing draw nothing. The nonce of a token is the block of its operation, so no byte serves
two tokens. A run without its checks gives the other requests the same outcomes. -/
theorem nonces_never_reused (entropy : Bytes) (requests : List Request) :
    (∀ served ∈ serve requests (.fresh entropy), served.TakesBlock entropy) ∧
    (serve requests (.fresh entropy)).Pairwise (fun earlier later => earlier.stop ≤ later.start) ∧
    ((serve requests (.fresh entropy)).filter fun served => !served.request.operation.isCheck).map
        Served.outcome =
      (serve (requests.filter fun request => !request.operation.isCheck) (.fresh entropy)).map
        Served.outcome :=
  ⟨fun served hserved =>
    Served.takesBlock (along_serve requests (Ambient.along_fresh entropy) served hserved),
    pairwise_serve requests _, outcomes_serve_filter requests rfl⟩

-- of three signatures the second finds too few bytes, and takes none
example :
    let request (size : UInt8) : Request :=
      { κ := FixedKey
        services :=
          ⟨.error .authentication, .ok (.ofHash .sha256 ⟨[1, 2, 3], none⟩), .error .authentication⟩
        fromSystem := ⟨fun _ h => by cases h; rfl, nofun⟩
        operation := .sign [4] size }
    (serve [request 2, request 2, request 1] (.fresh [5, 6, 7])).map
      (fun served => (served.outcome.isOk, served.start, served.stop)) =
        [(true, 0, 2), (false, 2, 2), (true, 2, 3)] := by
  rfl

/-! ## Sessions as runs -/

/-- Services take their nonces from the system unless they are assembled with another source. -/
theorem Assembly.fromSystem (assembly : Assembly) (keys : Option κ)
    (h : ∀ overrides nonces, assembly = .custom overrides (some nonces) → nonces = .system) :
    (assembly.services keys).FromSystem := by
  have hsigner : ∀ signer, (assembly.services keys).signer = .ok signer →
      signer.nonces = .system := by
    intro signer hbuilt
    cases assembly with
    | configured | plain =>
      obtain ⟨keys, -, rfl⟩ := SignerSettings.build_eq_ok_iff.mp hbuilt
      rfl
    | custom overrides nonces =>
      obtain ⟨keys, -, rfl⟩ := SignerSettings.build_eq_ok_iff.mp hbuilt
      cases nonces with
      | none => rfl
      | some nonces => exact h overrides nonces rfl
  -- the token service has the nonces of the signer
  refine ⟨hsigner, fun csrf hbuilt => ?_⟩
  cases assembly with
  | configured config =>
    simp only [services, Config.csrf, bind_eq_ok_iff, Csrf.withNonceSize_eq_ok_iff] at hbuilt
    obtain ⟨-, -, signer, hmade, -, rfl⟩ := hbuilt
    exact hsigner signer hmade
  | plain config =>
    obtain ⟨signer, hmade, rfl⟩ := map_eq_ok_iff.mp hbuilt
    exact hsigner signer hmade
  | custom overrides nonces =>
    obtain ⟨signer, hmade, hcsrf⟩ := bind_eq_ok_iff.mp hbuilt
    dsimp only at hcsrf
    split at hcsrf
    · obtain ⟨-, rfl⟩ := Csrf.withNonceSize_eq_ok_iff.mp hcsrf
      exact hsigner signer hmade
    · cases hcsrf
      exact hsigner signer hmade

namespace Session

variable {session : Session} {before : Ambient}

/-- The request of an operation of a session. -/
def request (session : Session) (hsystem : session.services.FromSystem)
    (operation : Operation) : Request :=
  ⟨Source, session.services, hsystem, operation⟩

/-- An operation in a session is a request that finds the random bytes of the session. -/
theorem step_operation (hsystem : session.services.FromSystem) (operation : Operation)
    (h : before.entropy = session.entropy) :
    let served : Served := ⟨session.request hsystem operation, before⟩
    (session.step (.operation operation)).1 = { session with entropy := served.after.entropy } ∧
      (session.step (.operation operation)).2.outcome =
        (served.outcome.map .product).mapError .token ∧
      (session.step (.operation operation)).2.calls = served.calls := by
  intro served
  let run := (session.services.perform operation).run (.fresh session.entropy)
  have hstep : session.step (.operation operation) = ({ session with entropy := run.2.entropy },
      ⟨(run.1.map .product).mapError .token, run.2.calls, run.2.events⟩) := by
    simp only [step, action, Action.run_mapError, Action.run_map]
    rfl
  have hserved : (session.services.perform operation).run before =
      (run.1, before.append run.2) := by
    rw [(session.services.draws_perform operation).run_eq before, h]
  have hcalls : served.calls = run.2.calls := by
    show ((session.services.perform operation).run before).2.calls.drop before.calls.length = _
    rw [hserved]
    exact List.drop_left
  rw [hstep, hcalls]
  refine ⟨?_, ?_, rfl⟩
  · show _ = { session with entropy := ((session.services.perform operation).run before).2.entropy }
    rw [hserved]
    rfl
  · show _ = (((session.services.perform operation).run before).1.map Answer.product).mapError _
    rw [hserved]

/-- A session that performs operations has the outcomes and calls of `serve` on their requests. -/
theorem run_operations (hsystem : session.services.FromSystem) (operations : List Operation)
    (h : before.entropy = session.entropy) :
    (session.run (operations.map .operation)).map (fun report => (report.outcome, report.calls)) =
      (serve (operations.map (session.request hsystem)) before).map fun served =>
        ((served.outcome.map .product).mapError .token, served.calls) := by
  induction operations generalizing session before with
  | nil => rfl
  | cons operation operations ih =>
    let served : Served := ⟨session.request hsystem operation, before⟩
    let next : Session := { session with entropy := served.after.entropy }
    have hsystem' : next.services.FromSystem := hsystem
    have hleft : served.after.entropy = next.entropy := rfl
    obtain ⟨hnext, houtcome, hcalls⟩ := step_operation hsystem operation h
    simp only [List.map_cons, run, serve, houtcome, hcalls, hnext]
    congr 1
    exact ih hsystem' hleft

end Session

end SealedToken
