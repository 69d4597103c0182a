import Mathlib.Data.List.Forall2
import SealedToken.Proofs.Service.Log

/-!
# Logs hide secrets

Two runs of the same operations that are alike from outside, and in which each operation has the
same upshot, have the same log, whatever the plaintexts, payloads, session ids, nonces and keys are.

* `KeySource.Alike`: sources of one kind whose queries have the same names and whose keys have the
  same versions. `FixedKey.alike`, `KeyRing.alike`, `SecretStore.alike`, `ParameterStore.alike`: the
  alike sources of each type.
* `Services.Alike`: services with the same settings over such sources; `Assembly.alike_services`
  builds them.
* `Request.Alike`: operations of such services that differ only in bytes that are not visible.
* `Request.Alike.events_eq`, `events_serve_eq`: one step of two runs, and by induction two whole
  runs.
* `logs_hide_secrets`: this, and that failures are silent.
* `Session.events_run_operations`: the events of a session are those of a run.
-/

namespace SealedToken

/-! ## Alike key sources -/

/-- The queries ask for the same secret or parameter, and both or neither of them for a version. -/
def StoreQuery.SameName : StoreQuery → StoreQuery → Prop
  | .secret query, .secret query' =>
    query.secretId = query'.secretId ∧ query.versionId.isSome = query'.versionId.isSome
  | .parameter query, .parameter query' => query.name = query'.name
  | _, _ => False

theorem StoreQuery.SameName.event_eq {query query' : StoreQuery} (h : query.SameName query') :
    query.event = query'.event := by
  cases query with
  | secret query =>
    cases query' with
    | secret query' => exact congrArg₂ Event.fetchingSecret h.1 h.2
    | parameter query' => cases h
  | parameter query =>
    cases query' with
    | secret query' => cases h
    | parameter query' => exact congrArg Event.fetchingParameter h

section

variable {κ κ' : Type} [KeySource κ] [KeySource κ'] {keys : κ} {keys' : κ'}

/-- The sources declare the same kind, send queries for the same names, and give keys with the same
versions or fail for the same ones. The keys and the errors may differ. -/
structure KeySource.Alike (keys : κ) (keys' : κ') : Prop where
  kind_eq : kind keys = kind keys'
  queries : ∀ version,
    List.Forall₂ StoreQuery.SameName (lookup keys version).queries (lookup keys' version).queries
  versions : ∀ version, (lookup keys version).answer.toOption.map VersionedKey.version =
    (lookup keys' version).answer.toOption.map VersionedKey.version

namespace KeySource.Alike

theorem reports_eq (h : Alike keys keys') (version : Option KeyVersion) :
    reports keys version = reports keys' version := by
  have hevents := (h.queries version).imp fun _ _ hname => hname.event_eq
  exact List.forall₂_eq_eq_eq ▸ List.forall₂_map_left_iff.mpr
    (List.forall₂_map_right_iff.mpr hevents)

theorem currentVersion_eq (h : Alike keys keys') : currentVersion keys = currentVersion keys' := by
  have hversion := congrArg (Option.bind · id) (h.versions none)
  simpa only [currentVersion, Option.bind_map, Function.id_comp] using hversion

end KeySource.Alike

end

/-- Fixed keys with the same version are alike. -/
theorem FixedKey.alike (key key' : Bytes) (version : Option KeyVersion) :
    KeySource.Alike (FixedKey.mk key version) (FixedKey.mk key' version) where
  kind_eq := rfl
  queries _ := .nil
  versions asked := by
    cases asked with
    | none => rfl
    | some asked =>
      simp only [KeySource.lookup, answer]
      split <;> rfl

/-- Rings of the same kind, with the same versions in the same order and the same one current, are
alike. -/
theorem KeyRing.alike {ring ring' : KeyRing} (hkind : ring.kind = ring'.kind)
    (hversions : ring.entries.map VersionedKey.version = ring'.entries.map VersionedKey.version)
    (hcurrent : ring.current = ring'.current) : KeySource.Alike ring ring' where
  kind_eq := hkind
  queries _ := .nil
  versions asked := by
    have hentry : ∀ ring : KeyRing,
        (KeySource.lookup ring asked).answer.toOption = ring.entry? asked := by
      intro ring
      simp only [KeySource.lookup]
      cases ring.entry? asked <;> rfl
    rw [hentry, hentry]
    cases asked with
    | none => simp only [KeyRing.entry?, ← List.getElem?_map, hversions, hcurrent]
    | some version =>
      have hfind := congrArg (List.find? fun found => found = some version) hversions
      rwa [List.find?_map, List.find?_map] at hfind

/-- Sources of the same secret that find the same versions are alike. -/
theorem SecretStore.alike {store store' : SecretStore} (hid : store.secretId = store'.secretId)
    (hversions : ∀ id, (store.answer (store.query id)).toOption.map VersionedKey.version =
      (store'.answer (store'.query id)).toOption.map VersionedKey.version) :
        KeySource.Alike store store' where
  kind_eq := rfl
  queries
    | none | some (.label _) => .cons ⟨hid, rfl⟩ .nil
    | some (.number _) => .nil
  versions
    | none => hversions none
    | some (.label id) => hversions (some id)
    | some (.number _) => rfl

/-- Sources of the same parameter and label that find the same versions are alike. -/
theorem ParameterStore.alike {store store' : ParameterStore} (hname : store.name = store'.name)
    (hlabel : store.label = store'.label)
    (hversions : ∀ version, (store.fetch version).answer.toOption.map VersionedKey.version =
      (store'.fetch version).answer.toOption.map VersionedKey.version) :
        KeySource.Alike store store' where
  kind_eq := rfl
  queries version := by
    have hfull : ∀ version, store.fullName version = store'.fullName version := by
      intro version
      rw [fullName, fullName, hname, hlabel]
    cases version with
    | none => exact .cons (hfull 0) .nil
    | some version =>
      cases version with
      | number value => exact .cons (hfull value) .nil
      | label text => exact .nil
  versions
    | none => hversions 0
    | some (.number value) => hversions value
    | some (.label _) => rfl

/-! ## Alike services -/

section

variable {κ κ' : Type} [KeySource κ] [KeySource κ'] {keys : κ} {keys' : κ'}

/-- The codecs have the same suite, and their key sources are alike. -/
structure Codec.Alike (codec : Codec κ) (codec' : Codec κ') : Prop where
  suite_eq : codec.suite = codec'.suite
  keys : KeySource.Alike codec.keys codec'.keys

/-- The signers have one hash, and sources that look alike. -/
structure Signer.Alike (signer : Signer κ) (signer' : Signer κ') : Prop where
  hash_eq : signer.hash = signer'.hash
  keys : KeySource.Alike signer.keys signer'.keys

/-- The token services have the same nonce size, and their signers are alike. -/
structure Csrf.Alike (csrf : Csrf κ) (csrf' : Csrf κ') : Prop where
  nonceSize_eq : csrf.nonceSize = csrf'.nonceSize
  signer : csrf.signer.Alike csrf'.signer

/-- Both services were built and are alike, or none was. -/
inductive BuiltAlike {σ σ' : Type} (Alike : σ → σ' → Prop) :
    Except TokenError σ → Except TokenError σ' → Prop
  | built {service : σ} {service' : σ'} (alike : Alike service service') :
    BuiltAlike Alike (.ok service) (.ok service')
  | missing (e e' : TokenError) : BuiltAlike Alike (.error e) (.error e')

/-- The services of each kind are alike, or neither was built. -/
structure Services.Alike (services : Services κ) (services' : Services κ') : Prop where
  codec : BuiltAlike Codec.Alike services.codec services'.codec
  signer : BuiltAlike Signer.Alike services.signer services'.signer
  csrf : BuiltAlike Csrf.Alike services.csrf services'.csrf

/-! ### Logs of alike services -/

theorem Codec.Alike.encodeLog_eq {codec : Codec κ} {codec' : Codec κ'}
    (h : codec.Alike codec') (length : Nat) :
    codec.encodeLog length = codec'.encodeLog length := by
  funext upshot
  simp only [encodeLog, h.suite_eq, h.keys.reports_eq, h.keys.currentVersion_eq]

theorem Codec.Alike.decodeLog_eq {codec : Codec κ} {codec' : Codec κ'} (h : codec.Alike codec')
    (outline? : Option Outline) : codec.decodeLog outline? = codec'.decodeLog outline? := by
  funext upshot
  simp only [decodeLog, h.suite_eq, h.keys.reports_eq]

theorem Signer.Alike.signLog_eq {signer : Signer κ} {signer' : Signer κ'} (h : signer.Alike signer')
    (size : UInt8) : signer.signLog size = signer'.signLog size := by
  funext upshot
  simp only [signLog, h.hash_eq, h.keys.reports_eq, h.keys.currentVersion_eq]

theorem Signer.Alike.verifyLog_eq {signer : Signer κ} {signer' : Signer κ'}
    (h : signer.Alike signer')
    (outline? : Option Outline) : signer.verifyLog outline? = signer'.verifyLog outline? := by
  funext upshot
  simp only [verifyLog, h.hash_eq, h.keys.reports_eq]

namespace BuiltAlike

variable {σ σ' : Type} {Alike : σ → σ' → Prop} {service : Except TokenError σ}
  {service' : Except TokenError σ'}

theorem isOk_eq (h : BuiltAlike Alike service service') : service.isOk = service'.isOk := by
  cases h <;> rfl

theorem logOf_eq {log : σ → Upshot → List Event} {log' : σ' → Upshot → List Event}
    (h : BuiltAlike Alike service service')
    (hlog : ∀ built built', Alike built built' → log built = log' built') :
    Action.logOf service log = Action.logOf service' log' := by
  cases h with
  | built alike => exact hlog _ _ alike
  | missing => rfl

end BuiltAlike

namespace Services.Alike

variable {services : Services κ} {services' : Services κ'}

theorem has_eq (h : services.Alike services') (shape : Operation.Shape) :
    services.has shape = services'.has shape := by
  cases shape with
  | encode | decode | encodeText | decodeText => exact h.codec.isOk_eq
  | sign | verify => exact h.signer.isOk_eq
  | issue | validate => exact h.csrf.isOk_eq

theorem log_eq (h : services.Alike services') (shape : Operation.Shape)
    (outline? : Option Outline) :
    services.log shape outline? = services'.log shape outline? := by
  cases shape with
  | encode length | encodeText length =>
    exact h.codec.logOf_eq fun _ _ alike => alike.encodeLog_eq length
  | decode | decodeText => exact h.codec.logOf_eq fun _ _ alike => alike.decodeLog_eq outline?
  | sign size => exact h.signer.logOf_eq fun _ _ alike => alike.signLog_eq size
  | verify => exact h.signer.logOf_eq fun _ _ alike => alike.verifyLog_eq outline?
  | issue =>
    refine h.csrf.logOf_eq fun _ _ alike => ?_
    rw [alike.nonceSize_eq]
    exact alike.signer.signLog_eq _
  | validate => exact h.csrf.logOf_eq fun _ _ alike => alike.signer.verifyLog_eq outline?

end Services.Alike

/-! ### One configuration -/

theorem Csrf.Alike.withNonceSize {csrf : Csrf κ} {csrf' : Csrf κ'}
    (h : csrf.signer.Alike csrf'.signer) (size : UInt8) :
    BuiltAlike Csrf.Alike (csrf.withNonceSize size) (csrf'.withNonceSize size) := by
  unfold Csrf.withNonceSize
  split
  · exact .missing _ _
  · exact .built ⟨rfl, h⟩

/-- The same assembly over key sources that are alike builds services that are alike. -/
theorem Assembly.alike_services (assembly : Assembly) (h : KeySource.Alike keys keys') :
    (assembly.services (some keys)).Alike (assembly.services (some keys')) := by
  cases assembly with
  | configured config =>
    refine ⟨.built ⟨rfl, h⟩, .built ⟨rfl, h⟩, ?_⟩
    simp only [services, Config.csrf]
    cases config.validate with
    | error e => exact .missing _ _
    | ok valid =>
      refine Csrf.Alike.withNonceSize ?_ config.csrfNonceSize
      exact ⟨rfl, h⟩
  | plain config => exact ⟨.built ⟨rfl, h⟩, .built ⟨rfl, h⟩, .built ⟨rfl, ⟨rfl, h⟩⟩⟩
  | custom overrides nonces =>
    refine ⟨.built ⟨rfl, h⟩, .built ⟨rfl, h⟩, ?_⟩
    cases hsize : overrides.csrfNonceSize with
    | none =>
      simp only [services, hsize]
      exact .built ⟨rfl, ⟨rfl, h⟩⟩
    | some size =>
      simp only [services, hsize]
      refine Csrf.Alike.withNonceSize ?_ size
      exact ⟨rfl, h⟩

end

/-! ## Alike runs -/

/-- The operations have the same shape, and the services are alike. If both operations read a token
that is an envelope, the tokens have the same outline. -/
structure Request.Alike (request request' : Request) : Prop where
  services : request.services.Alike request'.services
  shape_eq : request.operation.shape = request'.operation.shape
  outline_eq : ∀ outline outline', request.services.outline? request.operation = some outline →
    request'.services.outline? request'.operation = some outline' → outline = outline'

namespace Served

/-- The upshot of the operation of the request. -/
def upshot (served : Served) : Upshot := .of Product.upshot served.outcome

/-- What was reported of it. -/
def events (served : Served) : List Event := served.after.events.drop served.before.events.length

theorem events_eq_log (served : Served) :
    served.events = served.request.services.log served.request.operation.shape
      (served.request.services.outline? served.request.operation) served.upshot := by
  rw [events, after, Services.logs_perform served.request.fromSystem, List.drop_left]
  rfl

theorem outline?_eq_none_iff (served : Served) :
    served.request.services.outline? served.request.operation = none ↔
      (served.request.operation.shape.isRead →
        served.request.services.has served.request.operation.shape →
        served.upshot.isUnread) :=
  served.request.services.outline?_eq_none_iff served.request.operation served.before

/-- The operation failed, and it did not open a token that failed with `authentication`. -/
def Fails (served : Served) : Prop :=
  ∃ e, served.outcome = .error e ∧ (served.request.operation.shape.isDecode → e ≠ .authentication)

theorem ofService_of_fails {served : Served} {event : Event} (h : served.Fails)
    (hevent : event ∈ served.events) :
    event.ofService = false := by
  obtain ⟨e, houtcome, he⟩ := h
  have hupshot : served.upshot = .failed e.kind := by
    rw [upshot, houtcome]
    rfl
  rw [events_eq_log, hupshot] at hevent
  refine Services.ofService_of_mem_log (fun hdecode hkind => ?_) hevent
  exact he hdecode (TokenError.kind_eq_authentication_iff.mp hkind)

end Served

section

variable {request request' : Request} {before before' : Ambient}

/-- Requests that are alike and have the same upshot read tokens with the same outline, or none. -/
theorem Request.Alike.outline?_eq (h : request.Alike request')
    (hupshot : (Served.mk request before).upshot = (Served.mk request' before').upshot) :
    request.services.outline? request.operation =
      request'.services.outline? request'.operation := by
  -- how an operation ends tells whether it read its token
  have hiff : request.services.outline? request.operation = none ↔
      request'.services.outline? request'.operation = none := by
    rw [(Served.mk request before).outline?_eq_none_iff,
      (Served.mk request' before').outline?_eq_none_iff, hupshot, h.shape_eq, h.services.has_eq]
  cases houtline : request.services.outline? request.operation with
  | none => exact (hiff.mp houtline).symm
  | some outline =>
    cases houtline' : request'.services.outline? request'.operation with
    | none => exact absurd (hiff.mpr houtline') (by simp [houtline])
    | some outline' => exact congrArg some (h.outline_eq outline outline' houtline houtline')

/-- Requests that are alike and have the same upshot append the same events. -/
theorem Request.Alike.events_eq (h : request.Alike request')
    (hupshot : (Served.mk request before).upshot = (Served.mk request' before').upshot) :
    (Served.mk request before).events = (Served.mk request' before').events := by
  rw [Served.events_eq_log, Served.events_eq_log, hupshot, h.outline?_eq hupshot,
    h.shape_eq, h.services.log_eq]

end

/-- Runs of requests that are alike, with the same upshots, append the same events, whatever the
random bytes. -/
theorem events_serve_eq {requests requests' : List Request}
    (h : List.Forall₂ Request.Alike requests requests')
    {before before' : Ambient}
    (hupshots : (serve requests before).map Served.upshot =
      (serve requests' before').map Served.upshot) :
    (serve requests before).map Served.events = (serve requests' before').map Served.events := by
  induction h generalizing before before' with
  | nil => rfl
  | cons halike _ ih =>
    simp only [serve, List.map_cons, List.cons.injEq] at hupshots ⊢
    obtain ⟨hupshot, hlater⟩ := hupshots
    exact ⟨halike.events_eq hupshot, ih hlater⟩

/-- Two runs of requests that are alike, with the same upshots, append the same events, whatever
their keys, plaintexts, payloads and random bytes. An operation that fails appends no events but
those of queries to a store, unless it opens a token and fails with `authentication`. -/
theorem logs_hide_secrets :
    (∀ (requests requests' : List Request) (before before' : Ambient),
      List.Forall₂ Request.Alike requests requests' →
      (serve requests before).map Served.upshot = (serve requests' before').map Served.upshot →
      (serve requests before).map Served.events = (serve requests' before').map Served.events) ∧
    ∀ served : Served, served.Fails → ∀ event ∈ served.events, event.ofService = false :=
  ⟨fun _ _ _ _ halike hupshots => events_serve_eq halike hupshots,
    fun _ hfails _ hevent => Served.ofService_of_fails hfails hevent⟩

/-- A store with one secret, which is the given key. -/
def oneSecret (key : Bytes) : SecretStore :=
  { client := fun _ => .ok ⟨some key, none, some "v1"⟩, secretId := "app/key" }

/-- An operation under a key in a store. -/
def storedKeyRequest (key : Bytes) (operation : Operation) : Request where
  κ := SecretStore
  services := (Assembly.plain {}).services (some (oneSecret key))
  fromSystem := (Assembly.plain {}).fromSystem (some (oneSecret key)) nofun
  operation

/-- A signature and an encrypted token under the given key. -/
def storedKeyRequests (key payload plaintext : Bytes) : List Request :=
  [storedKeyRequest key (.sign payload 2), storedKeyRequest key (.encode plaintext)]

/-- Two runs over different keys, both of which are too short for the cipher, have one log. -/
theorem logs_hide_secrets_of_stored_keys :
    (serve (storedKeyRequests [1, 2, 3] [4] [5, 6]) (.fresh [7, 8])).map Served.events =
      [[.fetchingSecret "app/key" false, .payloadSigned .sha256 true 2],
        [.fetchingSecret "app/key" false]] ∧
    (serve (storedKeyRequests [1, 2, 3] [4] [5, 6]) (.fresh [7, 8])).map Served.events =
      (serve (storedKeyRequests [9] [] [10, 11]) (.fresh [12, 13])).map Served.events ∧
    ∀ event ∈ (Served.mk (storedKeyRequest [9] (.encode [10, 11])) (.fresh [])).events,
      event.ofService = false := by
  have hkeys : KeySource.Alike (oneSecret [1, 2, 3]) (oneSecret [9]) :=
    SecretStore.alike rfl fun _ => rfl
  have hservices := Assembly.alike_services (.plain {}) hkeys
  have hrequests : List.Forall₂ Request.Alike (storedKeyRequests [1, 2, 3] [4] [5, 6])
      (storedKeyRequests [9] [] [10, 11]) :=
    .cons ⟨hservices, rfl, nofun⟩ (.cons ⟨hservices, rfl, nofun⟩ .nil)
  have hupshots :
    (serve (storedKeyRequests [1, 2, 3] [4] [5, 6]) (.fresh [7, 8])).map Served.upshot =
      [.made, .failed .configuration] := rfl
  have hupshots' : (serve (storedKeyRequests [9] [] [10, 11]) (.fresh [12, 13])).map Served.upshot =
      [.made, .failed .configuration] := rfl
  refine ⟨rfl, logs_hide_secrets.1 _ _ _ _ hrequests (hupshots.trans hupshots'.symm), ?_⟩
  exact logs_hide_secrets.2 _ ⟨_, rfl, nofun⟩

/-! ## Sessions -/

namespace Session

variable {session : Session} {before : Ambient}

/-- A session that performs an operation has the events of its request. -/
theorem events_step_operation (hsystem : session.services.FromSystem) (operation : Operation)
    (h : before.entropy = session.entropy) :
    (session.step (.operation operation)).2.events =
      (Served.mk (session.request hsystem operation) before).events := by
  let run := (session.services.perform operation).run (.fresh session.entropy)
  have hstep : (session.step (.operation operation)).2.events = run.2.events := by
    simp only [step, action, Action.run_mapError, Action.run_map]
    rfl
  have hserved : (session.services.perform operation).run before =
      (run.1, before.append run.2) := by
    rw [(session.services.draws_perform operation).run_eq before, h]
  have hevents : ((session.services.perform operation).run before).2.events =
      before.events ++ run.2.events := by
    rw [hserved]
    rfl
  rw [hstep]
  show _ = ((session.services.perform operation).run before).2.events.drop before.events.length
  rw [hevents, List.drop_left]

/-- A session that performs operations has the events of `serve` on their requests. -/
theorem events_run_operations (hsystem : session.services.FromSystem) (operations : List Operation)
    (h : before.entropy = session.entropy) :
    (session.run (operations.map .operation)).map Report.events =
      (serve (operations.map (session.request hsystem)) before).map Served.events := by
  induction operations generalizing session before with
  | nil => rfl
  | cons operation operations ih =>
    let served : Served := ⟨session.request hsystem operation, before⟩
    let next : Session := { session with entropy := served.after.entropy }
    have hsystem' : next.services.FromSystem := hsystem
    have hleft : served.after.entropy = next.entropy := rfl
    have hnext : (session.step (.operation operation)).1 = next :=
      (step_operation hsystem operation h).1
    simp only [List.map_cons, run, serve, events_step_operation hsystem operation h, hnext]
    congr 1
    exact ih hsystem' hleft

end Session

end SealedToken
