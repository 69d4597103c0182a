import Mathlib.Data.List.Nodup
import Mathlib.Logic.Relation
import SealedToken.Key.SecretStore
import SealedToken.Proofs.Service.Codec
import SealedToken.Proofs.Service.Signer

/-!
# Keys of a secret store after a rotation

A secret store keeps all versions of a secret and lets stages point to them. To a query with a
version and a stage it answers only while the stage is at the version. A source with a stage names
it in every query, and so loses a version as soon as the stage has moved on.

* `SecretHistory`: a secret at one moment; `SecretHistory.Becomes`: at a later one.
* `SecretHistory.AnsweredBy`: the client answers from the history.
* `SecretHistory.version?_of_becomes`: versions are kept.
* `SecretStore.answer_eq_ok_iff`: the answer to a query is that of the requested version.
* `SecretStore.Pins`: the source's stage, if it has one, is still at the version.
* `SecretStore.keeps_iff_pins`: an earlier key is found again, and its tokens are read, exactly if
  `Pins` holds. Without a stage the contract of key sources holds; with one it does not:
  `SecretStore.not_kept_after_rotation`.
-/

namespace SealedToken

/-! ## Histories -/

/-- One version of a secret, with the id that the store gave it. -/
structure SecretVersion where
  id : String
  binary : Option Bytes
  string : Option String
deriving DecidableEq, Repr

/-- The answer of a store to a query for this version. -/
def SecretVersion.answer (version : SecretVersion) : SecretAnswer :=
  ⟨version.binary, version.string, some version.id⟩

/-- The versions of a secret, the newest last, and for each stage the id of the version that it is
attached to. -/
structure SecretHistory where
  versions : List SecretVersion
  staged? : String → Option String
  nodup_ids : (versions.map SecretVersion.id).Nodup

namespace SecretHistory

variable {history later : SecretHistory} {id : String} {version : SecretVersion}

/-- The version with the given id. -/
def version? (history : SecretHistory) (id : String) : Option SecretVersion :=
  history.versions.find? fun version => version.id = id

/-- The history with one more version, to which the given stages are attached. -/
def add (history : SecretHistory) (version : SecretVersion)
    (fresh : version.id ∉ history.versions.map SecretVersion.id) (stages : List String) :
    SecretHistory where
  versions := history.versions ++ [version]
  staged? stage := if stage ∈ stages then some version.id else history.staged? stage
  nodup_ids := by
    rw [List.map_append, List.map_singleton, List.nodup_append]
    refine ⟨history.nodup_ids, List.nodup_singleton _, ?_⟩
    rintro id hid _ hnew rfl
    exact fresh (List.mem_singleton.mp hnew ▸ hid)

/-- One change of a secret. -/
inductive Step : SecretHistory → SecretHistory → Prop where
  /-- a version is added, and some stages move to it -/
  | add (history : SecretHistory) (version : SecretVersion)
    (fresh : version.id ∉ history.versions.map SecretVersion.id) (stages : List String) :
    Step history (history.add version fresh stages)
  /-- stages move to other versions, or are taken away -/
  | restage (history : SecretHistory) (staged? : String → Option String) :
    Step history { history with staged? }

/-- `history.Becomes later`: any number of steps lead from `history` to `later`. -/
def Becomes : SecretHistory → SecretHistory → Prop := Relation.ReflTransGen Step

theorem id_of_version? (h : history.version? id = some version) : version.id = id := by
  simpa using List.find?_some h

theorem version?_of_mem (h : version ∈ history.versions) :
    history.version? version.id = some version := by
  have hnodup := history.nodup_ids
  rw [version?]
  generalize history.versions = versions at h hnodup
  induction versions with
  | nil => cases h
  | cons first rest ih =>
    rw [List.map_cons, List.nodup_cons] at hnodup
    rcases List.mem_cons.mp h with rfl | hrest
    · exact List.find?_cons_of_pos (by simp)
    · have hne : first.id ≠ version.id := fun he => hnodup.1 (he ▸ List.mem_map_of_mem hrest)
      rw [List.find?_cons_of_neg (by simpa using hne)]
      exact ih hrest hnodup.2

theorem version?_of_step (hstep : Step history later) (h : history.version? id = some version) :
    later.version? id = some version := by
  cases hstep with
  | add new fresh stages =>
    rw [version?] at h ⊢
    rw [add, List.find?_append, h, Option.some_or]
  | restage => exact h

/-- An id keeps its version through all steps. -/
theorem version?_of_becomes (hrun : history.Becomes later)
    (h : history.version? id = some version) :
    later.version? id = some version := by
  induction hrun with
  | refl => exact h
  | tail _ hstep ih => exact version?_of_step hstep ih

/-! ## Stores -/

/-- The version that a query asks for: with an id, the version of that id, if the stage of the query
is attached to it; with a stage alone, the version that it is attached to; with neither, the newest
version. -/
def requested? (history : SecretHistory) : (versionId stage : Option String) → Option SecretVersion
  | none, none => history.versions.getLast?
  | none, some stage => (history.staged? stage).bind history.version?
  | some id, none => history.version? id
  | some id, some stage => if history.staged? stage = some id then history.version? id else none

/-- The client of the source answers each query for the secret with the version that `requested?`
gives, and fails if that gives none. -/
def AnsweredBy (history : SecretHistory) (store : SecretStore) : Prop :=
  ∀ versionId stage answer, store.client ⟨store.secretId, versionId, stage⟩ = .ok answer ↔
    ∃ version, history.requested? versionId stage = some version ∧ version.answer = answer

/-- A client that answers queries with the version that `requested?` gives. -/
def client (history : SecretHistory) (query : SecretQuery) : Except KeyError SecretAnswer :=
  match history.requested? query.versionId query.versionStage with
  | some version => .ok version.answer
  | none => .error (.plain "secret not found")

theorem answeredBy_of_client {store : SecretStore} (h : store.client = history.client) :
    history.AnsweredBy store := by
  intro versionId stage answer
  rw [h, client]
  cases history.requested? versionId stage <;> simp

/-- The version that a query without an id asks for is found under its own id. -/
theorem version?_of_requested? {stage : Option String}
    (h : history.requested? none stage = some version) :
    history.version? version.id = some version := by
  cases stage with
  | none => exact version?_of_mem (List.mem_of_getLast? h)
  | some stage =>
    obtain ⟨id, -, hid⟩ := Option.bind_eq_some_iff.mp h
    rw [id_of_version? hid]
    exact hid

end SecretHistory

/-! ## Sources -/

namespace SecretStore

variable {store : SecretStore} {client : SecretQuery → Except KeyError SecretAnswer}
  {history later : SecretHistory} {key : Bytes} {id : String} {resolved : VersionedKey}

/-- The source with another client for the same secret. -/
def withClient (store : SecretStore) (client : SecretQuery → Except KeyError SecretAnswer) :
    SecretStore :=
  { store with client }

/-- `fetch` gives the key and the id of the version that its query asks for. -/
theorem answer_eq_ok_iff (h : history.AnsweredBy store) (versionId : Option String) :
    (store.fetch versionId).answer = .ok resolved ↔
      ∃ version, history.requested? versionId store.versionStage = some version ∧
        ∃ key, store.keyBytes version.answer = .ok key ∧
          resolved = ⟨key, some (.label version.id)⟩ := by
  simp only [fetch, answer, query, bind_eq_ok_iff, pure_eq_ok_iff, h versionId store.versionStage]
  constructor
  · rintro ⟨_, ⟨version, hversion, rfl⟩, key, hkey, rfl⟩
    exact ⟨version, hversion, key, hkey, rfl⟩
  · rintro ⟨version, hversion, key, hkey, rfl⟩
    exact ⟨_, ⟨version, hversion, rfl⟩, key, hkey, rfl⟩

/-- The stage that the source names in its queries, if any, is attached to the version `id`. -/
def Pins (store : SecretStore) (history : SecretHistory) (id : String) : Prop :=
  ∀ stage ∈ store.versionStage, history.staged? stage = some id

/-- A source without a stage pins every version. -/
theorem pins_of_unstaged (h : store.versionStage = none) : store.Pins history id := by
  rw [Pins, h]
  exact nofun

theorem requested?_of_pins (h : store.Pins history id) :
    history.requested? (some id) store.versionStage = history.version? id := by
  unfold Pins at h
  cases hstage : store.versionStage with
  | none => rfl
  | some stage => exact if_pos (h stage hstage)

theorem pins_of_requested? {version : SecretVersion}
    (h : history.requested? (some id) store.versionStage = some version) :
    store.Pins history id := by
  intro stage hstage
  rw [Option.mem_def.mp hstage, SecretHistory.requested?] at h
  by_cases hat : history.staged? stage = some id
  · exact hat
  · rw [if_neg hat] at h
    cases h

theorem pins_of_lookup (hlater : later.AnsweredBy (store.withClient client))
    (h : (KeySource.lookup (store.withClient client) (some (.label id))).answer = .ok resolved) :
    store.Pins later id := by
  obtain ⟨version, hversion, -⟩ := (answer_eq_ok_iff hlater (some id)).mp h
  exact pins_of_requested? hversion

/-- A rotation that moves the stage of the source unpins every version that was there before. -/
theorem not_pins_add {version kept : SecretVersion} {fresh} {stages : List String} {stage : String}
    (hkept : history.version? id = some kept) (hstage : stage ∈ store.versionStage)
    (hmoves : stage ∈ stages) :
    ¬ store.Pins (history.add version fresh stages) id := by
  intro hpins
  have hat : (if stage ∈ stages then some version.id else history.staged? stage) = some id :=
    hpins stage hstage
  rw [if_pos hmoves] at hat
  refine fresh (List.mem_map.mpr ⟨kept, List.mem_of_find?_eq_some hkept, ?_⟩)
  rw [SecretHistory.id_of_version? hkept, Option.some.inj hat]

/-! ## The key of an earlier moment -/

section

variable (hnow : history.AnsweredBy store) (hrun : history.Becomes later)
  (hlater : later.AnsweredBy (store.withClient client))
  (hcurrent : (KeySource.lookup store none).answer = .ok ⟨key, some (.label id)⟩)

include hnow hrun hcurrent

/-- The id under which `lookup` gave the current key has a version with that key in every later
history. -/
theorem exists_version_of_current :
    ∃ version, later.version? id = some version ∧ version.id = id ∧
      store.keyBytes version.answer = .ok key := by
  obtain ⟨version, hversion, _, hkey, he⟩ := (answer_eq_ok_iff hnow none).mp hcurrent
  cases he
  exact ⟨version,
    SecretHistory.version?_of_becomes hrun (SecretHistory.version?_of_requested? hversion),
    rfl, hkey⟩

theorem not_pins_after_rotation {version : SecretVersion} {fresh} {stages : List String}
    (hmoves : ∃ stage ∈ store.versionStage, stage ∈ stages) :
    ¬ store.Pins (later.add version fresh stages) id := by
  obtain ⟨kept, hkept, -⟩ := exists_version_of_current hnow hrun hcurrent
  obtain ⟨stage, hstage, hmoves⟩ := hmoves
  exact not_pins_add hkept hstage hmoves

include hlater

/-- `lookup` of the id gives the key again exactly if the source pins the id. -/
theorem lookup_eq_ok_iff_pins :
    (KeySource.lookup (store.withClient client) (some (.label id))).answer =
      .ok ⟨key, some (.label id)⟩ ↔
      store.Pins later id := by
  constructor
  · intro h
    exact pins_of_lookup hlater h
  · intro hpins
    obtain ⟨version, hkept, rfl, hkey⟩ := exists_version_of_current hnow hrun hcurrent
    exact (answer_eq_ok_iff hlater (some version.id)).mpr
      ⟨version, (requested?_of_pins hpins).trans hkept, key, hkey, rfl⟩

theorem lookup_eq_error_iff_pins :
    (∃ e, (KeySource.lookup (store.withClient client) (some (.label id))).answer = .error e) ↔
      ¬ store.Pins later id := by
  rw [← lookup_eq_ok_iff_pins hnow hrun hlater hcurrent]
  cases hanswer : (KeySource.lookup (store.withClient client) (some (.label id))).answer with
  | error e => simp
  | ok found =>
    have hpins : store.Pins later id := pins_of_lookup hlater hanswer
    rw [← hanswer, (lookup_eq_ok_iff_pins hnow hrun hlater hcurrent).mpr hpins]
    simp

/-- An action that looks the id up and succeeds with the key succeeds exactly if the source
pins the id. -/
theorem bind_eq_ok_iff_pins {α : Type} {read : VersionedKey → Except TokenError α} {value : α}
    (h : read ⟨key, some (.label id)⟩ = .ok value) :
    ((KeySource.lookup (store.withClient client) (some (.label id))).answer.mapError .transport >>=
      read) =
      .ok value ↔ store.Pins later id := by
  constructor
  · intro hread
    obtain ⟨found, hanswer, -⟩ := bind_eq_ok_iff.mp hread
    exact pins_of_lookup hlater (mapError_eq_ok_iff.mp hanswer)
  · intro hpins
    rw [(lookup_eq_ok_iff_pins hnow hrun hlater hcurrent).mpr hpins]
    exact h

theorem decode_eq_ok_iff_pins {suite : CipherSuite} {form : TextForm} {plaintext bytes : Bytes}
    {before after : Ambient}
    (hmade : (Codec.encode ⟨suite, form, store⟩ plaintext).run before = (.ok bytes, after))
    (ambient : Ambient) :
    ((Codec.decode ⟨suite, form, store.withClient client⟩ bytes).run ambient).1 = .ok plaintext ↔
      store.Pins later id := by
  have hkind : KeySource.kind (store.withClient client) = KeySource.kind store := rfl
  obtain ⟨payload, hopens, houtcome⟩ := Codec.outcome_decode_of_encode hmade hcurrent hkind
  refine (Eq.congr_left (houtcome ambient)).trans (bind_eq_ok_iff_pins hnow hrun hlater hcurrent ?_)
  rw [hopens]
  rfl

theorem verify_eq_true_iff_pins {hash : HashAlgorithm} {nonces : NonceSource}
    {payload signature : Bytes} {size : UInt8} {before after : Ambient}
    (hmade : (Signer.sign ⟨hash, store, nonces⟩ payload size).run before = (.ok signature, after))
    (ambient : Ambient) :
    ((Signer.verify ⟨hash, store.withClient client, nonces⟩ signature payload).run ambient).1 =
      .ok true ↔
      store.Pins later id := by
  have hkind : ∀ version ∈ some (KeyVersion.label id),
      version.kind = KeySource.kind (store.withClient client) := by
    rintro _ ⟨⟩
    rfl
  obtain ⟨nonce, houtcome⟩ := Signer.outcome_verify_of_sign hmade hcurrent hkind
  refine (Eq.congr_left (houtcome ambient)).trans (bind_eq_ok_iff_pins hnow hrun hlater hcurrent ?_)
  rw [HashAlgorithm.checkMac, beq_self_eq_true]
  rfl

end

/-- A key that was current is found again under its id, and an envelope made with it is read,
exactly if the source pins the id. A source without a stage always does. A source with a stage does
not after a rotation that moves its stage: then `lookup` fails. -/
theorem keeps_iff_pins (hnow : history.AnsweredBy store) (hrun : history.Becomes later)
    (hlater : later.AnsweredBy (store.withClient client))
    (hcurrent : (KeySource.lookup store none).answer = .ok ⟨key, some (.label id)⟩) :
    ((KeySource.lookup (store.withClient client) (some (.label id))).answer =
      .ok ⟨key, some (.label id)⟩ ↔
      store.Pins later id) ∧
    ((∃ e, (KeySource.lookup (store.withClient client) (some (.label id))).answer = .error e) ↔
      ¬ store.Pins later id) ∧
    (∀ suite form plaintext bytes before after ambient,
      (Codec.encode ⟨suite, form, store⟩ plaintext).run before = (.ok bytes, after) →
        (((Codec.decode ⟨suite, form, store.withClient client⟩ bytes).run ambient).1 =
          .ok plaintext ↔
          store.Pins later id)) ∧
    (∀ hash nonces payload size signature before after ambient,
      (Signer.sign ⟨hash, store, nonces⟩ payload size).run before = (.ok signature, after) →
        (((Signer.verify ⟨hash, store.withClient client, nonces⟩ signature payload).run ambient).1 =
          .ok true ↔
          store.Pins later id)) ∧
    (store.versionStage = none → store.Pins later id) ∧
    ∀ version fresh stages, (∃ stage ∈ store.versionStage, stage ∈ stages) →
      ¬ store.Pins (later.add version fresh stages) id := by
  refine ⟨lookup_eq_ok_iff_pins hnow hrun hlater hcurrent,
    lookup_eq_error_iff_pins hnow hrun hlater hcurrent, ?decoded, ?verified,
    pins_of_unstaged, ?rotated⟩
  case decoded =>
    intro suite form plaintext bytes before after ambient hmade
    exact decode_eq_ok_iff_pins hnow hrun hlater hcurrent hmade ambient
  case verified =>
    intro hash nonces payload size signature before after ambient hmade
    exact verify_eq_true_iff_pins hnow hrun hlater hcurrent hmade ambient
  case rotated =>
    intro version fresh stages hmoves
    exact not_pins_after_rotation hnow hrun hcurrent hmoves

end SecretStore

/-! ## One rotation -/

namespace SecretHistory

/-- A secret with one version, at which the stage `current` is. -/
def first : SecretHistory :=
  add ⟨[], fun _ => none, List.nodup_nil⟩ ⟨"a", some [1], none⟩ nofun ["current"]

/-- The same secret after a rotation that moved the stage `current` to a second version. -/
def rotated : SecretHistory := first.add ⟨"b", some [2], none⟩ (by decide) ["current"]

theorem first_becomes_rotated : first.Becomes rotated :=
  Relation.ReflTransGen.single (.add first ⟨"b", some [2], none⟩ (by decide) ["current"])

end SecretHistory

namespace SecretStore

open SecretHistory

/-- A source of this secret, with or without a stage. -/
def ofFirst (stage : Option String) : SecretStore := ⟨first.client, "key", stage, .raw⟩

/-- A source with the stage `current` does not find the first version after the rotation. -/
theorem not_kept_after_rotation :
    first.AnsweredBy (ofFirst (some "current")) ∧
    first.Becomes rotated ∧
    rotated.AnsweredBy ((ofFirst (some "current")).withClient rotated.client) ∧
    (KeySource.lookup (ofFirst (some "current")) none).answer = .ok ⟨[1], some (.label "a")⟩ ∧
    (KeySource.lookup ((ofFirst (some "current")).withClient rotated.client)
      (some (.label "a"))).answer =
      .error (.plain "secret not found") :=
  ⟨answeredBy_of_client rfl, first_becomes_rotated, answeredBy_of_client rfl, rfl, rfl⟩

/-- A source without a stage finds the first version after the rotation. -/
theorem kept_after_rotation :
    (KeySource.lookup ((ofFirst none).withClient rotated.client) (some (.label "a"))).answer =
      .ok ⟨[1], some (.label "a")⟩ := by
  have hkept :=
    keeps_iff_pins (answeredBy_of_client rfl) first_becomes_rotated (answeredBy_of_client rfl)
    (show (KeySource.lookup (ofFirst none) none).answer = .ok ⟨[1], some (.label "a")⟩ from rfl)
  exact hkept.1.mpr (pins_of_unstaged rfl)

end SecretStore

end SealedToken
