import SealedToken.Key.Fixed
import SealedToken.Key.ParameterStore
import SealedToken.Key.Ring
import SealedToken.Key.SecretStore
import SealedToken.Service.Operation

/-!
# Sessions

A session is a run of operations between which the key source changes: keys are rotated and revoked,
and stores get new contents. Its state is the key source and the random bytes that are left; a step
that fails does not end it.

* `Source`: a key source of any of the kinds here.
* `Step`: an operation, a question about the services or the keys, or a change of the key source.
* `Session.step`, `Session.run`: one step, and a list of them, with what each of them answers and
  leaves in the trace.
-/

namespace SealedToken

/-- A key source of any kind. -/
inductive Source where
  | fixed (source : FixedKey)
  | ring (keys : KeyRing)
  | broken (source : BrokenSource)
  | secretStore (store : SecretStore)
  | parameterStore (store : ParameterStore)

instance : KeySource Source where
  kind
    | .fixed source => KeySource.kind source
    | .ring source => KeySource.kind source
    | .broken source => KeySource.kind source
    | .secretStore source => KeySource.kind source
    | .parameterStore source => KeySource.kind source
  lookup
    | .fixed source => KeySource.lookup source
    | .ring source => KeySource.lookup source
    | .broken source => KeySource.lookup source
    | .secretStore source => KeySource.lookup source
    | .parameterStore source => KeySource.lookup source

/-! ## Steps -/

/-- New contents of a store. -/
inductive StoreTable where
  | secrets (table : SecretTable)
  | parameters (table : ParameterTable)

/-- A change of a key source. -/
inductive KeyChange where
  /-- a ring gets one more key, which becomes current -/
  | rotate (entry : VersionedKey)
  /-- a ring loses the keys of a version -/
  | revoke (version : Option KeyVersion)
  /-- a store gets new contents -/
  | refill (table : StoreTable)

/-- A step of a session. -/
inductive Step where
  | operation (operation : Operation)
  /-- asks the key source itself -/
  | resolve (version : Option KeyVersion)
  /-- asks for the settings that the services have -/
  | describe
  | change (change : KeyChange)

/-- The settings that the services have. -/
structure Description where
  cipher : CipherSuite
  encoding : TextForm
  hash : HashAlgorithm
  kind : KeyVersion.Kind
  signerKind : KeyVersion.Kind
  csrfEncoding : TextForm
  csrfNonceSize : UInt8
  csrfHash : HashAlgorithm
deriving DecidableEq, Repr

/-- The result of a step. -/
inductive Answer where
  | product (value : Product)
  | key (resolved : VersionedKey)
  /-- the settings, and the version of a fixed key if that is what the keys are -/
  | description (settings : Description) (fixedVersion : Option (Option KeyVersion))
  /-- the number of keys on a ring -/
  | keyCount (count : Nat)
  | done
deriving DecidableEq, Repr

/-- The failure of a step. -/
inductive StepError where
  | token (error : TokenError)
  | keySource (error : KeyError)
  /-- the key source has no such change -/
  | notSupported
deriving DecidableEq, Repr

/-- The outcome of a step, and its part of the trace. -/
structure Report where
  outcome : Except StepError Answer
  calls : List Call
  events : List Event

/-- The settings of services, the first of which that was not built is the failure. -/
def Services.describe {κ : Type} [KeySource κ] (services : Services κ) :
    Except TokenError Description := do
  let codec ← services.codec
  let signer ← services.signer
  let csrf ← services.csrf
  return {
    cipher := codec.suite
    encoding := codec.encoding
    hash := signer.hash
    kind := KeySource.kind codec.keys
    signerKind := KeySource.kind signer.keys
    csrfEncoding := csrf.encoding
    csrfNonceSize := csrf.nonceSize
    csrfHash := csrf.signer.hash }

/-- The version of a key that never changes. -/
def Source.fixedVersion? : Source → Option (Option KeyVersion)
  | .fixed source => some source.version
  | _ => none

/-- The key source after a change, and the answer; none if the source has no such change. -/
def Source.change? : Source → KeyChange → Option (Source × Answer)
  | .ring keys, .rotate entry =>
    let keys := keys.rotate entry
    some (.ring keys, .keyCount keys.entries.length)
  | .ring keys, .revoke version =>
    let keys := keys.revoke version
    some (.ring keys, .keyCount keys.entries.length)
  | .secretStore store, .refill (.secrets table) =>
    some (.secretStore { store with client := SecretTable.client table }, .done)
  | .parameterStore store, .refill (.parameters table) =>
    some (.parameterStore { store with client := ParameterTable.client table }, .done)
  | _, _ => none

/-! ## Runs -/

/-- The state of a session. -/
structure Session where
  /-- how services are built, anew for each step -/
  assembly : Assembly
  source : Option Source
  entropy : Bytes

namespace Session

/-- The services of the moment. -/
def services (session : Session) : Services Source := session.assembly.services session.source

/-- The action of a step that leaves the key source as it is. -/
def action (session : Session) : Step → Action StepError Answer
  | .operation operation => (.product <$> session.services.perform operation).mapError .token
  | .resolve version =>
    match session.source with
    | some source => (.key <$> KeySource.resolve source version).mapError .keySource
    | none => throw .notSupported
  | .describe =>
    let fixedVersion := session.source.bind Source.fixedVersion?
    Action.ofExcept ((session.services.describe.map (.description · fixedVersion)).mapError .token)
  | .change _ => throw .notSupported

/-- One step: the state after it, and its report. -/
def step (session : Session) (step : Step) : Session × Report :=
  let changed := match step with
    | .change change => session.source.bind (·.change? change)
    | _ => none
  match changed with
  | some (source, answer) => ({ session with source := some source }, ⟨.ok answer, [], []⟩)
  | none =>
    let (outcome, after) := (session.action step).run { entropy := session.entropy }
    ({ session with entropy := after.entropy }, ⟨outcome, after.calls, after.events⟩)

/-- The reports of a list of steps. -/
def run : Session → List Step → List Report
  | _, [] => []
  | session, step :: steps =>
    let (next, report) := session.step step
    report :: next.run steps

end Session

end SealedToken
