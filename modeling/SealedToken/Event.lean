import SealedToken.Cipher.Suite
import SealedToken.Hash.Algorithm
import SealedToken.Key.Query

/-!
# Diagnostic events

* `Event`: what services and key sources report while they work. No event holds secrets.
* `Event.level`, `Event.message`, `Event.fields`: an event as a log line.
* `StoreQuery.event`: the event of a query.
-/

namespace SealedToken

/-- The importance of an event. -/
inductive Level where
  | debug
  | trace
deriving DecidableEq, Repr

/-- The value of a field of a log line. -/
inductive FieldValue where
  | text (value : String)
  | flag (value : Bool)
  | count (value : Nat)
deriving DecidableEq, Repr

/-- The events that services and key sources report. -/
inductive Event where
  | envelopeSealed (suite : CipherSuite) (versioned : Bool) (envelopeLength : Nat)
  | envelopeOpened (suite : CipherSuite) (versioned : Bool) (envelopeLength : Nat)
  | authenticationFailed (versioned : Bool)
  | payloadSigned (hash : HashAlgorithm) (versioned : Bool) (nonceLength : Nat)
  | signatureChecked (hash : HashAlgorithm) (versioned salted genuine : Bool)
  | fetchingSecret (secretId : String) (pinned : Bool)
  | fetchingParameter (name : String)
deriving DecidableEq, Repr

namespace Event

/-- Queries are reported at the lower level. -/
def level : Event → Level
  | fetchingSecret .. | fetchingParameter .. => .trace
  | _ => .debug

/-- The message of the log line. -/
def message : Event → String
  | envelopeSealed .. => "envelope sealed"
  | envelopeOpened .. => "envelope opened"
  | authenticationFailed .. => "authentication failed"
  | payloadSigned .. => "payload signed"
  | signatureChecked .. => "signature checked"
  | fetchingSecret .. => "fetching secret"
  | fetchingParameter .. => "fetching parameter"

/-- The fields of the log line. -/
def fields : Event → List (String × FieldValue)
  | envelopeSealed suite versioned length =>
    [("op", .text "encode"), ("cipher", .text (Choice.title suite)), ("versioned", .flag versioned),
      ("envelope_len", .count length)]
  | envelopeOpened suite versioned length =>
    [("op", .text "decode"), ("cipher", .text (Choice.title suite)), ("versioned", .flag versioned),
      ("envelope_len", .count length)]
  | authenticationFailed versioned => [("op", .text "decode"), ("versioned", .flag versioned)]
  | payloadSigned hash versioned length =>
    [("op", .text "sign"), ("hash", .text (Choice.title hash)), ("versioned", .flag versioned),
      ("nonce_len", .count length)]
  | signatureChecked hash versioned salted genuine =>
    [("op", .text "verify"), ("hash", .text (Choice.title hash)), ("versioned", .flag versioned),
      ("salted", .flag salted), ("ok", .flag genuine)]
  | fetchingSecret secretId pinned => [("secret_id", .text secretId), ("pinned", .flag pinned)]
  | fetchingParameter name => [("parameter", .text name)]

end Event

/-- The event of a query. -/
def StoreQuery.event : StoreQuery → Event
  | secret query => .fetchingSecret query.secretId query.versionId.isSome
  | parameter query => .fetchingParameter query.name

end SealedToken
