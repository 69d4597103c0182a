import SealedToken.Service.Signer

/-!
# Tokens against request forgery

A token is the text form of a salted signature of the session's id, and is checked as one. The salt
makes the tokens of one session differ.

* `Csrf`: a signer, a text form, and the size of nonces, which is not zero.
* `Csrf.issue`, `Csrf.validate`: a fresh token of a session, and the check of one.
* `copiesMatch`: all copies of a token that a request brings are the same.
* `needsToken`: the request methods that need a token.
-/

namespace SealedToken

/-- The size of nonces where no other is chosen. -/
def defaultNonceSize : UInt8 := 16

/-- Issues and checks tokens. -/
structure Csrf (κ : Type) where
  signer : Signer κ
  encoding : TextForm
  nonceSize : UInt8
  /-- an unsalted token could be replayed -/
  nonceSize_ne_zero : nonceSize ≠ 0

namespace Csrf

variable {κ : Type}

/-- The default text form and size of nonces. -/
def ofSigner (signer : Signer κ) : Csrf κ := ⟨signer, default, defaultNonceSize, by decide⟩

/-- The same with another text form. -/
def withEncoding (csrf : Csrf κ) (encoding : TextForm) : Csrf κ := { csrf with encoding }

/-- The same with another size of nonces, which must not be zero. -/
def withNonceSize (csrf : Csrf κ) (nonceSize : UInt8) : Except TokenError (Csrf κ) :=
  if h : nonceSize = 0 then .error (.configuration .zeroNonceSize)
  else .ok { csrf with nonceSize, nonceSize_ne_zero := h }

variable [KeySource κ]

/-- A fresh token of a session. -/
def issue (csrf : Csrf κ) (sessionId : String) : Action TokenError String := do
  let signature ← csrf.signer.sign (utf8 sessionId) csrf.nonceSize
  return csrf.encoding.encode signature

/-- Whether a well-formed token is a signature of the session id. -/
def validate (csrf : Csrf κ) (token sessionId : String) : Action TokenError Bool := do
  let signature ← Action.ofExcept (csrf.encoding.readToken token)
  csrf.signer.verify signature (utf8 sessionId)

end Csrf

/-! ## Requests -/

/-- The usual name of the cookie with a token. -/
def csrfCookieName : String := "__Host-csrf"

/-- The usual name of the header with a token. -/
def csrfHeaderName : String := "X-Csrf-Token"

/-- The usual name of the form field with a token. -/
def csrfFormName : String := "csrf_token"

/-- The request methods that change something. -/
def guardedMethods : List String := ["DELETE", "PATCH", "POST", "PUT"]

/-- A request of the method needs a token. Methods are told apart by case. -/
def needsToken (method : String) : Bool := guardedMethods.contains method

/-- Whether `first` is not empty and every other copy equals it; the comparison goes through
all of them. -/
def copiesMatch (first : String) (rest : List String) : Bool :=
  if utf8 first = [] then false
  else rest.foldl (fun all other => all && utf8 first == utf8 other) true

end SealedToken
