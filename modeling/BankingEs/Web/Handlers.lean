import BankingEs.Web.Middleware

/-! The handler that creates an account, and requests that overlap in it. All of them share
one middleware. -/

namespace BankingEs
open Async

/-- What the handlers take from libraries: `Decimal::from_f64` and the text of a decimal. -/
structure WebLibraries where
  fromF64 : ℚ → Option Decimal
  decimalText : Decimal → String

def AccountError.display (decimalText : Decimal → String) : AccountError → String
  | .notFound => "Account not found"
  | .insufficientFunds available requested =>
    "Insufficient funds: available " ++ decimalText available ++ ", requested " ++ decimalText requested
  | .accountClosed => "Account is closed"
  | .invalidAmount amount => "Invalid amount: " ++ decimalText amount
  | .eventDeserializationError message => "Event deserialization error: " ++ message
  | .infrastructureError message => "Infrastructure error: " ++ message
  | .versionConflict expected actual =>
    "Version conflict: expected " ++ toString expected ++ ", found " ++ toString actual

structure CreateAccountRequest where
  ownerName : String
  initialBalance : ℚ

def CreateAccountRequest.toValue (payload : CreateAccountRequest) : Json :=
  .object [("owner_name", .string payload.ownerName), ("initial_balance", .number payload.initialBalance)]

inductive StatusCode where
  | badRequest
  deriving DecidableEq

abbrev Response := Except (StatusCode × String) Uuid

namespace Handlers

def getClientId (headers : HeaderMap) : String := ((headers.lookup "x-client-id").bind id).getD "unknown"

def createRequestContext (clientId requestType : String) (payload : Json) (headers : HeaderMap) : RequestContext :=
  ⟨clientId, requestType, payload, headers⟩

/-- The handler is given the body of the request only, and looks for the client in an empty
`HeaderMap`. -/
def createAccount (libraries : WebLibraries) (payload : CreateAccountRequest) : Program RequestCall Response := do
  let context := createRequestContext (getClientId []) "create_account" payload.toValue []
  let result ← RequestMiddleware.processRequest context
  if result.isValid then
    let initialBalance := (libraries.fromF64 payload.initialBalance).getD 0
    let created ← Program.send (.createAccount payload.ownerName initialBalance)
    return created.mapError fun error => (.badRequest, error.display libraries.decimalText)
  else return .error (.badRequest, ", ".intercalate result.errors)

end Handlers

structure HttpRequest where
  headers : HeaderMap
  payload : CreateAccountRequest

def HttpRequest.sender (request : HttpRequest) : Option String := (request.headers.lookup "x-client-id").bind id

structure RequestWorld where
  now : Instant
  middleware : RequestMiddleware

namespace RequestWorld

/-- Whether the service can create an account is left open. -/
def step : {β : Type} → RequestWorld → RequestCall β → β → RequestWorld → Prop
  | _, world, .checkRateLimit clientId, allowed, after =>
    let checked := world.middleware.rateLimiter.checkRateLimit world.now clientId
    allowed = checked.1 ∧ after = { world with middleware := { world.middleware with rateLimiter := checked.2 } }
  | _, world, .validateRequest context, result, after =>
    result = world.middleware.requestValidator.validateRequest context ∧ after = world
  | _, world, .createAccount _ _, _, after => after = world

def serves : Serves RequestCall RequestWorld :=
  fun before op reply after => ∃ now, before.now ≤ now ∧ step { before with now } op reply after

end RequestWorld
end BankingEs
