import Mathlib.Data.Rat.Defs
import Mathlib.Logic.Function.Basic
import BankingEs.Async.Program
import BankingEs.Cache.Service
import BankingEs.Semaphore

/-! The middleware in front of the handlers: a limit on the requests of each client, then
the rule registered for the type of the request. -/

namespace BankingEs
open Async

/-- `max_clients` is read by nothing. -/
structure RateLimitConfig where
  requestsPerMinute : Nat := 60
  burstSize : Nat := 10
  windowSize : Duration := Duration.fromSecs 60

/-- `requests` stays below `requests_per_minute`, a `u32`, whenever it is increased. -/
structure RateLimitInfo where
  requests : Nat
  windowStart : Instant
  semaphore : Semaphore
  deriving DecidableEq

structure RateLimiter where
  limits : String → Option RateLimitInfo
  config : RateLimitConfig

namespace RateLimitInfo

def fresh (config : RateLimitConfig) (now : Instant) : RateLimitInfo := ⟨0, now, .new config.burstSize⟩

/-- `duration_since` is zero for an instant that is yet to come. -/
def age (now : Instant) (info : RateLimitInfo) : Duration := (now - info.windowStart).toNat

def renew (config : RateLimitConfig) (now : Instant) (info : RateLimitInfo) : RateLimitInfo :=
  if config.windowSize ≤ info.age now then { info with requests := 0, windowStart := now } else info

def pass (config : RateLimitConfig) (info : RateLimitInfo) : Bool × RateLimitInfo :=
  if config.requestsPerMinute ≤ info.requests then (false, info)
  else match info.semaphore.tryAcquire with
    | none => (false, info)
    -- the permit is a temporary of the condition and is dropped with it
    | some taken => (true, { info with requests := info.requests + 1, semaphore := taken.release })

end RateLimitInfo

/-- What a check does to the entry of its client. -/
def RateLimitConfig.check (config : RateLimitConfig) (now : Instant) (entry : Option RateLimitInfo) :
    Bool × RateLimitInfo :=
  ((entry.getD (.fresh config now)).renew config now).pass config

namespace RateLimiter

def new (config : RateLimitConfig) : RateLimiter := ⟨fun _ => none, config⟩

/-- The check never fails: the source wraps its answer in `Ok`. -/
def checkRateLimit (now : Instant) (clientId : String) (limiter : RateLimiter) : Bool × RateLimiter :=
  let checked := limiter.config.check now (limiter.limits clientId)
  (checked.1, { limiter with limits := Function.update limiter.limits clientId (some checked.2) })

def cleanupExpiredLimits (now : Instant) (limiter : RateLimiter) : RateLimiter :=
  { limiter with
    limits := fun clientId => (limiter.limits clientId).filter fun info => info.age now < limiter.config.windowSize }

end RateLimiter

inductive LimiterOperation where
  | checkRateLimit (clientId : String)
  | cleanupExpiredLimits
  deriving DecidableEq

structure LimiterCall where
  time : Instant
  operation : LimiterOperation
  deriving DecidableEq

namespace RateLimiter

/-- The answers that one client is given, each with its time. -/
def answers (clientId : String) : List LimiterCall → RateLimiter → List (Instant × Bool)
  | [], _ => []
  | ⟨time, .checkRateLimit caller⟩ :: calls, limiter =>
    let checked := limiter.checkRateLimit time caller
    if caller = clientId then (time, checked.1) :: answers clientId calls checked.2
    else answers clientId calls checked.2
  | ⟨time, .cleanupExpiredLimits⟩ :: calls, limiter => answers clientId calls (limiter.cleanupExpiredLimits time)

/-- The times of the requests of one client that were let through. -/
def granted (clientId : String) (calls : List LimiterCall) (limiter : RateLimiter) : List Instant :=
  ((limiter.answers clientId calls).filter fun answer => answer.2).map fun answer => answer.1

end RateLimiter

/-- A JSON value. A number is read as an `f64`, and JSON has no number that is not finite. -/
inductive Json where
  | null
  | bool (value : Bool)
  | number (value : ℚ)
  | string (text : String)
  | array (items : List Json)
  | object (fields : List (String × Json))

/-- Header names are in lower case, as a `HeaderMap` stores them. A value is given by what
`to_str` reads from it, which is nothing unless it is visible ASCII. -/
abbrev HeaderMap := List (String × Option String)

structure RequestContext where
  clientId : String
  requestType : String
  payload : Json
  headers : HeaderMap

structure ValidationResult where
  isValid : Bool := true
  errors : List String := []
  warnings : List String := []
  deriving DecidableEq

def ValidationResult.reject (message : String) (result : ValidationResult) : ValidationResult :=
  { result with isValid := false, errors := result.errors ++ [message] }

/-- A field of the payload has to be there, and is refused if `invalid` finds a fault in it. -/
def checkField (field missing : String) (invalid : Json → Option String) (payload : List (String × Json))
    (result : ValidationResult) : ValidationResult :=
  match payload.lookup field with
  | none => result.reject missing
  | some value =>
    match invalid value with
    | none => result
    | some message => result.reject message

abbrev RequestValidationRule := RequestContext → ValidationResult

def AccountCreationValidator.validate : RequestValidationRule := fun context =>
  match context.payload with
  | .object payload =>
    let named := checkField "owner_name" "owner_name is required"
      (fun
        | .string name => if name.isEmpty then some "owner_name cannot be empty" else none
        | _ => none) payload {}
    checkField "initial_balance" "initial_balance is required"
      (fun
        | .number balance => if balance < 0 then some "initial_balance cannot be negative" else none
        | _ => none) payload named
  | _ => ValidationResult.reject "Payload must be a JSON object" {}

/-- `parseStr` says whether `Uuid::parse_str` accepts a text. -/
def TransactionValidator.validate (parseStr : String → Bool) : RequestValidationRule := fun context =>
  match context.payload with
  | .object payload =>
    let identified := checkField "account_id" "account_id is required"
      (fun
        | .string id => if parseStr id then none else some "account_id must be a valid UUID"
        | _ => none) payload {}
    checkField "amount" "amount is required"
      (fun
        | .number amount => if amount ≤ 0 then some "amount must be greater than zero" else none
        | _ => none) payload identified
  | _ => ValidationResult.reject "Payload must be a JSON object" {}

structure RequestValidator where
  validators : String → Option RequestValidationRule

namespace RequestValidator

def new : RequestValidator := ⟨fun _ => none⟩

def registerValidator (requestType : String) (rule : RequestValidationRule) (validator : RequestValidator) :
    RequestValidator :=
  ⟨Function.update validator.validators requestType (some rule)⟩

def validateRequest (context : RequestContext) (validator : RequestValidator) : ValidationResult :=
  let result : ValidationResult := {}
  match validator.validators context.requestType with
  | none => result
  | some rule =>
    let validation := rule context
    ⟨result.isValid && validation.isValid, result.errors ++ validation.errors, result.warnings ++ validation.warnings⟩

end RequestValidator

structure RequestMiddleware where
  rateLimiter : RateLimiter
  requestValidator : RequestValidator

inductive RequestCall : Type → Type where
  | checkRateLimit (clientId : String) : RequestCall Bool
  | validateRequest (context : RequestContext) : RequestCall ValidationResult
  | createAccount (ownerName : String) (initialBalance : Decimal) : RequestCall (Except AccountError Uuid)

namespace RequestMiddleware

def new (rateLimitConfig : RateLimitConfig) : RequestMiddleware := ⟨.new rateLimitConfig, .new⟩

def registerValidator (requestType : String) (rule : RequestValidationRule) (middleware : RequestMiddleware) :
    RequestMiddleware :=
  { middleware with requestValidator := middleware.requestValidator.registerValidator requestType rule }

def rateLimitExceeded : ValidationResult := { isValid := false, errors := ["Rate limit exceeded"] }

def processRequest (context : RequestContext) : Program RequestCall ValidationResult := do
  let allowed ← Program.send (.checkRateLimit context.clientId)
  if allowed then Program.send (.validateRequest context) else return rateLimitExceeded

def setUp (parseStr : String → Bool) (rateLimitConfig : RateLimitConfig) : RequestMiddleware :=
  ((new rateLimitConfig).registerValidator "create_account" AccountCreationValidator.validate
    |>.registerValidator "deposit_money" (TransactionValidator.validate parseStr)).registerValidator
      "withdraw_money" (TransactionValidator.validate parseStr)

end RequestMiddleware
end BankingEs
