import BankingEs.Async.Program
import BankingEs.Cache.Service

/-! The circuit breaker in front of Redis. A request asks it first, calls the inner
client if it may, and reports the outcome. Requests overlap in any order. -/

namespace BankingEs
open Async

/-- `half_open_timeout` is read by nothing. -/
structure CircuitBreakerConfig where
  failureThreshold : UInt64 := 5
  resetTimeout : Duration := Duration.fromSecs 30

inductive CircuitState where
  | closed
  | opened (openTime : Instant)
  | halfOpen
  deriving DecidableEq

structure CircuitBreaker where
  state : CircuitState
  failureCount : UInt64
  config : CircuitBreakerConfig

namespace CircuitBreaker

def new (config : CircuitBreakerConfig) : CircuitBreaker := ⟨.closed, 0, config⟩

def allowRequest (now : Instant) (breaker : CircuitBreaker) : Bool × CircuitBreaker :=
  match breaker.state with
  | .closed => (true, breaker)
  | .opened openTime =>
    -- `elapsed` is zero for an instant that is yet to come
    if breaker.config.resetTimeout ≤ (now - openTime).toNat then (true, { breaker with state := .halfOpen })
    else (false, breaker)
  | .halfOpen => (true, breaker)

def recordSuccess (breaker : CircuitBreaker) : CircuitBreaker :=
  match breaker.state with
  | .halfOpen => { breaker with state := .closed, failureCount := 0 }
  | _ => breaker

/-- The counter is a `u64` and wraps. -/
def recordFailure (now : Instant) (breaker : CircuitBreaker) : CircuitBreaker :=
  let failures := breaker.failureCount + 1
  if breaker.config.failureThreshold ≤ failures then { breaker with failureCount := failures, state := .opened now }
  else { breaker with failureCount := failures }

end CircuitBreaker

abbrev RedisError := String

inductive ClientCommand where
  | getConnection
  | getPooledConnection
  | get (key : String)
  | set (key value : String)
  | del (key : String)

inductive ClientReply where
  | connection
  | value (value : Option String)
  | done

inductive ClientCall : Type → Type where
  | allowRequest : ClientCall Bool
  | inner (command : ClientCommand) : ClientCall (Except RedisError ClientReply)
  | recordSuccess : ClientCall Unit
  | recordFailure : ClientCall Unit

namespace CircuitBreakerRedisClient

def settle (result : Except RedisError ClientReply) : Program ClientCall (Except RedisError ClientReply) :=
  match result with
  | .ok value => do
    let _ ← Program.send .recordSuccess
    return .ok value
  | .error error => do
    let _ ← Program.send .recordFailure
    return .error error

/-- The five methods of the client have this body around the same method of the inner one. -/
def request (command : ClientCommand) : Program ClientCall (Except RedisError ClientReply) := do
  let allowed ← Program.send .allowRequest
  if allowed then
    let result ← Program.send (.inner command)
    settle result
  else return .error "Circuit breaker is open"

def getConnection : Program ClientCall (Except RedisError ClientReply) := request .getConnection

def getPooledConnection : Program ClientCall (Except RedisError ClientReply) := request .getPooledConnection

def get (key : String) : Program ClientCall (Except RedisError ClientReply) := request (.get key)

def set (key value : String) : Program ClientCall (Except RedisError ClientReply) := request (.set key value)

def del (key : String) : Program ClientCall (Except RedisError ClientReply) := request (.del key)

end CircuitBreakerRedisClient

/-- A breaker and the requests that use it. `failures` are the failures recorded since it
last closed, newest first; `probe` is the request that moved it to half-open, until its
outcome is recorded, and `admitted` are the requests let through since that move. No step
depends on these three. -/
structure Circuit (ι : Type) where
  now : Instant
  breaker : CircuitBreaker
  failures : List Instant := []
  probe : Option ι := none
  admitted : List ι := []

namespace Circuit
variable {ι : Type}

def new (config : CircuitBreakerConfig) (now : Instant) : Circuit ι := { now, breaker := .new config }

def letThrough (request : ι) (circuit : Circuit ι) : Circuit ι :=
  match circuit.breaker.state with
  | .opened _ => { circuit with probe := some request, admitted := [request] }
  | _ => { circuit with admitted := request :: circuit.admitted }

variable [DecidableEq ι]

def settle (request : ι) (circuit : Circuit ι) : Circuit ι :=
  { circuit with probe := if circuit.probe = some request then none else circuit.probe }

def step (request : ι) : {β : Type} → Circuit ι → ClientCall β → β → Circuit ι → Prop
  | _, circuit, .allowRequest, allowed, after =>
    ∃ breaker, circuit.breaker.allowRequest circuit.now = (allowed, breaker) ∧
      after = { (if allowed then circuit.letThrough request else circuit) with breaker }
  | _, circuit, .inner _, _, after => after = circuit
  | _, circuit, .recordSuccess, _, after =>
    after = { circuit.settle request with
      breaker := circuit.breaker.recordSuccess
      failures := if circuit.breaker.state = .halfOpen then [] else circuit.failures }
  | _, circuit, .recordFailure, _, after =>
    after = { circuit.settle request with
      breaker := circuit.breaker.recordFailure circuit.now
      failures := circuit.now :: circuit.failures }

def serves (request : ι) : Serves ClientCall (Circuit ι) :=
  fun before op reply after => ∃ now, before.now ≤ now ∧ step request { before with now } op reply after

end Circuit
end BankingEs
