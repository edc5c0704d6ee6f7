import BankingEs.Application.Repository

/-! `RateLimiter` and `RateLimitConfig` of `rate_limiter.rs`: a log of the times of the requests of
every key, of which a check drops what lies before the window. Times are in nanoseconds. -/

namespace BankingEs

/-- `requests_per_second` is read by nothing. -/
structure SlidingRateLimitConfig where
  windowSize : Duration := Duration.fromSecs 60
  burstSize : Nat := 100

structure SlidingRateLimiter where
  config : SlidingRateLimitConfig
  requests : String → List DateTime := fun _ => []

/-- The longest `chrono::Duration`: as many milliseconds as an `i64` counts. -/
def maxTimeDelta : Nat := (2 ^ 63 - 1) * 1000000

/-- The first day that chrono has a date for. -/
def minUtc : DateTime := -8334601228800 * 1000000000

namespace SlidingRateLimiter

/-- `now - chrono::Duration::from_std(window_size).unwrap()`. The `unwrap` or the subtraction
panics where there is no such date. -/
def windowStart (config : SlidingRateLimitConfig) (now : DateTime) : Option DateTime :=
  if config.windowSize ≤ maxTimeDelta ∧ minUtc ≤ now - config.windowSize then some (now - config.windowSize) else none

/-- The answer, or none if the check panics, before it touches the log. -/
def isRateLimited (limiter : SlidingRateLimiter) (now : DateTime) (key : String) : Option Bool × SlidingRateLimiter :=
  match windowStart limiter.config now with
  | none => (none, limiter)
  | some windowStart =>
    let requests := (limiter.requests key).filter fun time => windowStart ≤ time
    (some (limiter.config.burstSize ≤ requests.length),
      { limiter with requests := Function.update limiter.requests key requests })

def recordRequest (limiter : SlidingRateLimiter) (now : DateTime) (key : String) : SlidingRateLimiter :=
  { limiter with requests := Function.update limiter.requests key (limiter.requests key ++ [now]) }

inductive LogOperation where
  | isRateLimited
  | recordRequest
  deriving DecidableEq

structure LogCall where
  now : DateTime
  key : String
  operation : LogOperation
  deriving DecidableEq

def perform (limiter : SlidingRateLimiter) (call : LogCall) : SlidingRateLimiter :=
  match call.operation with
  | .isRateLimited => (limiter.isRateLimited call.now call.key).2
  | .recordRequest => limiter.recordRequest call.now call.key

def after (config : SlidingRateLimitConfig) (calls : List LogCall) :
    SlidingRateLimiter := calls.foldl perform { config }

end SlidingRateLimiter
end BankingEs
