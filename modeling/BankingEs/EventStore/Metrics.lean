import Mathlib.Algebra.Order.Field.Basic
import Mathlib.Algebra.Order.Field.Rat
import BankingEs.EventStore.Flush

/-! The counters of `flush_batch`, and the success rate that `get_metrics` and `metrics_reporter`
compute from them. The counters that no flush touches are left out. -/

namespace BankingEs

/-- How a request of a batch ends: refused before the insert, by the insert (`conflict` if it
counts as one), or accepted with so many events. -/
inductive Outcome where
  | validationFailed
  | handlingFailed
  | insertFailed (conflict : Bool)
  | accepted (events : Nat)

/-- What is known of the rounding to `f64`. -/
structure Rounding where
  round : ℚ → ℚ
  monotone : Monotone round
  round_zero : round 0 = 0
  round_one : round 1 = 1
  round_hundred : round 100 = 100

instance : Inhabited Rounding := ⟨⟨id, monotone_id, rfl, rfl, rfl⟩⟩

structure MetricsReport where
  eventsProcessed : UInt64
  eventsFailed : UInt64
  occFailures : UInt64
  successRate : ℚ

namespace EventStoreMetrics

def record (metrics : EventStoreMetrics) : Outcome → EventStoreMetrics
  | .validationFailed | .handlingFailed => { metrics with eventsFailed := metrics.eventsFailed + 1 }
  | .insertFailed true => { metrics with occFailures := metrics.occFailures + 1 }
  | .insertFailed false => metrics
  | .accepted events => { metrics with eventsProcessed := metrics.eventsProcessed + events }

def recordAll (metrics : EventStoreMetrics) (outcomes : List Outcome) :
    EventStoreMetrics := outcomes.foldl record metrics

/-- An `AtomicU64` wraps around. -/
def load (count : Nat) : UInt64 := .ofNat count

/-- `((processed - failed) as f64 / processed as f64) * 100.0`, with no result where the
difference would underflow. -/
def successRate (f64 : Rounding) (processed failed : UInt64) : Option ℚ :=
  if 0 < processed then
    if failed ≤ processed then
      some (f64.round (f64.round (f64.round (processed - failed).toNat / f64.round processed.toNat) * 100))
    else none
  else some 0

/-- The counters are loaded one after the other, while others may add to them. -/
def getMetrics (f64 : Rounding) (first second third : EventStoreMetrics) : Option MetricsReport := do
  let eventsProcessed := load first.eventsProcessed
  let eventsFailed := load second.eventsFailed
  let successRate ← successRate f64 eventsProcessed eventsFailed
  return { eventsProcessed, eventsFailed, occFailures := load third.occFailures, successRate }

/-- The numbers of processed and failed events and the rate in the line that is logged. -/
def metricsReporter (f64 : Rounding) (first second : EventStoreMetrics) : Option (UInt64 × UInt64 × ℚ) := do
  let processed := load first.eventsProcessed
  let failed := load second.eventsFailed
  let successRate ← successRate f64 processed failed
  return (processed, failed, successRate)

end EventStoreMetrics
end BankingEs
