import Mathlib.Data.Rat.Defs
import Mathlib.Algebra.Order.Ring.Rat
import BankingEs.Application.Repository
import BankingEs.Redis.CircuitBreaker
import BankingEs.Semaphore

/-! The load shedder in front of Redis: a semaphore with a time limit on the wait for a
permit, and two counters. A permit carries a copy of the shedder. -/

namespace BankingEs

inductive F64 where
  | finite (value : ℚ)
  | infinity (negative : Bool)
  | nan
  deriving DecidableEq

def F64.lt : F64 → F64 → Bool
  | .finite first, .finite second => first < second
  | .finite _, .infinity negative => !negative
  | .infinity negative, .finite _ => negative
  | .infinity first, .infinity second => first && !second
  | _, _ => false

structure LoadShedderConfig where
  maxConcurrentRequests : Nat := 2000
  maxQueueSize : Nat := 10000
  queueTimeout : Duration := Duration.fromMillis 50
  cpuThreshold : F64 := .finite (8 / 10)
  memoryThreshold : F64 := .finite (8 / 10)

/-- The semaphore is shared by all copies and not among the fields here. -/
structure LoadShedder where
  config : LoadShedderConfig
  currentLoad : UInt64 := 0
  rejectedRequests : UInt64 := 0

structure LoadShedderPermit where
  shedder : LoadShedder

structure LoadShedderMetrics where
  currentLoad : UInt64
  rejectedRequests : UInt64
  maxConcurrentRequests : Nat
  maxQueueSize : Nat

namespace LoadShedder

def getCpuUsage (_ : LoadShedder) : F64 := .finite 0

def getMemoryUsage (_ : LoadShedder) : F64 := .finite 0

def isSystemOverloaded (shedder : LoadShedder) : Bool :=
  shedder.config.cpuThreshold.lt shedder.getCpuUsage || shedder.config.memoryThreshold.lt shedder.getMemoryUsage

/-- The new counters start at the values of the old ones and are not linked to them. -/
def clone (shedder : LoadShedder) : LoadShedder := shedder

def reject (shedder : LoadShedder) : LoadShedder :=
  { shedder with rejectedRequests := shedder.rejectedRequests + 1 }

/-- `acquired` says whether the semaphore gave a permit within the time limit. The counters
are `u64` and wrap. -/
def acquirePermit (acquired : Bool) (shedder : LoadShedder) : Except RedisError LoadShedderPermit × LoadShedder :=
  if shedder.isSystemOverloaded then (.error "System is overloaded", shedder.reject)
  else if acquired then
    let counted := { shedder with currentLoad := shedder.currentLoad + 1 }
    (.ok ⟨counted.clone⟩, counted)
  else (.error "Request queue is full", shedder.reject)

def getMetrics (shedder : LoadShedder) : LoadShedderMetrics :=
  ⟨shedder.currentLoad, shedder.rejectedRequests, shedder.config.maxConcurrentRequests, shedder.config.maxQueueSize⟩

end LoadShedder

/-- The counter that goes down is the one of the permit's own copy. -/
def LoadShedderPermit.drop (permit : LoadShedderPermit) : LoadShedder :=
  { permit.shedder with currentLoad := permit.shedder.currentLoad - 1 }

/-- One shedder with the permits that are held. `discarded` are the copies of the permits
dropped so far and `refused` is the number of calls that returned an error; no step reads
these two. -/
structure ShedderWorld where
  shedder : LoadShedder
  semaphore : Semaphore
  permits : List LoadShedderPermit := []
  discarded : List LoadShedder := []
  refused : Nat := 0

namespace ShedderWorld

def maxPermits : Nat := 2 ^ 61 - 1

/-- `Semaphore::new` panics on more permits than it can count. -/
def new (config : LoadShedderConfig) : Option ShedderWorld :=
  if config.maxConcurrentRequests ≤ maxPermits then
    some { shedder := { config }, semaphore := .new config.maxConcurrentRequests }
  else none

inductive Step (world : ShedderWorld) : ShedderWorld → Prop where
  | grants {taken : Semaphore} {permit : LoadShedderPermit} {shedder : LoadShedder}
      (acquired : world.semaphore.tryAcquire = some taken)
      (called : world.shedder.acquirePermit true = (.ok permit, shedder)) :
      Step world { world with shedder, semaphore := taken, permits := permit :: world.permits }
  | refuses {acquired : Bool} {error : RedisError} {shedder : LoadShedder}
      (called : world.shedder.acquirePermit acquired = (.error error, shedder)) :
      Step world { world with shedder, refused := world.refused + 1 }
  | drops {before after : List LoadShedderPermit} {permit : LoadShedderPermit}
      (held : world.permits = before ++ permit :: after) :
      Step world { world with
        semaphore := world.semaphore.release, permits := before ++ after, discarded := permit.drop :: world.discarded }

end ShedderWorld
end BankingEs
