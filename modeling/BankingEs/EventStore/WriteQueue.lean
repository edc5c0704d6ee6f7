import BankingEs.EventStore.Flush
import BankingEs.Semaphore

/-! The callers of `save_events` and `save_events_with_priority`, the batch processor and
the flushes it spawns, in any interleaving. A caller takes a permit, sends its request and
waits; the permit is a local variable of its future. -/

namespace BankingEs
open EventStore

structure EventStoreConfig where
  batchSize : Nat := 1000
  maxBatchQueueSize : Nat := 10000

/-- `callers` are the one-shot channels on which a caller with a permit waits, and
`nextResponse` is the next one to be made. The batches of the processor are those of the
flushes that run, each with the requests it has not answered. -/
structure WriteQueue where
  semaphore : Semaphore
  callers : List Nat := []
  nextResponse : Nat := 0
  channel : List BatchedEvent := []
  processor : Processor := {}

namespace WriteQueue

def new (config : EventStoreConfig) : WriteQueue := { semaphore := .new config.maxBatchQueueSize }

def outstanding (queue : WriteQueue) : List BatchedEvent :=
  queue.channel ++ queue.processor.batch ++ queue.processor.spawned.flatten

/-- Between the permit and the send there is no await. -/
def send (taken : Semaphore) (aggregateId : Uuid) (events : List AccountEvent) (expectedVersion : Int)
    (queue : WriteQueue) : WriteQueue :=
  { queue with
    semaphore := taken
    callers := queue.nextResponse :: queue.callers
    nextResponse := queue.nextResponse + 1
    channel := queue.channel ++ [⟨aggregateId, events, expectedVersion, queue.nextResponse⟩] }

def leave (caller : Nat) (queue : WriteQueue) : WriteQueue :=
  { queue with callers := queue.callers.erase caller, semaphore := queue.semaphore.release }

def wake (config : EventStoreConfig) (wake : Wake) (queue : WriteQueue) : WriteQueue :=
  { queue with processor := queue.processor.wake config.batchSize wake }

def flushes (flushes : List (List BatchedEvent)) (queue : WriteQueue) : WriteQueue :=
  { queue with processor := { queue.processor with spawned := flushes } }

/-- What the code does by itself. The priority of a request is read by nothing. -/
inductive Step (config : EventStoreConfig) (queue : WriteQueue) : WriteQueue → Prop where
  | sends {taken : Semaphore} (aggregateId : Uuid) {events : List AccountEvent} (expectedVersion : Int)
      (nonempty : events ≠ []) (acquired : queue.semaphore.tryAcquire = some taken) :
      Step config queue (queue.send taken aggregateId events expectedVersion)
  | receives {request : BatchedEvent} {rest : List BatchedEvent} (waiting : queue.channel = request :: rest) :
      Step config queue ({ queue with channel := rest }.wake config (.received request))
  | timeout : Step config queue (queue.wake config .timeout)
  | answers {before after : List (List BatchedEvent)} {request : BatchedEvent} {rest : List BatchedEvent}
      (running : queue.processor.spawned = before ++ (request :: rest) :: after) :
      Step config queue (queue.flushes (before ++ rest :: after))
  -- a flush ends after its last answer, or with an error that drops the requests it has left
  | ends {before after : List (List BatchedEvent)} {batch : List BatchedEvent}
      (running : queue.processor.spawned = before ++ batch :: after) :
      Step config queue (queue.flushes (before ++ after))
  | returns {caller : Nat} (waiting : caller ∈ queue.callers)
      (settled : caller ∉ queue.outstanding.map BatchedEvent.responseTx) : Step config queue (queue.leave caller)

inductive Drops (queue : WriteQueue) : WriteQueue → Prop where
  | drops {caller : Nat} (waiting : caller ∈ queue.callers) : Drops queue (queue.leave caller)

end WriteQueue
end BankingEs
