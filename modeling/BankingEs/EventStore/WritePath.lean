import BankingEs.EventStore.WriteQueue

/-! The write path as a whole: the callers, the batch processor, the flushes it spawns and the
table they all write to. The flushes run beside one another, each in its own transaction, and
share the metrics and the version cache. -/

namespace BankingEs
open EventStore

variable {Value : Type}

/-- A running `flush_batch`: the requests it has left, how many it has answered, and its
transaction once that has begun. -/
structure FlushTask (Value : Type) where
  rest : List BatchedEvent
  position : Nat := 0
  tx : Option (Transaction Value) := none

/-- `replies` are the messages sent on the one-shot channels and `results` what the calls of
`save_events` returned, both with the channel they belong to. -/
structure WritePath (Value : Type) where
  semaphore : Semaphore
  callers : List Nat := []
  nextResponse : Nat := 0
  channel : List BatchedEvent := []
  batch : List BatchedEvent := []
  tasks : List (FlushTask Value) := []
  committed : Table Value
  metrics : EventStoreMetrics := {}
  versionCache : Uuid → Option Int := fun _ => none
  replies : List (Nat × Except EventStoreError Unit) := []
  results : List (Nat × Except EventStoreError Unit) := []

namespace WritePath

def new (config : EventStoreConfig) (committed : Table Value) : WritePath Value :=
  { semaphore := .new config.maxBatchQueueSize, committed }

/-- The requests that were sent and are not answered, nor dropped by a flush that failed. -/
def outstanding (path : WritePath Value) : List BatchedEvent :=
  path.channel ++ path.batch ++ (path.tasks.map FlushTask.rest).flatten

def send (taken : Semaphore) (aggregateId : Uuid) (events : List AccountEvent) (expectedVersion : Int)
    (path : WritePath Value) : WritePath Value :=
  { path with
    semaphore := taken
    callers := path.nextResponse :: path.callers
    nextResponse := path.nextResponse + 1
    channel := path.channel ++ [⟨aggregateId, events, expectedVersion, path.nextResponse⟩] }

def spawn (path : WritePath Value) : WritePath Value :=
  { path with batch := [], tasks := path.tasks ++ [{ rest := path.batch }] }

def wake (config : EventStoreConfig) (path : WritePath Value) : Wake → WritePath Value
  | .received request =>
    let path := { path with batch := path.batch ++ [request] }
    if config.batchSize ≤ path.batch.length then path.spawn else path
  | .timeout => if path.batch.isEmpty then path else path.spawn

def session (path : WritePath Value) (tx : Transaction Value) : Session Value :=
  { tx, metrics := path.metrics, versionCache := path.versionCache }

def answer (calls : Calls Value) (before after : List (FlushTask Value)) (position : Nat) (tx : Transaction Value)
    (request : BatchedEvent) (rest : List BatchedEvent) (rows : List (Event Value)) (path : WritePath Value) :
    WritePath Value :=
  let state := EventStore.answer calls position request rows { session := path.session tx, responses := path.replies }
  { path with
    tasks := before ++ { rest, position := position + 1, tx := some state.session.tx } :: after
    metrics := state.session.metrics
    versionCache := state.session.versionCache
    replies := state.responses }

def commit (tasks : List (FlushTask Value)) (tx : Transaction Value) (path : WritePath Value) : WritePath Value :=
  { path with tasks, committed := if tx.aborted then path.committed else path.committed ++ tx.inserted }

def result (path : WritePath Value) (caller : Nat) : Except EventStoreError Unit :=
  (path.replies.lookup caller).getD (.error (.responseSendError "Failed to receive response: channel closed"))

def leave (caller : Nat) (path : WritePath Value) : WritePath Value :=
  { path with callers := path.callers.erase caller, semaphore := path.semaphore.release }

/-- A flush returns early: `begin` fails, a request cannot be prepared, or the commit fails. -/
inductive Fails (task : FlushTask Value) : Prop where
  | begin (waiting : task.tx = none)
  | prepare {tx : Transaction Value} {request : BatchedEvent} {rest : List BatchedEvent} (calls : Calls Value)
      {error : String} (begun : task.tx = some tx) (next : task.rest = request :: rest)
      (unusable : calls.prepare task.position request = .error error)
  | commit {tx : Transaction Value} (begun : task.tx = some tx) (finished : task.rest = [])

/-- What the code does by itself. The handlers, the row ids and times and what the database
does are whatever they are at each request. -/
inductive Step (config : EventStoreConfig) (path : WritePath Value) : WritePath Value → Prop where
  | sends {taken : Semaphore} (aggregateId : Uuid) {events : List AccountEvent} (expectedVersion : Int)
      (nonempty : events ≠ []) (acquired : path.semaphore.tryAcquire = some taken) :
      Step config path (path.send taken aggregateId events expectedVersion)
  | receives {request : BatchedEvent} {rest : List BatchedEvent} (waiting : path.channel = request :: rest) :
      Step config path ({ path with channel := rest }.wake config (.received request))
  | timeout : Step config path (path.wake config .timeout)
  | begins {before after : List (FlushTask Value)} {task : FlushTask Value}
      (running : path.tasks = before ++ task :: after) (waiting : task.tx = none) :
      Step config path { path with tasks := before ++ { task with tx := some { snapshot := path.committed } } :: after }
  | answers {before after : List (FlushTask Value)} {task : FlushTask Value} {tx : Transaction Value}
      {request : BatchedEvent} {rest : List BatchedEvent} {rows : List (Event Value)} (calls : Calls Value)
      (database : Database) (inserts : calls.insert = fun _ => bulkInsertEventsOptimized database)
      (running : path.tasks = before ++ task :: after) (begun : task.tx = some tx)
      (next : task.rest = request :: rest) (prepared : calls.prepare task.position request = .ok rows) :
      Step config path (path.answer calls before after task.position tx request rest rows)
  | commits {before after : List (FlushTask Value)} {task : FlushTask Value} {tx : Transaction Value}
      (running : path.tasks = before ++ task :: after) (begun : task.tx = some tx) (finished : task.rest = []) :
      Step config path (path.commit (before ++ after) tx)
  -- the transaction is rolled back and the requests that are left are dropped unanswered
  | fails {before after : List (FlushTask Value)} {task : FlushTask Value}
      (running : path.tasks = before ++ task :: after) (fails : Fails task) :
      Step config path { path with tasks := before ++ after }
  | returns {caller : Nat} (waiting : caller ∈ path.callers)
      (settled : caller ∉ path.outstanding.map BatchedEvent.responseTx) :
      Step config path { path.leave caller with results := path.results ++ [(caller, path.result caller)] }

inductive Drops (path : WritePath Value) : WritePath Value → Prop where
  | drops {caller : Nat} (waiting : caller ∈ path.callers) : Drops path (path.leave caller)

def Moves (config : EventStoreConfig) (before after : WritePath Value) : Prop :=
  Step config before after ∨ Drops before after

end WritePath
end BankingEs
