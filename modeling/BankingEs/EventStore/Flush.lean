import BankingEs.EventStore.Postgres

/-! The write path of the event store: requests queue up in `batch_processor`, a
batch is flushed in one transaction by `flush_batch`, and every request of it is
numbered, validated, handled, inserted and answered on its own. -/

namespace BankingEs

/-- A queued save. `responseTx` names the one-shot channel its caller waits on. -/
structure BatchedEvent where
  aggregateId : Uuid
  events : List AccountEvent
  expectedVersion : Int
  responseTx : Nat
  deriving DecidableEq

structure EventValidationResult where
  isValid : Bool
  errors : List String
  warnings : List String

structure EventStoreMetrics where
  eventsProcessed : Nat := 0
  eventsFailed : Nat := 0
  occFailures : Nat := 0

structure Session (Value : Type) where
  tx : Transaction Value
  metrics : EventStoreMetrics
  versionCache : Uuid → Option Int

abbrev EventHandler (Value : Type) := Event Value → Except EventStoreError Unit

variable {Value : Type}

def Session.occFailure (session : Session Value) (aggregateId : Uuid) : Session Value :=
  { session with
    metrics := { session.metrics with occFailures := session.metrics.occFailures + 1 }
    versionCache := Function.update session.versionCache aggregateId none }

def Session.eventFailure (session : Session Value) : Session Value :=
  { session with metrics := { session.metrics with eventsFailed := session.metrics.eventsFailed + 1 } }

namespace EventStore

/-- The numbering loop of `prepare_events_for_insert_optimized`. `stamps` are the
row ids and times drawn for the events, `index` the number of rows built so far. -/
def prepareFrom (codec : Codec Value) (stamps : Nat → Uuid × DateTime) (aggregateId : Uuid) :
    Nat → Int → List AccountEvent → Except String (List (Event Value))
  | _, _, [] => .ok []
  | index, version, event :: events =>
    match codec.toValue event with
    | .error error => .error error
    | .ok eventData =>
      match prepareFrom codec stamps aggregateId (index + 1) (i64 (version + 1)) events with
      | .error error => .error error
      | .ok rest => .ok
        ({ id := (stamps index).1, aggregateId, eventType := event.eventType, eventData,
           version := i64 (version + 1), timestamp := (stamps index).2,
           metadata := { EventMetadata.default with source := "event_store" } } :: rest)

def prepareEventsForInsertOptimized (codec : Codec Value) (stamps : Nat → Uuid × DateTime)
    (batched : BatchedEvent) : Except String (List (Event Value)) :=
  prepareFrom codec stamps batched.aggregateId 0 batched.expectedVersion batched.events

def validateEvent (event : Event Value) : EventValidationResult :=
  let typeErrors := if event.eventType.isEmpty then ["Event type cannot be empty"] else []
  let versionErrors := if event.version ≤ 0 then ["Event version must be positive"] else []
  { isValid := !event.eventType.isEmpty && 0 < event.version, errors := typeErrors ++ versionErrors, warnings := [] }

/-- The handlers registered for the event's type run in order until one fails. -/
def handleEvent (handlers : String → List (EventHandler Value)) (event : Event Value) :
    Except EventStoreError Unit :=
  (handlers event.eventType).forM fun handler => (handler event).mapError fun error =>
    .eventHandlingError ("Failed to handle event " ++ event.eventType ++ " for aggregate " ++
      event.aggregateId.display ++ ": " ++ error.display)

/-- Seven placeholders a row, numbered from `index` on. -/
def placeholders : Nat → List (Event Value) → List (List Nat)
  | _, [] => []
  | index, _ :: events =>
    [index, index + 1, index + 2, index + 3, index + 4, index + 5, index + 6] :: placeholders (index + 7) events

def insertQuery (events : List (Event Value)) : InsertQuery Value :=
  { tuples := placeholders 1 events, binds := events.flatMap Event.binds }

/-- The version-sequence test, made for more than one event only. -/
def sequenceError (expectedVersion : Int) (events : List (Event Value)) : Option String :=
  if 1 < events.length then
    events.zipIdx.findSome? fun (event, index) =>
      let expected := i64 (i64 (expectedVersion + index) + 1)
      if event.version ≠ expected then
        some ("Invalid version sequence: expected " ++ toString expected ++ ", got " ++ toString event.version)
      else none
  else none

/-- The retry loop of `bulk_insert_events_optimized`, with the retries left. -/
def insertLoop (database : Database) (events : List (Event Value)) (aggregateId : Uuid)
    (expectedVersion lastVersion : Int) (retries : Nat) (session : Session Value) :
    Except EventStoreError Unit × Session Value :=
  match session.tx.selectVersion database aggregateId with
  | (.error error, tx) => (.error (.databaseError error), { session with tx })
  | (.ok none, tx) => (.error (.databaseError .rowNotFound), { session with tx })
  | (.ok (some currentVersion), tx) =>
    let session := { session with tx }
    let conflict := EventStoreError.optimisticConcurrencyConflict aggregateId expectedVersion (some currentVersion)
    if currentVersion ≠ expectedVersion then (.error conflict, session.occFailure aggregateId)
    else match sequenceError expectedVersion events with
      | some message => (.error (.validationError [message]), session)
      | none => match session.tx.execute database (insertQuery events) with
        | (.ok (), tx) => (.ok (), { session with
            tx, versionCache := Function.update session.versionCache aggregateId (some lastVersion) })
        | (.error error, tx) =>
          let session := { session with tx }
          if error.isConflict then (.error conflict, session.occFailure aggregateId)
          else if error.isTransientError then match retries with
            | 0 => (.error (.databaseError error), session)
            | retries + 1 => insertLoop database events aggregateId expectedVersion lastVersion retries session
          else (.error (.databaseError error), session)

def maxRetries : Nat := 3

def bulkInsertEventsOptimized (database : Database) (events : List (Event Value)) (session : Session Value) :
    Except EventStoreError Unit × Session Value :=
  match events.head?, events.getLast? with
  | some first, some last =>
    match session.tx.setSerializable database with
    | (.error error, tx) => (.error (.databaseError error), { session with tx })
    | (.ok (), tx) =>
      insertLoop database events first.aggregateId first.version last.version maxRetries { session with tx }
  | _, _ => (.ok (), session)

/-- What a flush calls: the row ids and times drawn, the handlers and the insert
as they behave for the request at each position of the batch, `begin` and `commit`. -/
structure Calls (Value : Type) where
  codec : Codec Value
  stamps : Nat → Nat → Uuid × DateTime
  begin : Except SqlxError Unit
  handlers : Nat → String → List (EventHandler Value)
  insert : Nat → List (Event Value) → Session Value → Except EventStoreError Unit × Session Value
  commit : Except SqlxError Unit

structure FlushState (Value : Type) where
  session : Session Value
  responses : List (Nat × Except EventStoreError Unit)

def Calls.prepare (calls : Calls Value) (position : Nat) (batched : BatchedEvent) :
    Except String (List (Event Value)) :=
  prepareEventsForInsertOptimized calls.codec (calls.stamps position) batched

def validationError (eventData : List (Event Value)) : Option EventStoreError :=
  (eventData.find? fun event => !(validateEvent event).isValid).map fun event =>
    .validationError (validateEvent event).errors

def handlingError (handlers : String → List (EventHandler Value)) (eventData : List (Event Value)) :
    Option EventStoreError :=
  match eventData.forM (handleEvent handlers) with
  | .error error => some error
  | .ok () => none

def insertResult (calls : Calls Value) (position : Nat) (eventData : List (Event Value)) (session : Session Value) :
    Except EventStoreError Unit × Session Value :=
  match validationError eventData with
  | some error => (.error error, session.eventFailure)
  | none => match handlingError (calls.handlers position) eventData with
    | some error => (.error error, session.eventFailure)
    | none => calls.insert position eventData session

def answer (calls : Calls Value) (position : Nat) (batched : BatchedEvent) (eventData : List (Event Value))
    (state : FlushState Value) : FlushState Value :=
  match insertResult calls position eventData state.session with
  | (result, session) =>
    let metrics := match result with
      | .ok () => { session.metrics with eventsProcessed := session.metrics.eventsProcessed + eventData.length }
      | .error _ => session.metrics
    { session := { session with metrics }, responses := state.responses ++ [(batched.responseTx, result)] }

/-- The loop over the batch. A preparation that fails returns at once: the rest
of the batch gets no answer and the transaction is dropped. -/
def flushRequests (calls : Calls Value) : Nat → List BatchedEvent → FlushState Value →
    Except EventStoreError Unit × FlushState Value
  | _, [], state => (.ok (), state)
  | position, batched :: batch, state =>
    match calls.prepare position batched with
    | .error error => (.error (.serializationError error), state)
    | .ok eventData => flushRequests calls (position + 1) batch (answer calls position batched eventData state)

structure Flushed (Value : Type) where
  result : Except EventStoreError Unit
  responses : List (Nat × Except EventStoreError Unit)
  committed : Table Value
  metrics : EventStoreMetrics

def FlushState.initial (committed : Table Value) (metrics : EventStoreMetrics) (versionCache : Uuid → Option Int) :
    FlushState Value :=
  { session := { tx := { snapshot := committed }, metrics, versionCache }, responses := [] }

/-- `COMMIT` of an aborted transaction reports success and rolls back. -/
def flushBatch (calls : Calls Value) (committed : Table Value) (metrics : EventStoreMetrics)
    (versionCache : Uuid → Option Int) (batch : List BatchedEvent) : Flushed Value :=
  match calls.begin with
  | .error error => ⟨.error (.databaseError error), [], committed, metrics⟩
  | .ok () =>
    match flushRequests calls 0 batch (.initial committed metrics versionCache) with
    | (.error error, state) => ⟨.error error, state.responses, committed, state.session.metrics⟩
    | (.ok (), state) => match calls.commit with
      | .error error => ⟨.error (.databaseError error), state.responses, committed, state.session.metrics⟩
      | .ok () =>
        let tx := state.session.tx
        ⟨.ok (), state.responses, if tx.aborted then committed else committed ++ tx.inserted, state.session.metrics⟩

/-- A `save_events` call whose request is flushed in a batch of its own. A request
that is dropped unanswered closes the channel its caller waits on. -/
def saveEvents (calls : Calls Value) (committed : Table Value) (metrics : EventStoreMetrics)
    (versionCache : Uuid → Option Int) (aggregateId : Uuid) (events : List AccountEvent) (expectedVersion : Int) :
    Except EventStoreError Unit × Table Value :=
  if events.isEmpty then (.ok (), committed)
  else
    let flushed := flushBatch calls committed metrics versionCache [⟨aggregateId, events, expectedVersion, 0⟩]
    match flushed.responses.lookup 0 with
    | some result => (result, flushed.committed)
    | none => (.error (.responseSendError "Failed to receive response: channel closed"), flushed.committed)

inductive Wake where
  | received (request : BatchedEvent)
  | timeout

/-- The buffer, and the batches spawned so far in spawn order. -/
structure Processor where
  batch : List BatchedEvent := []
  spawned : List (List BatchedEvent) := []

def Processor.spawn (processor : Processor) : Processor :=
  { batch := [], spawned := processor.spawned ++ [processor.batch] }

def Processor.wake (batchSize : Nat) (processor : Processor) : Wake → Processor
  | .received request =>
    let processor := { processor with batch := processor.batch ++ [request] }
    if batchSize ≤ processor.batch.length then processor.spawn else processor
  | .timeout => if processor.batch.isEmpty then processor else processor.spawn

def batchProcessor (batchSize : Nat) (wakes : List Wake) : Processor :=
  wakes.foldl (Processor.wake batchSize) {}

end EventStore
end BankingEs
