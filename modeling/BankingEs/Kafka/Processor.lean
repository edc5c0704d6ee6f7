import BankingEs.Application.Services
import BankingEs.Application.World
import BankingEs.Async.Sequential
import BankingEs.Cache.Operations
import BankingEs.Kafka.DeadLetterQueue
import BankingEs.Projections.Store

/-! The event processor behind the events topic: it stores a batch, caches its events
and publishes the account that they lead to. The queries read what it has cached. -/

namespace BankingEs
open Async

/-- What the processor, recovery and the queries await beyond the calls of the commands. -/
inductive PipelineCall : Type → Type where
  | sleep (duration : Duration) : PipelineCall Unit
  | aggregateIds : PipelineCall (Except EventStoreError (List Uuid))
  | getLastProcessedVersion (accountId : Uuid) : PipelineCall (Except String Int)
  | cacheGetAccountEvents (accountId : Uuid) : PipelineCall (Except String (Option (List AccountEvent)))
  | cacheSetAccountEvents (accountId : Uuid) (events : VersionedEvents) (ttl : Option Duration) :
      PipelineCall (Except String Unit)
  | projectionsGetAccountTransactions (accountId : Uuid) : PipelineCall (Except String (List TransactionProjection))
  | sendEventBatch (batch : EventBatch) : PipelineCall (Except String Unit)
  | sendCacheUpdate (accountId : Uuid) (account : Account) : PipelineCall (Except String Unit)

abbrev SystemCall (Value β : Type) := Call Value β ⊕ PipelineCall β

variable {Value : Type}

def awaitCall {ε α : Type} (display : ε → String) (op : SystemCall Value (Except ε α)) :
    Program (SystemCall Value) (Except String α) := do
  let result ← .send op
  return result.mapError display

/-- The version of a batch is taken for the version expected before its first event. -/
def EventBatch.saveRequest (batch : EventBatch) : SaveRequest := ⟨batch.accountId, batch.events, batch.version⟩

namespace KafkaEventProcessor

/-- The events as they are cached: the first one under the version of the batch itself. -/
def versionedEvents (batch : EventBatch) : VersionedEvents :=
  batch.events.mapIdx fun index event => (batch.version + index, event)

/-- The account that is cached and published: the row with the events of the batch applied. -/
def updatedAccount (batch : EventBatch) (row : AccountProjection) : Account :=
  { id := row.id, ownerName := row.ownerName, balance := row.balance, isActive := row.isActive,
    version := batch.version + batch.events.length }

def publishAccount (accountId : Uuid) (account : Account) : Program (SystemCall Value) (Except String Unit) :=
  (awaitCall id (.inl (.cacheSetAccount account (some (Duration.fromSecs 3600))))).andThen fun _ =>
    awaitCall id (.inr (.sendCacheUpdate accountId account))

/-- What follows the save: the events are cached, and the account is cached and published. -/
def cacheBatch (batch : EventBatch) : Program (SystemCall Value) (Except String Unit) :=
  (awaitCall id (.inr (.cacheSetAccountEvents batch.accountId (versionedEvents batch) none))).andThen fun _ =>
    (awaitCall id (.inl (.projectionsGetAccount batch.accountId))).andThen fun found =>
      match found with
      | none => .pure (.ok ())
      | some row =>
        match row.applyEvents batch.events with
        | .error error => .pure (.error error)
        | .ok row => publishAccount batch.accountId (updatedAccount batch row)

def processBatch (batch : EventBatch) : Program (SystemCall Value) (Except String Unit) :=
  (awaitCall EventStoreError.display (.inl (.saveEvents batch.saveRequest))).andThen fun _ => cacheBatch batch

end KafkaEventProcessor

def TransactionProjection.fromEvent (event : AccountEvent) : Program (SystemCall Value) TransactionProjection := do
  let id ← .send (.inl .newV4)
  let timestamp ← .send (.inl .utcNow)
  return { id, accountId := event.aggregateId, amount := AccountService.transactionAmount event,
           transactionType := event.eventType, timestamp }

namespace AccountService

def transactionsOf : List AccountEvent → Program (SystemCall Value) (List TransactionProjection)
  | [] => return []
  | event :: events => do
    let transaction ← TransactionProjection.fromEvent event
    let transactions ← transactionsOf events
    return transaction :: transactions

def getAccountTransactions (accountId : Uuid) :
    Program (SystemCall Value) (Except AccountError (List TransactionProjection)) := do
  match ← .send (.inr (.cacheGetAccountEvents accountId)) with
  | .error error => return .error (.infrastructureError error)
  | .ok (some events) => return .ok (← transactionsOf events)
  | .ok none =>
    let transactions ← .send (.inr (.projectionsGetAccountTransactions accountId))
    return infrastructure id transactions

end AccountService

/-- The world of the commands, and the caches and topics beside it. `lastProcessed` is
what the consumer finds when it is asked for the last version of an account. -/
structure Pipeline (ι Value : Type) where
  world : World ι Value := {}
  eventCache : EventCache := {}
  projectionCache : ProjectionCache := {}
  eventsTopic : List EventBatch := []
  cacheUpdates : List (Uuid × Account) := []
  lastProcessed : Uuid → Int := fun _ => 0

namespace Pipeline
variable {ι : Type}

/-- How the event store answers a save, and what it does to the world. -/
abbrev Store (ι Value : Type) := World ι Value → SaveRequest → Except EventStoreError Unit → World ι Value → Prop

/-- Any answer, whatever becomes of the events. -/
def savingStore (env : Environment Value) :
    Store ι Value := fun world request _ after => World.Saves env world request after

/-- A save is accepted exactly at the committed version, and the answer tells. A save
without events is answered before its version is looked at. -/
inductive exactStore (codec : Codec Value) (world : World ι Value) (request : SaveRequest) :
    Except EventStoreError Unit → World ι Value → Prop where
  | stored {rows : Table Value} (current : request.expectedVersion = world.events.currentVersion request.aggregateId)
      (holds : Holds codec request.aggregateId request.expectedVersion request.events rows) :
      exactStore codec world request (.ok ())
        { world with events := world.events ++ rows, saves := world.saves ++ [(request, true)] }
  | refused {error : EventStoreError} (stale : request.expectedVersion ≠ world.events.currentVersion request.aggregateId) :
      exactStore codec world request (.error error) { world with saves := world.saves ++ [(request, false)] }
  | nothing (empty : request.events = []) : exactStore codec world request (.ok ()) world

/-- The calls of the commands. Rows are read through the copies of the projection store. -/
def stepCall (store : Store ι Value) (env : Environment Value) (caller : ι) {β : Type} (pipeline : Pipeline ι Value)
    (call : Call Value β) (reply : β) (after : Pipeline ι Value) : Prop :=
  match call, reply with
  | .saveEvents request, reply => ∃ world, store pipeline.world request reply world ∧ after = { pipeline with world }
  | .projectionsGetAccount accountId, reply =>
    ∃ fetched, (fetched = .ok (pipeline.world.accounts accountId) ∨ World.Fails env fetched) ∧ ∃ projectionCache,
      pipeline.projectionCache.getAccount pipeline.world.now fetched accountId = (reply, projectionCache) ∧
      after = { pipeline with projectionCache }
  | call, reply => ∃ world, World.step env caller pipeline.world call reply world ∧ after = { pipeline with world }

def stepPipeline (env : Environment Value) :
    {β : Type} → Pipeline ι Value → PipelineCall β → β → Pipeline ι Value → Prop
  | _, pipeline, .sleep _, _, after => after = pipeline
  | _, pipeline, .aggregateIds, reply, after =>
    (reply = .ok ((pipeline.world.events.map Event.aggregateId).dedup.insertionSort
      fun first second => first.bits ≤ second.bits) ∨ World.Fails env reply) ∧ after = pipeline
  | _, pipeline, .getLastProcessedVersion accountId, reply, after =>
    (reply = .ok (pipeline.lastProcessed accountId) ∨ World.Fails env reply) ∧ after = pipeline
  | _, pipeline, .cacheGetAccountEvents accountId, reply, after =>
    ∃ connection, World.Connects env connection ∧ ∃ eventCache,
      pipeline.eventCache.getAccountEvents pipeline.world.now connection accountId = (reply, eventCache) ∧
      after = { pipeline with eventCache }
  | _, pipeline, .cacheSetAccountEvents accountId events ttl, reply, after =>
    ∃ connection, World.Connects env connection ∧ ∃ eventCache,
      pipeline.eventCache.setAccountEvents pipeline.world.now connection pipeline.world.cache.config.defaultTtl accountId
        events ttl = (reply, eventCache) ∧
      after = { pipeline with eventCache }
  | _, pipeline, .projectionsGetAccountTransactions accountId, reply, after =>
    ∃ fetched, (fetched = .ok (selectTransactions accountId pipeline.world.transactions) ∨ World.Fails env fetched) ∧
      ∃ projectionCache, pipeline.projectionCache.getAccountTransactions pipeline.world.now fetched accountId =
        (reply, projectionCache) ∧ after = { pipeline with projectionCache }
  | _, pipeline, .sendEventBatch batch, reply, after =>
    (reply = .ok () ∧ after = { pipeline with eventsTopic := pipeline.eventsTopic ++ [batch] }) ∨
    (World.Fails env reply ∧ after = pipeline)
  | _, pipeline, .sendCacheUpdate accountId account, reply, after =>
    (reply = .ok () ∧ after = { pipeline with cacheUpdates := pipeline.cacheUpdates ++ [(accountId, account)] }) ∨
    (World.Fails env reply ∧ after = pipeline)

def serves (store : Store ι Value) (env : Environment Value) (caller : ι) :
    Serves (SystemCall Value) (Pipeline ι Value) :=
  fun before op reply after => ∃ ready, World.Passes before.world ready ∧
    match op with
    | .inl call => stepCall store env caller { before with world := ready } call reply after
    | .inr call => stepPipeline env { before with world := ready } call reply after

end Pipeline
end BankingEs
