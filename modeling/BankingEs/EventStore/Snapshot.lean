import BankingEs.Kafka.Recovery

/-! Snapshots: the account that the stored events of an aggregate lead to, kept under the version
of the last of them. -/

namespace BankingEs
open Async

/-- `serde_json` on accounts. -/
structure AccountCodec (Value : Type) where
  toValue : Account → Except String Value
  fromValue : Value → Except String Account
  decodes : ∀ account value, toValue account = .ok value → fromValue value = .ok account

def AccountCodec.plain : AccountCodec Account := ⟨.ok, .ok, fun _ _ encoded => by cases encoded; rfl⟩

structure Snapshot (Value : Type) where
  snapshotData : Value
  version : Int

structure CachedSnapshot (Value : Type) where
  aggregateId : Uuid
  data : Value
  version : Int
  createdAt : Instant
  ttl : Duration

inductive SnapshotCall (Value Document : Type) : Type → Type where
  | fetchEvents (aggregateId : Uuid) : SnapshotCall Value Document (Except String (List (Event Value)))
  | saveSnapshot (aggregateId : Uuid) (snapshot : Snapshot Document) : SnapshotCall Value Document (Except String Unit)
  | instantNow : SnapshotCall Value Document Instant
  | cacheInsert (aggregateId : Uuid) (snapshot : CachedSnapshot Document) : SnapshotCall Value Document Unit

variable {Value Document : Type}

namespace EventStore

/-- `call.await.context(message)`. -/
def awaitContext {α : Type} (message : String) (op : SnapshotCall Value Document (Except String α)) :
    Program (SnapshotCall Value Document) (Except String α) := do
  let result ← Program.send op
  return result.mapError fun _ => message

def snapshotData (codec : Codec Value) (accountCodec : AccountCodec Document) (aggregateId : Uuid)
    (events : List (Event Value)) : Except String Document :=
  match (AccountRepository.blank aggregateId).applyStored codec (fun _ => "Failed to deserialize event") events with
  | .error error => .error error
  | .ok account => (accountCodec.toValue account).mapError fun _ => "Failed to serialize account snapshot"

def createSnapshot (codec : Codec Value) (accountCodec : AccountCodec Document) (snapshotCacheTtlSecs : Nat)
    (aggregateId : Uuid) : Program (SnapshotCall Value Document) (Except String Unit) :=
  (awaitContext "Failed to fetch events for snapshot" (.fetchEvents aggregateId)).andThen fun events =>
    match events.getLast? with
    | none => .pure (.ok ())
    | some last =>
      match snapshotData codec accountCodec aggregateId events with
      | .error error => .pure (.error error)
      | .ok data =>
        (awaitContext "Failed to save snapshot to database" (.saveSnapshot aggregateId ⟨data, last.version⟩)).andThen
          fun _ => do
            let createdAt ← Program.send .instantNow
            Program.send (.cacheInsert aggregateId
              { aggregateId, data, version := last.version, createdAt, ttl := Duration.fromSecs snapshotCacheTtlSecs })
            return .ok ()

end EventStore

/-- The events, the snapshots of each aggregate and the copies of them in memory. -/
structure SnapshotStore (Value Document : Type) where
  now : Instant := 0
  events : Table Value := []
  snapshots : Uuid → Option (Snapshot Document) := fun _ => none
  cache : Uuid → Option (CachedSnapshot Document) := fun _ => none

namespace SnapshotStore

def Fails (allowed : Prop) {α : Type} (reply : Except String α) (store after : SnapshotStore Value Document) : Prop :=
  allowed ∧ (∃ error, reply = .error error) ∧ after = store

def step (fails : Prop) : {β : Type} → SnapshotStore Value Document → SnapshotCall Value Document β → β →
    SnapshotStore Value Document → Prop
  | _, store, .fetchEvents aggregateId, reply, after =>
    (reply = .ok ((store.events.rowsOf aggregateId).insertionSort fun first second => first.version ≤ second.version) ∧
      after = store) ∨ Fails fails reply store after
  | _, store, .saveSnapshot aggregateId snapshot, reply, after =>
    (reply = .ok () ∧ after = { store with snapshots := Function.update store.snapshots aggregateId (some snapshot) }) ∨
      Fails fails reply store after
  | _, store, .instantNow, now, after => now = store.now ∧ after = store
  | _, store, .cacheInsert aggregateId snapshot, _, after =>
    after = { store with cache := Function.update store.cache aggregateId (some snapshot) }

def serves (fails : Prop) : Serves (SnapshotCall Value Document) (SnapshotStore Value Document) :=
  fun before op reply after => ∃ now, before.now ≤ now ∧ step fails { before with now } op reply after

end SnapshotStore
end BankingEs
