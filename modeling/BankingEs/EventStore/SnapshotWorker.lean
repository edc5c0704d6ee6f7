import BankingEs.EventStore.Snapshot

/-! The background workers of the snapshots. Every instance of the event store has a snapshot
worker, which takes the snapshots of a round in parallel, and a clean-up of its snapshot cache.
All instances share the two tables. -/

namespace BankingEs
open Async

/-- The fields of `EventStoreConfig` that the workers read. -/
structure SnapshotConfig where
  snapshotThreshold : Nat := 500
  snapshotCacheTtlSecs : Nat := 3600
  maxSnapshotsPerRun : Nat := 100

structure SnapshotCandidate where
  aggregateId : Uuid
  eventCount : Nat
  maxVersion : Int
  lastSnapshotVersion : Int

variable {Value Document : Type}

namespace SnapshotCandidate

def group (events : Table Value) (snapshots : Uuid → Option (Snapshot Document)) (aggregateId : Uuid) :
    SnapshotCandidate :=
  { aggregateId
    eventCount := (events.rowsOf aggregateId).length
    maxVersion := events.currentVersion aggregateId
    lastSnapshotVersion := (snapshots aggregateId).elim 0 Snapshot.version }

def wanted (config : SnapshotConfig) (candidate : SnapshotCandidate) : Bool :=
  config.snapshotThreshold < candidate.eventCount && candidate.lastSnapshotVersion < candidate.maxVersion

def groups (config : SnapshotConfig) (events : Table Value) (snapshots : Uuid → Option (Snapshot Document)) :
    List SnapshotCandidate :=
  (((events.map Event.aggregateId).dedup).map (group events snapshots)).filter (wanted config)

end SnapshotCandidate

/-- `ORDER BY COUNT(e.id) DESC LIMIT n`: groups of equal count come in any order. -/
def Candidates (config : SnapshotConfig) (events : Table Value) (snapshots : Uuid → Option (Snapshot Document))
    (rows : List SnapshotCandidate) : Prop :=
  ∃ sorted : List SnapshotCandidate, sorted.Perm (SnapshotCandidate.groups config events snapshots) ∧
    sorted.Pairwise (fun first second => second.eventCount ≤ first.eventCount) ∧
    rows = sorted.take config.maxSnapshotsPerRun

structure SnapshotTask (Value Document : Type) where
  aggregateId : Uuid
  program : Program (SnapshotCall Value Document) (Except String Unit)

/-- One instance of the event store: its snapshot cache, the tasks of the running round, and the
keys that the clean-up has found expired and not removed yet. -/
structure SnapshotInstance (Value Document : Type) where
  cache : Uuid → Option (CachedSnapshot Document) := fun _ => none
  tasks : List (SnapshotTask Value Document) := []
  expired : List Uuid := []

structure SnapshotFleet (ι Value Document : Type) where
  now : Instant := 0
  events : Table Value := []
  snapshots : Uuid → Option (Snapshot Document) := fun _ => none
  instances : ι → SnapshotInstance Value Document := fun _ => {}

namespace SnapshotFleet
variable {ι : Type} [DecidableEq ι]

def store (fleet : SnapshotFleet ι Value Document) (owner : ι) : SnapshotStore Value Document :=
  { now := fleet.now, events := fleet.events, snapshots := fleet.snapshots, cache := (fleet.instances owner).cache }

def putInstance (fleet : SnapshotFleet ι Value Document) (owner : ι) (changed : SnapshotInstance Value Document) :
    SnapshotFleet ι Value Document :=
  { fleet with instances := Function.update fleet.instances owner changed }

def putStore (fleet : SnapshotFleet ι Value Document) (owner : ι) (store : SnapshotStore Value Document)
    (tasks : List (SnapshotTask Value Document)) : SnapshotFleet ι Value Document :=
  { fleet with
    events := store.events
    snapshots := store.snapshots
    instances := Function.update fleet.instances owner { fleet.instances owner with cache := store.cache, tasks } }

def Idle (fleet : SnapshotFleet ι Value Document) (owner : ι) : Prop :=
  ∀ task ∈ (fleet.instances owner).tasks, ∃ result, task.program = .pure result

/-- The tasks of a round: the query has compared the versions already, and the loop does again. -/
def spawned (codec : Codec Value) (accountCodec : AccountCodec Document) (config : SnapshotConfig)
    (rows : List SnapshotCandidate) : List (SnapshotTask Value Document) :=
  (rows.filter fun row => row.lastSnapshotVersion < row.maxVersion).map fun row =>
    { aggregateId := row.aggregateId
      program := EventStore.createSnapshot codec accountCodec config.snapshotCacheTtlSecs row.aggregateId }

def isExpired (now : Instant) (snapshot : CachedSnapshot Document) : Prop := snapshot.ttl ≤ now - snapshot.createdAt

/-- A round starts when the one before is over. A query that fails starts none. -/
inductive Ticks (codec : Codec Value) (accountCodec : AccountCodec Document) (config : SnapshotConfig)
    (fleet : SnapshotFleet ι Value Document) : SnapshotFleet ι Value Document → Prop where
  | ticks {owner : ι} {rows : List SnapshotCandidate} (idle : fleet.Idle owner)
      (selects : Candidates config fleet.events fleet.snapshots rows) :
      Ticks codec accountCodec config fleet (fleet.putInstance owner
        { fleet.instances owner with tasks := spawned codec accountCodec config rows })

/-- What else happens in the workers: a call of a task is served, or the clean-up goes on. -/
inductive Works (fails : Prop) (fleet : SnapshotFleet ι Value Document) : SnapshotFleet ι Value Document → Prop where
  | waits {now : Instant} (later : fleet.now ≤ now) : Works fails fleet { fleet with now }
  | serves {owner : ι} {before after : List (SnapshotTask Value Document)} {aggregateId : Uuid} {β : Type}
      {op : SnapshotCall Value Document β} {resume : β → Program (SnapshotCall Value Document) (Except String Unit)}
      {reply : β} {store : SnapshotStore Value Document}
      (running : (fleet.instances owner).tasks = before ++ ⟨aggregateId, .request op resume⟩ :: after)
      (served : SnapshotStore.step fails (fleet.store owner) op reply store) :
      Works fails fleet
        (fleet.putStore owner store (before ++ ⟨aggregateId, resume reply⟩ :: after))
  -- the clean-up collects the keys under the read lock and removes them under the write lock
  | collects {owner : ι} {expired : List Uuid}
      (found : ∀ key, key ∈ expired ↔ ∃ snapshot, (fleet.instances owner).cache key = some snapshot ∧
        isExpired fleet.now snapshot) :
      Works fails fleet (fleet.putInstance owner { fleet.instances owner with expired })
  | removes {owner : ι} :
      Works fails fleet (fleet.putInstance owner
        { fleet.instances owner with
          cache := fun key => if key ∈ (fleet.instances owner).expired then none else (fleet.instances owner).cache key
          expired := [] })

inductive Appends (codec : Codec Value) (fleet : SnapshotFleet ι Value Document) : SnapshotFleet ι Value Document → Prop where
  | appends {aggregateId : Uuid} {added : List AccountEvent} {rows : Table Value}
      (holds : Holds codec aggregateId (fleet.events.currentVersion aggregateId) added rows) :
      Appends codec fleet { fleet with events := fleet.events ++ rows }

def Moves (codec : Codec Value) (accountCodec : AccountCodec Document) (config : SnapshotConfig) (fails : Prop)
    (before after : SnapshotFleet ι Value Document) : Prop :=
  Ticks codec accountCodec config before after ∨ Works fails before after ∨ Appends codec before after

end SnapshotFleet
end BankingEs
