import BankingEs.Sharding.Comparisons

/-! Redis and the shards as one call sees them. How its tries to take a lock go is given, and the
commands that give a lock back succeed. -/

namespace BankingEs
open Async

/-- A try ends without a connection, with an error before `SET` is carried out or after, with the
lock of another, or with a lock. -/
inductive Try where
  | disconnected
  | refused
  | unanswered
  | present
  | acquired
  deriving DecidableEq

/-- How the tries of each acquisition of a call go, both counted from zero. -/
abbrev Tries := Nat → Nat → Try

structure OwnLock where
  key : String
  id : Uuid
  expiresAt : Instant
  deriving DecidableEq

/-- `written` are the locks that the call wrote and that were not deleted, `assigned` the shards
that it assigned, the last first. -/
structure OwnWorld where
  now : Instant := 0
  begun : Nat := 0
  tried : Nat := 0
  acquiring : Bool := false
  written : List OwnLock := []
  shards : ShardMap := []
  assigned : List (String × String) := []

namespace OwnWorld

def set (world : OwnWorld) (key : String) (id : Uuid) (millis : Nat) : OwnWorld :=
  { world with written := ⟨key, id, world.now + Duration.fromMillis millis⟩ :: world.written, acquiring := false }

def Free (world : OwnWorld) (key : String) : Prop := ∀ lock ∈ world.written, lock.key = key → lock.expiresAt ≤ world.now

instance (world : OwnWorld) (key : String) : Decidable (world.Free key) :=
  inferInstanceAs (Decidable (∀ lock ∈ world.written, lock.key = key → lock.expiresAt ≤ world.now))

def Sets (world : OwnWorld) (key : String) (id : Uuid) (millis : Nat) (reply : Except RedisError Bool)
    (after : OwnWorld) :
    Try → Prop
  | .disconnected | .refused => (∃ error, reply = .error error) ∧ after = world
  | .unanswered => (∃ error, reply = .error error) ∧ after = if world.Free key then world.set key id millis else world
  | .present => reply = .ok false ∧ after = { world with tried := world.tried + 1 }
  | .acquired =>
    if world.Free key then reply = .ok true ∧ after = world.set key id millis
    else reply = .ok false ∧ after = { world with tried := world.tried + 1 }

def delete (world : OwnWorld) (key : String) (id : Uuid) : OwnWorld :=
  { world with written := world.written.filter fun lock => ¬(lock.key = key ∧ lock.id = id) }

def lockStep (tries : Tries) : {β : Type} → OwnWorld → LockCall β → β → OwnWorld → Prop
  | _, world, .newV4, _, after => after = { world with begun := world.begun + 1, tried := 0, acquiring := true }
  | _, world, .getConnection, reply, after =>
    (if world.acquiring ∧ tries (world.begun - 1) world.tried = .disconnected then ∃ error, reply = .error error
    else reply = .ok ()) ∧ after = world
  | _, world, .setNxPx key id millis, reply, after =>
    if millis = 0 then (∃ error, reply = .error error) ∧ after = world
    else Sets world key id millis reply after (tries (world.begun - 1) world.tried)
  | _, world, .delIfEqual key id, reply, after =>
    reply = .ok (if ∃ lock ∈ world.written, lock.key = key ∧ lock.id = id ∧ world.now < lock.expiresAt then 1 else 0) ∧
      after = world.delete key id
  | _, world, .sleep time, _, after => after = { world with now := world.now + time }

def step (tries : Tries) : {β : Type} → OwnWorld → ShardCall β → β → OwnWorld → Prop
  | _, world, .inl op, reply, after => lockStep tries world op reply after
  | _, world, .inr (.assign shardId instanceId), _, after => ∃ now, after =
    { world with shards := world.shards.assign now shardId instanceId, assigned := (shardId, instanceId) :: world.assigned }
  | _, world, .inr .iter, shards, after => shards = world.shards ∧ after = world
  | _, world, .inr .len, count, after => count = world.shards.length ∧ after = world
  | _, world, .inr (.iterInstances entries), order, after => order.Perm entries ∧ after = world

def serves (slow : Prop) (tries : Tries) : Serves ShardCall OwnWorld :=
  fun before op reply after =>
    ∃ now, before.now ≤ now ∧ (slow ∨ now = before.now) ∧ step tries { before with now } op reply after

end OwnWorld

/-- How an acquisition ends. A lock is lost if it is in Redis and the call does not know it. -/
inductive Acquisition where
  | granted
  | refused
  | lost
  deriving DecidableEq

namespace Try

/-- How the tries that are left end, and how often the call sleeps before that. -/
def ending (millis : Nat) (tries : Nat → Try) : (left index : Nat) → Acquisition × Nat
  | 0, _ => (.refused, 0)
  | left + 1, index =>
    match tries index with
    | .disconnected => (.refused, 0)
    | .refused => (.refused, 0)
    | .unanswered => (if millis = 0 then .refused else .lost, 0)
    | .acquired => (if millis = 0 then .refused else .granted, 0)
    | .present =>
      if millis = 0 then (.refused, 0) else ((ending millis tries left (index + 1)).1, (ending millis tries left (index + 1)).2 + 1)

def pauses (count : Nat) : Duration := count * Duration.fromMillis 100

end Try

namespace Tries
variable (millis : Nat) (tries : Tries)

def ending (acquisition : Nat) : Acquisition := (Try.ending millis (tries acquisition) 3 0).1

def slept (acquisition : Nat) : Duration := Try.pauses (Try.ending millis (tries acquisition) 3 0).2

/-- How acquisitions one after the other end, the first that is not granted being the last, and
how long the call sleeps in them. -/
def through : (start count : Nat) → Acquisition × Duration
  | _, 0 => (.granted, 0)
  | start, count + 1 =>
    match tries.ending millis start with
    | .granted => ((through (start + 1) count).1, tries.slept millis start + (through (start + 1) count).2)
    | .refused => (.refused, tries.slept millis start)
    | .lost => (.lost, tries.slept millis start)

end Tries
end BankingEs
