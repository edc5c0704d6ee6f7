import BankingEs.Async.Program
import BankingEs.Redis.CircuitBreaker

/-! `LockManager` and `DistributedLock`: a lock is a Redis key with an id of its own as
value and a time to live. Every lock is taken and given back by one thread. -/

namespace BankingEs
open Async

inductive LockCall : Type → Type where
  | newV4 : LockCall Uuid
  | getConnection : LockCall (Except RedisError Unit)
  /-- `SET key id NX PX millis`. -/
  | setNxPx (key : String) (id : Uuid) (millis : Nat) : LockCall (Except RedisError Bool)
  /-- The script that deletes the key if its value is the id. -/
  | delIfEqual (key : String) (id : Uuid) : LockCall (Except RedisError Int)
  | sleep (time : Duration) : LockCall Unit

structure DistributedLock where
  key : String
  id : Uuid
  deriving DecidableEq

namespace LockManager

def millis (timeout : Duration) : Nat := timeout / 1000000 % UInt64.size

def attempt (lockKey : String) (lockId : Uuid) (timeout : Duration) :
    Nat → Program LockCall (Except String DistributedLock)
  | 0 => .pure (.error "Failed to acquire lock after retries")
  | tries + 1 =>
    (Program.send .getConnection).andThen fun _ =>
      (Program.send (.setNxPx lockKey lockId (millis timeout))).andThen fun acquired =>
        if acquired then .pure (.ok { key := lockKey, id := lockId })
        else do
          let _ ← Program.send (.sleep (Duration.fromMillis 100))
          attempt lockKey lockId timeout tries

def acquireLock (key : String) (timeout : Duration) : Program LockCall (Except String DistributedLock) := do
  let lockId ← Program.send .newV4
  attempt ("lock:" ++ key) lockId timeout 3

end LockManager

namespace DistributedLock

/-- A result of 0 is only logged. -/
def releaseLock (lock : DistributedLock) : Program LockCall (Except String Unit) :=
  (Program.send .getConnection).andThen fun _ =>
    (Program.send (.delIfEqual lock.key lock.id)).andThen fun _ => .pure (.ok ())

end DistributedLock

def LockManager.session (key : String) (timeout : Duration) : Program LockCall (Except String Unit) :=
  (acquireLock key timeout).andThen DistributedLock.releaseLock

/-- A key with a lock in it. `writer` is the thread that wrote it; nothing reads that. -/
structure LockEntry (ι : Type) where
  value : Uuid
  expiresAt : Instant
  writer : ι

structure Lease where
  key : String
  expiresAt : Instant
  deriving DecidableEq

/-- Redis as the locks see it, and the `leases` of the handles that were given out and
whose release has not been carried out. -/
structure LockStore (ι : Type) where
  now : Instant := 0
  issued : List (ι × Uuid) := []
  keys : String → Option (LockEntry ι) := fun _ => none
  leases : ι → Option Lease := fun _ => none

namespace LockStore
variable {ι : Type}

/-- What is under a key: it is gone when its time is up. -/
def get (store : LockStore ι) (key : String) : Option (LockEntry ι) :=
  (store.keys key).filter fun entry => store.now < entry.expiresAt

def set (store : LockStore ι) (writer : ι) (key : String) (value : Uuid) (millis : Nat) : LockStore ι :=
  { store with
    keys := Function.update store.keys key (some ⟨value, store.now + Duration.fromMillis millis, writer⟩) }

variable [DecidableEq ι]

def lend (store : LockStore ι) (holder : ι) (key : String) (millis : Nat) : LockStore ι :=
  { store with leases := Function.update store.leases holder (some ⟨key, store.now + Duration.fromMillis millis⟩) }

def giveBack (store : LockStore ι) (holder : ι) : LockStore ι :=
  { store with leases := Function.update store.leases holder none }

/-- `SET key id NX PX millis`. A command may fail before or after it is carried out, and
Redis refuses a time of zero. -/
inductive Sets (store : LockStore ι) (thread : ι) (key : String) (id : Uuid) (millis : Nat) :
    Except RedisError Bool → LockStore ι → Prop where
  | fails {error : RedisError} : Sets store thread key id millis (.error error) store
  | present (held : (store.get key).isSome) (valid : millis ≠ 0) : Sets store thread key id millis (.ok false) store
  | acquired (free : store.get key = none) (valid : millis ≠ 0) :
      Sets store thread key id millis (.ok true) ((store.set thread key id millis).lend thread key millis)
  | unanswered {error : RedisError} (free : store.get key = none) (valid : millis ≠ 0) :
      Sets store thread key id millis (.error error) (store.set thread key id millis)

inductive Releases (store : LockStore ι) (thread : ι) (key : String) (id : Uuid) :
    Except RedisError Int → LockStore ι → Prop where
  | fails {error : RedisError} : Releases store thread key id (.error error) store
  | deleted {reply : Except RedisError Int} {entry : LockEntry ι} (held : store.get key = some entry)
      (own : entry.value = id) (answers : reply = .ok 1 ∨ ∃ error, reply = .error error) :
      Releases store thread key id reply
        ({ store with keys := Function.update store.keys key none }.giveBack thread)
  | kept {reply : Except RedisError Int} (other : ∀ entry, store.get key = some entry → entry.value ≠ id)
      (answers : reply = .ok 0 ∨ ∃ error, reply = .error error) :
      Releases store thread key id reply (store.giveBack thread)

def step (thread : ι) : {β : Type} → LockStore ι → LockCall β → β → LockStore ι → Prop
  | _, store, .newV4, id, after =>
    (∀ entry ∈ store.issued, entry.2 ≠ id) ∧ after = { store with issued := (thread, id) :: store.issued }
  | _, store, .getConnection, _, after => after = store
  | _, store, .setNxPx key id millis, reply, after => Sets store thread key id millis reply after
  | _, store, .delIfEqual key id, reply, after => Releases store thread key id reply after
  | _, store, .sleep time, _, after => after = { store with now := store.now + time }

def serves (thread : ι) : Serves LockCall (LockStore ι) :=
  fun before op reply after => ∃ now, before.now ≤ now ∧ step thread { before with now } op reply after

end LockStore
end BankingEs
