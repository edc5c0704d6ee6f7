import BankingEs.Async.Program
import BankingEs.Cache.Operations

/-! Calls of the cache that run at the same time. Each is a program over the single
accesses to memory and to Redis that lie between its await points. -/

namespace BankingEs
open Async

inductive LevelCall : Type → Type where
  | lookup (accountId : Uuid) : LevelCall (Option Account)
  | getConnection : LevelCall (Except String Unit)
  | get (accountId : Uuid) : LevelCall (Except String (Option RedisEntry))
  | setEx (account : Account) (ttl : Duration) : LevelCall (Except String Unit)
  | del (accountId : Uuid) : LevelCall (Except String Unit)
  | delEvents (accountId : Uuid) : LevelCall (Except String Unit)
  | update (accountId : Uuid) (account : Account) : LevelCall Unit
  | remove (accountId : Uuid) : LevelCall Unit

inductive AccountCall where
  | getAccount (accountId : Uuid)
  | setAccount (account : Account) (ttl : Option Duration)
  | invalidateAccount (accountId : Uuid)

namespace AccountCall

def accountId : AccountCall → Uuid
  | getAccount accountId => accountId
  | setAccount account _ => account.id
  | invalidateAccount accountId => accountId

def readRedis (accountId : Uuid) : Program LevelCall (Except String (Option Account)) :=
  (Program.send .getConnection).andThen fun _ => (Program.send (.get accountId)).andThen fun found =>
    match found with
    | some ⟨some account, _⟩ => do
      .send (.update accountId account)
      return .ok (some account)
    | _ => .pure (.ok none)

def getAccountProgram (accountId : Uuid) : Program LevelCall (Except String (Option Account)) := do
  match ← .send (.lookup accountId) with
  | some account => return .ok (some account)
  | none => readRedis accountId

def setAccountProgram (defaultTtl : Duration) (account : Account) (ttl : Option Duration) :
    Program LevelCall (Except String (Option Account)) :=
  (Program.send .getConnection).andThen fun _ =>
    (Program.send (.setEx account (ttl.getD defaultTtl))).andThen fun _ => do
      .send (.update account.id account)
      return .ok none

def invalidateAccountProgram (accountId : Uuid) : Program LevelCall (Except String (Option Account)) := do
  .send (.remove accountId)
  (Program.send .getConnection).andThen fun _ => (Program.send (.del accountId)).andThen fun _ =>
    (Program.send (.delEvents accountId)).andThen fun _ => .pure (.ok none)

def program (defaultTtl : Duration) : AccountCall → Program LevelCall (Except String (Option Account))
  | getAccount accountId => getAccountProgram accountId
  | setAccount account ttl => setAccountProgram defaultTtl account ttl
  | invalidateAccount accountId => invalidateAccountProgram accountId

end AccountCall

/-- A command on the key of the account. -/
inductive RedisCommand where
  | get
  | setEx
  | del
  deriving DecidableEq

/-- The cache that the calls share. Of every thread it is recorded whether it has
exchanged an account with Redis that it has yet to put in memory, and whether it has
emptied memory but not yet Redis; and of Redis, which command came last. -/
structure Levels (ι : Type) where
  now : Instant := 0
  cache : Cache := {}
  filling : ι → Bool := fun _ => false
  emptying : ι → Bool := fun _ => false
  lastCommand : Option RedisCommand := none

namespace Levels
variable {ι : Type}

inductive Passes (world : Levels ι) : Levels ι → Prop where
  | waits {now : Instant} (later : world.now ≤ now) : Passes world { world with now }
  | cleans {now : Instant} (later : world.now ≤ now) :
      Passes world { world with now, cache.accounts := world.cache.accounts.cleanUp now }

def failed {α : Type} (reply : Except String α) : Prop := ∃ error, reply = .error error

def step [DecidableEq ι] (thread : ι) : {β : Type} → Levels ι → LevelCall β → β → Levels ι → Prop
  | _, world, .lookup accountId, reply, after =>
    match world.cache.accounts.entry accountId with
    | some entry =>
      if CacheService.isExpired world.now entry then
        reply = none ∧ after = { world with cache := world.cache.removeEntry accountId }
      else reply = some entry.value ∧ after = world
    | none => reply = none ∧ after = world
  | _, world, .getConnection, reply, after =>
    (reply = .ok () ∧ after = world) ∨
    (failed reply ∧ after = { world with emptying := Function.update world.emptying thread false })
  | _, world, .get accountId, reply, after =>
    (reply = .ok (world.cache.accounts.redisGet world.now accountId) ∧
      after = { world with
        lastCommand := some .get
        filling := Function.update world.filling thread
          (((world.cache.accounts.redisGet world.now accountId).bind RedisEntry.data).isSome) }) ∨
    (failed reply ∧ after = world)
  | _, world, .setEx account ttl, reply, after =>
    (reply = .ok () ∧ ttl.asSecs ≠ 0 ∧ after = { world with
      cache.accounts.redis := Function.update world.cache.accounts.redis account.id
        (some ⟨some account, world.now + Duration.fromSecs ttl.asSecs⟩)
      filling := Function.update world.filling thread true
      lastCommand := some .setEx }) ∨
    (failed reply ∧ after = world)
  | _, world, .del accountId, reply, after =>
    (reply = .ok () ∧ after = { world with
      cache := world.cache.deleteKey accountId
      emptying := Function.update world.emptying thread false
      lastCommand := some .del }) ∨
    (failed reply ∧ after = { world with emptying := Function.update world.emptying thread false })
  | _, world, .delEvents accountId, reply, after =>
    (reply = .ok () ∧ after = { world with cache := world.cache.deleteEventsKey accountId }) ∨
    (failed reply ∧ after = world)
  | _, world, .update accountId account, _, after => after = { world with
      cache.accounts := world.cache.accounts.updateInMemoryCache world.now accountId account
      filling := Function.update world.filling thread false }
  | _, world, .remove accountId, _, after => after = { world with
      cache := (world.cache.removeEntry accountId).removeEvents accountId
      emptying := Function.update world.emptying thread true }

def serves [DecidableEq ι] (thread : ι) : Serves LevelCall (Levels ι) :=
  fun before op reply after => ∃ ready, Passes before ready ∧ step thread ready op reply after

/-- No other call is between its exchange with Redis and memory when a command changes
the key, nor between emptying memory and Redis when an account is put in memory. -/
def Undisturbed (thread : ι) (world : Levels ι) : {β : Type} → LevelCall β → β → Prop
  | _, .setEx _ _, .ok () => ∀ other ≠ thread, world.filling other = false
  | _, .del _, .ok () => ∀ other ≠ thread, world.filling other = false
  | _, .update _ _, _ => ∀ other ≠ thread, world.emptying other = false
  | _, _, _ => True

def orderly [DecidableEq ι] (thread : ι) : Serves LevelCall (Levels ι) :=
  fun before op reply after => serves thread before op reply after ∧ Undisturbed thread before op reply

end Levels
end BankingEs
