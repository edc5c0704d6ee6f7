import BankingEs.Cache.Levels
import Mathlib.Logic.Relation

/-! One process among several that share a Redis. The calls of its cache and the loop of its
`L1CacheUpdater` run at the same time, while the others do to Redis what they like. -/

namespace BankingEs
open Async

def deleteAccountEventsProgram (accountId : Uuid) : Program LevelCall (Except String (Option Account)) :=
  (Program.send .getConnection).andThen fun _ => (Program.send (.delEvents accountId)).andThen fun _ => .pure (.ok none)

namespace L1CacheUpdater

/-- The loop, by what its polls return. Whether the cache took the account and dropped the events is
only logged. -/
def loop (defaultTtl : Duration) : List (Except String (Option Account)) → Program LevelCall (Except String (Option Account))
  | [] => .pure (.ok none)
  | .ok (some account) :: polls => do
    let _ ← AccountCall.setAccountProgram defaultTtl account none
    let _ ← deleteAccountEventsProgram account.id
    loop defaultTtl polls
  | .ok none :: polls => loop defaultTtl polls
  | .error _ :: polls => loop defaultTtl polls

def start (defaultTtl : Duration) (subscribed : Except String Unit) (polls : List (Except String (Option Account))) :
    Program LevelCall (Except String (Option Account)) :=
  match subscribed with
  | .error error => .pure (.error error)
  | .ok () => loop defaultTtl polls

end L1CacheUpdater

inductive ProcessTask where
  | account (call : AccountCall)
  | deleteAccountEvents (accountId : Uuid)
  | updater (subscribed : Except String Unit) (polls : List (Except String (Option Account)))

def ProcessTask.program (defaultTtl : Duration) : ProcessTask → Program LevelCall (Except String (Option Account))
  | .account call => call.program defaultTtl
  | .deleteAccountEvents accountId => deleteAccountEventsProgram accountId
  | .updater subscribed polls => L1CacheUpdater.start defaultTtl subscribed polls

/-- Of every task it is recorded when it last looked up an account or exchanged one with Redis, and
of Redis, what it held at which time. -/
structure CacheProcess (ι : Type) where
  now : Instant := 0
  cache : Cache := {}
  touched : ι → Instant := fun _ => 0
  moments : List (Instant × (Uuid → Option RedisEntry)) := []

namespace CacheProcess
variable {ι : Type}

/-- Time passes, the clean-up runs, and the other processes write accounts and delete them, as
`delete_account` does here. -/
inductive Passes (process : CacheProcess ι) : CacheProcess ι → Prop where
  | waits {now : Instant} (later : process.now ≤ now) : Passes process { process with now }
  | cleans : Passes process { process with cache.accounts := process.cache.accounts.cleanUp process.now }
  | others (accounts : Uuid → Option RedisEntry) : Passes process { process with cache.accounts.redis := accounts }

def touches : {β : Type} → LevelCall β → Bool
  | _, .lookup _ => true
  | _, .get _ => true
  | _, .setEx _ _ => true
  | _, _ => false

/-- An account is put in memory soon after it was exchanged with Redis. -/
def Prompt (delay : Duration) (thread : ι) (process : CacheProcess ι) : {β : Type} → LevelCall β → Prop
  | _, .update _ _ => process.now ≤ process.touched thread + delay
  | _, _ => True

variable [DecidableEq ι]

/-- The call by itself, and what it makes of the cache. -/
def step (thread : ι) {β : Type} (process : CacheProcess ι) (op : LevelCall β) (reply : β) (cache : Cache) : Prop :=
  ∃ levels, Levels.step thread { now := process.now, cache := process.cache } op reply levels ∧ levels.cache = cache

def record (thread : ι) {β : Type} (op : LevelCall β) (process : CacheProcess ι) (cache : Cache) : CacheProcess ι :=
  { process with
    cache
    touched := if touches op then Function.update process.touched thread process.now else process.touched
    moments := process.moments ++ [(process.now, cache.accounts.redis)] }

def serves (delay : Duration) (thread : ι) : Serves LevelCall (CacheProcess ι) :=
  fun before op reply after => ∃ ready cache, Relation.ReflTransGen Passes before ready ∧ Prompt delay thread ready op ∧
    step thread ready op reply cache ∧ after = ready.record thread op cache

end CacheProcess
end BankingEs
