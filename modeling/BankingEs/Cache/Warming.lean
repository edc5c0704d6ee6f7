import BankingEs.Async.Program
import BankingEs.Cache.Operations

/-! `initialize` and `warmup_cache` as they run at the same time. They share the warming
state, which is behind a lock: `initialize` keeps the guard while it waits for Redis,
`warmup_cache` only in two sections that await nothing. -/

namespace BankingEs
open Async

structure WarmingData where
  account : Option RedisEntry
  events : Option EventsKey

def WarmingData.isComplete (data : WarmingData) : Bool :=
  (data.account.bind RedisEntry.data).isSome && (data.events.bind EventsKey.data).isSome

/-- The sections that hold the guard, and what is awaited outside of them. -/
inductive WarmingCall : Type → Type where
  | lockState : WarmingCall Bool
  | unlockState : WarmingCall Unit
  | markInitialized : WarmingCall Unit
  | startWarming (accountIds : List Uuid) : WarmingCall Bool
  | finishWarming : WarmingCall Unit
  | getConnection : WarmingCall (Except String Unit)
  | getTest : WarmingCall (Except String Unit)
  | query (chunk : List Uuid) : WarmingCall (Except String (List WarmingData))
  | warm (accountId : Uuid) (data : WarmingData) : WarmingCall (Except String Unit)

inductive WarmingOperation where
  | initializeService
  | warmupCache (accountIds : List Uuid)

namespace WarmingOperation

/-- The guard is dropped on every way out. -/
def initializeProgram : Program WarmingCall (Except String Unit) := do
  let warming ← .send .lockState
  if warming then return .ok ()
  else
    match ← .send .getConnection with
    | .error error =>
      .send .unlockState
      return .error error
    | .ok () =>
      let _ ← .send .getTest
      .send .markInitialized
      return .ok ()

def warmEach : List (Uuid × WarmingData) → Program WarmingCall (Except String Unit)
  | [] => .pure (.ok ())
  | (accountId, data) :: rest => (Program.send (.warm accountId data)).andThen fun _ => warmEach rest

def warmChunksProgram : List (List Uuid) → Program WarmingCall (Except String Unit)
  | [] => .pure (.ok ())
  | chunk :: chunks => (Program.send (.query chunk)).andThen fun results =>
    (warmEach (chunk.zip results)).andThen fun _ => warmChunksProgram chunks

def finishProgram : Program WarmingCall (Except String Unit) := do
  .send .finishWarming
  return .ok ()

/-- The panic of `chunks(0)` is an error here. -/
def fetchProgram (batchSize : Nat) (accountIds : List Uuid) : Program WarmingCall (Except String Unit) :=
  if batchSize = 0 then .pure (.error "chunk size must be non-zero")
  else (warmChunksProgram (accountIds.toChunks batchSize)).andThen fun _ => finishProgram

def warmupCacheProgram (batchSize : Nat) (accountIds : List Uuid) : Program WarmingCall (Except String Unit) := do
  let warming ← .send (.startWarming accountIds)
  if warming then return .ok ()
  else (Program.send .getConnection).andThen fun _ => fetchProgram batchSize accountIds

def program (batchSize : Nat) : WarmingOperation → Program WarmingCall (Except String Unit)
  | initializeService => initializeProgram
  | warmupCache accountIds => warmupCacheProgram batchSize accountIds

end WarmingOperation

/-- `holder` is the call that has the guard of the warming state across its awaits. -/
structure Warming (ι : Type) where
  now : Instant := 0
  cache : Cache := {}
  holder : Option ι := none

namespace Warming
variable {ι : Type}

def setState (state : WarmingState) (world : Warming ι) : Warming ι := { world with cache.warmingState := state }

/-- Any call to Redis may fail. Without shards `get_shard_index` panics, which is an error here. -/
def step (thread : ι) : {β : Type} → Warming ι → WarmingCall β → β → Warming ι → Prop
  | _, world, .lockState, warming, after =>
    world.holder = none ∧ warming = world.cache.warmingState.isWarming ∧
      after = if warming then world else { world with holder := some thread }
  | _, world, .unlockState, _, after => after = { world with holder := none }
  | _, world, .markInitialized, _, after =>
    after = { world.setState { world.cache.warmingState with isWarming := true, accountsToWarm := [] } with holder := none }
  | _, world, .startWarming accountIds, warming, after =>
    world.holder = none ∧ warming = world.cache.warmingState.isWarming ∧
      after = if warming then world
        else world.setState { world.cache.warmingState with isWarming := true, accountsToWarm := accountIds }
  | _, world, .finishWarming, _, after =>
    world.holder = none ∧ after = world.setState { isWarming := false, lastWarmup := some world.now, accountsToWarm := [] }
  | _, world, .getConnection, _, after => after = world
  | _, world, .getTest, _, after => after = world
  | _, world, .query chunk, reply, after =>
    after = world ∧ ∀ results, reply = .ok results → results = chunk.map fun accountId =>
      ⟨world.cache.accounts.redisGet world.now accountId, world.cache.events.redisGet world.now accountId⟩
  | _, world, .warm accountId data, reply, after =>
    if world.cache.accounts.config.shardCount = 0 ∧ data.isComplete then
      reply = .error "attempt to calculate the remainder with a divisor of zero" ∧ after = world
    else
      reply = .ok () ∧ after = { world with cache := world.cache.warm world.now accountId data.account data.events }

def serves (thread : ι) : Serves WarmingCall (Warming ι) :=
  fun before op reply after => ∃ now, before.now ≤ now ∧ step thread { before with now } op reply after

end Warming
end BankingEs
