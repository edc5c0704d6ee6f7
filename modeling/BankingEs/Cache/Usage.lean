import BankingEs.Cache.Operations

/-! How the entries in memory are used. An operation comes down to a few accesses to the
shards. Beside them it is counted when and how often each entry was used, and what is selected to
be evicted is noted with what the shard held by then. -/

namespace BankingEs

structure Usage where
  lastUse : Instant := 0
  uses : Nat := 0

inductive Access where
  | fill (accountId : Uuid) (account : Account)
  | hit (accountId : Uuid)
  | remove (accountId : Uuid)
  | cleanUp

structure Eviction where
  shard : Shard
  usage : Uuid → Usage
  victim : Uuid × CacheEntry

structure Memory where
  accounts : CacheService
  usage : Uuid → Usage := fun _ => {}

namespace CacheService

def access (now : Instant) (cache : CacheService) : Access → CacheService
  | .fill accountId account => cache.updateInMemoryCache now accountId account
  | .hit _ => cache
  | .remove accountId =>
    let index := cache.getShardIndex accountId
    cache.setShard index ((cache.shards index).remove accountId)
  | .cleanUp => cache.cleanUp now

def fillOf (now : Instant) (cache : CacheService) (accountId : Uuid) : Option Access :=
  ((cache.redisGet now accountId).bind RedisEntry.data).map (.fill accountId)

def makeRoom (cache : CacheService) (accountId : Uuid) : Shard :=
  let shard := cache.shards (cache.getShardIndex accountId)
  if cache.config.maxSize ≤ shard.length then evictEntries cache.config.evictionPolicy shard else shard

/-- Maps are iterated in any order. -/
structure Shuffled (before after : CacheService) : Prop where
  config : after.config = before.config
  redis : after.redis = before.redis
  shards : ∀ index, (after.shards index).Perm (before.shards index)

end CacheService

namespace Memory

/-- To put an account in is a further use of its entry if that is still there. -/
def use (now : Instant) (memory : Memory) : Access → Uuid → Usage
  | .fill accountId _ =>
    let refreshed := (memory.accounts.makeRoom accountId).any fun entry => entry.1 = accountId
    Function.update memory.usage accountId ⟨now, if refreshed then (memory.usage accountId).uses + 1 else 1⟩
  | .hit accountId => Function.update memory.usage accountId ⟨now, (memory.usage accountId).uses + 1⟩
  | .remove _ => memory.usage
  | .cleanUp => memory.usage

def access (now : Instant) (memory : Memory) (access : Access) : Memory :=
  ⟨memory.accounts.access now access, memory.use now access⟩

def evicted (memory : Memory) : Access → List Eviction
  | .fill accountId _ =>
    let shard := memory.accounts.shards (memory.accounts.getShardIndex accountId)
    if memory.accounts.config.maxSize ≤ shard.length then
      (CacheService.victim memory.accounts.config.evictionPolicy shard).toList.map (⟨shard, memory.usage, ·⟩)
    else []
  | _ => []

inductive Accessed (now : Instant) : Memory → List Access → List Eviction → Memory → Prop where
  | done {memory : Memory} : Accessed now memory [] [] memory
  | access {memory last : Memory} {accounts : CacheService} {access : Access} {rest : List Access}
      {evictions : List Eviction} (shuffled : memory.accounts.Shuffled accounts)
      (later : Accessed now (({ memory with accounts } : Memory).access now access) rest evictions last) :
      Accessed now memory (access :: rest) (({ memory with accounts } : Memory).evicted access ++ evictions) last

end Memory

namespace Cache

/-- The ids of the chunks that a pipeline was executed for. -/
def pipelined (redis : Redis) (call : Nat) : List (List Uuid) → List Uuid
  | [] => []
  | chunk :: chunks =>
    match redis call with
    | .error _ => []
    | .ok () => chunk ++ pipelined redis (call + 1) chunks

/-- What a warm-up puts into memory for an account of which Redis holds both halves. -/
def warmOf (now : Instant) (cache : Cache) (accountId : Uuid) : Option Access :=
  ((cache.events.redisGet now accountId).bind EventsKey.data).bind fun _ => cache.accounts.fillOf now accountId

def warmupAccesses (now : Instant) (redis : Redis) (cache : Cache) (accountIds : List Uuid) : List Access :=
  if cache.warmingState.isWarming then []
  else match redis 0 with
    | .error _ => []
    | .ok () =>
      if cache.warmupBatchSize = 0 then []
      else (pipelined redis 1 (accountIds.toChunks cache.warmupBatchSize)).filterMap (cache.warmOf now)

/-- Without shards `get_shard_index` panics. -/
def accesses (now : Instant) (redis : Redis) (cache : Cache) (operation : Operation) : List Access :=
  if cache.accounts.config.shardCount = 0 then []
  else match operation with
    | .getAccount accountId =>
      let refill := match command redis with
        | .error _ => []
        | .ok () => (cache.accounts.fillOf now accountId).toList
      match cache.accounts.entry accountId with
      | some entry => if CacheService.isExpired now entry then .remove accountId :: refill else [.hit accountId]
      | none => refill
    | .setAccount account ttl =>
      match setEx redis (ttl.getD cache.defaultTtl) with
      | .error _ => []
      | .ok () => [.fill account.id account]
    | .invalidateAccount accountId => [.remove accountId]
    | .warmupCache accountIds => cache.warmupAccesses now redis accountIds
    | .cleanUp => [.cleanUp]
    | .loseEntry accountId => [.remove accountId]
    | .deleteAccount _ | .getAccountEvents _ | .setAccountEvents .. | .deleteAccountEvents _ | .initializeService
    | .loseKey _ | .loseEventsKey _ => []

def withShards (cache : Cache) (shards : Nat → Shard) : Cache := { cache with accounts.shards := shards }

/-- Calls at strictly increasing times. -/
inductive UsageRun (permits : Instant → Redis → Cache → Operation → Prop) (first : Instant) (start : Cache) :
    Instant → Cache → (Uuid → Usage) → Prop where
  | start : UsageRun permits first start first start fun _ => {}
  | call {evictions : List Eviction} {before now : Instant} {cache : Cache} {usage : Uuid → Usage}
      {operation : Operation} {last : Memory} (redis : Redis) (run : UsageRun permits first start before cache usage)
      (later : before < now) (permitted : permits now redis cache operation)
      (accessed : Memory.Accessed now ⟨cache.accounts, usage⟩ (cache.accesses now redis operation) evictions last) :
      UsageRun permits first start now ((cache.perform now redis operation).2.withShards last.accounts.shards) last.usage

/-- A call gets to an entry that it selects to be evicted. It has removed none before, neither an
expired one nor another victim, since it would block there. -/
inductive Selects (now : Instant) (redis : Redis) (cache : Cache) (usage : Uuid → Usage) (operation : Operation)
    (eviction : Eviction) : Prop where
  | selects {earlier rest : List Access} {access : Access} {reached : Memory} {accounts : CacheService}
      (split : cache.accesses now redis operation = earlier ++ access :: rest) (kept : ∀ id, .remove id ∉ earlier)
      (accessed : Memory.Accessed now ⟨cache.accounts, usage⟩ earlier [] reached)
      (shuffled : reached.accounts.Shuffled accounts)
      (selected : eviction ∈ ({ reached with accounts } : Memory).evicted access) :
      Selects now redis cache usage operation eviction

end Cache
end BankingEs
