import BankingEs.Cache.Operations
import BankingEs.Locking

/-! The operations of the cache with the locks that they take inside of its maps. A
reference into a map lives to the end of the block it is bound in, and an operation goes on
with it. -/

namespace BankingEs
open Locking

inductive CacheLock where
  | shard (index slot : Nat)
  | events (slot : Nat)
  deriving DecidableEq

structure CacheLayout where
  shard : Nat → Layout Uuid
  events : Layout Uuid

def CacheLayout.single : CacheLayout := ⟨fun _ => ⟨1, fun _ => 0, by simp⟩, ⟨1, fun _ => 0, by simp⟩⟩

namespace CacheLocks
variable (layout : CacheLayout)

def shardMap (index : Nat) : Map Uuid CacheLock := ⟨layout.shard index, .shard index, fun _ _ => by simp⟩

def eventMap : Map Uuid CacheLock := ⟨layout.events, .events, fun _ _ => by simp⟩

def evictEntries (index : Nat) (policy : EvictionPolicy) (shard : Shard) : Traced CacheLock Shard := do
  match ← (shardMap layout index).iterMin (fun entry : Uuid × CacheEntry => entry.1) (CacheService.victim policy shard) with
  | some entry =>
    -- the item is borrowed from the map for the key of the removal
    (shardMap layout index).remove entry.1
    (shardMap layout index).release entry.1
    return shard.remove entry.1
  | none => return shard

def updateInMemoryCache (now : Instant) (accountId : Uuid) (account : Account) (cache : CacheService) :
    Traced CacheLock CacheService := do
  let index := cache.getShardIndex accountId
  let shard := cache.shards index
  (shardMap layout index).len
  let shard ← if cache.config.maxSize ≤ shard.length then evictEntries layout index cache.config.evictionPolicy shard
    else pure shard
  (shardMap layout index).insert accountId
  return cache.setShard index (shard.insert accountId
    { value := account, createdAt := now, lastAccessed := now, accessCount := 1, ttl := cache.config.defaultTtl })

def readThrough (now : Instant) (connection : Except String Unit) (accountId : Uuid) (cache : CacheService) :
    Traced CacheLock (Except String (Option Account) × CacheService) :=
  match connection with
  | .error error => return (.error error, cache)
  | .ok () => match cache.redisGet now accountId with
    | some ⟨some account, _⟩ => do
      let cache ← updateInMemoryCache layout now accountId account cache
      return (.ok (some account), cache)
    | some ⟨none, _⟩ => return (.ok none, cache)
    | none => return (.ok none, cache)

def getAccount (now : Instant) (connection : Except String Unit) (accountId : Uuid) (cache : CacheService) :
    Traced CacheLock (Except String (Option Account) × CacheService) := do
  let index := cache.getShardIndex accountId
  match ← (shardMap layout index).get accountId (cache.entry accountId) with
  | some entry =>
    if CacheService.isExpired now entry then
      -- `entry` still refers into the map
      (shardMap layout index).remove accountId
      (shardMap layout index).release accountId
      readThrough layout now connection accountId (cache.setShard index ((cache.shards index).remove accountId))
    else
      (shardMap layout index).release accountId
      return (.ok (some entry.value), cache)
  | none => readThrough layout now connection accountId cache

def setAccount (now : Instant) (connection : Except String Unit) (account : Account) (ttl : Option Duration)
    (cache : CacheService) : Traced CacheLock (Except String Unit × CacheService) :=
  match CacheService.setEx connection (ttl.getD cache.config.defaultTtl) with
  | .error error => return (.error error, cache)
  | .ok () => do
    let lifetime := Duration.fromSecs (ttl.getD cache.config.defaultTtl).asSecs
    let stored := { cache with redis := Function.update cache.redis account.id (some ⟨some account, now + lifetime⟩) }
    let cache ← updateInMemoryCache layout now account.id account stored
    return (.ok (), cache)

def getAccountEvents (now : Instant) (connection : Except String Unit) (accountId : Uuid) (cache : EventCache) :
    Traced CacheLock (Except String (Option (List AccountEvent)) × EventCache) := do
  match ← (eventMap layout).get accountId (cache.memory accountId) with
  | some events =>
    (eventMap layout).release accountId
    return (.ok (some (events.map Prod.snd)), cache)
  | none =>
    match connection with
    | .error error => return (.error error, cache)
    | .ok () =>
      match cache.redisGet now accountId with
      | some ⟨some events, _⟩ =>
        (eventMap layout).insert accountId
        return (.ok (some (events.map Prod.snd)), cache.insert accountId events)
      | some ⟨none, _⟩ => return (.ok none, cache)
      | none => return (.ok none, cache)

def setAccountEvents (now : Instant) (connection : Except String Unit) (defaultTtl : Duration) (accountId : Uuid)
    (events : VersionedEvents) (ttl : Option Duration) (cache : EventCache) :
    Traced CacheLock (Except String Unit × EventCache) :=
  match CacheService.setEx connection (ttl.getD defaultTtl) with
  | .error error => return (.error error, cache)
  | .ok () => do
    (eventMap layout).insert accountId
    return (.ok (), cache.store now defaultTtl accountId events ttl)

def invalidateAccount (redis : Cache.Redis) (accountId : Uuid) (cache : Cache) :
    Traced CacheLock (Except String Unit × Cache) := do
  (shardMap layout (cache.accounts.getShardIndex accountId)).remove accountId
  (eventMap layout).remove accountId
  return cache.invalidateAccount redis accountId

def warm (now : Instant) (accountId : Uuid) (account : Option RedisEntry) (events : Option EventsKey) (cache : Cache) :
    Traced CacheLock Cache :=
  match account, events with
  | some ⟨some account, _⟩, some ⟨some events, _⟩ => do
    let accounts ← updateInMemoryCache layout now accountId account cache.accounts
    (eventMap layout).insert accountId
    return { cache with accounts, events := cache.events.insert accountId events }
  | _, _ => return cache

def warmEach (now : Instant) (read : Cache) : List Uuid → Cache → Traced CacheLock Cache
  | [], cache => return cache
  | accountId :: chunk, cache => do
    let cache ← warm layout now accountId (read.accounts.redisGet now accountId) (read.events.redisGet now accountId) cache
    warmEach now read chunk cache

def warmChunks (now : Instant) (redis : Cache.Redis) (call : Nat) :
    List (List Uuid) → Cache → Traced CacheLock (Except String Unit × Cache)
  | [], cache => return (.ok (), cache)
  | chunk :: chunks, cache =>
    match redis call with
    | .error error => return (.error error, cache)
    | .ok () => do
      let cache ← warmEach layout now cache chunk cache
      warmChunks now redis (call + 1) chunks cache

def warmupCache (now : Instant) (redis : Cache.Redis) (accountIds : List Uuid) (cache : Cache) :
    Traced CacheLock (Except String Unit × Cache) :=
  if cache.warmingState.isWarming then return (.ok (), cache)
  else
    let cache := { cache with
      warmingState := { cache.warmingState with isWarming := true, accountsToWarm := accountIds } }
    match redis 0 with
    | .error error => return (.error error, cache)
    | .ok () =>
      if cache.warmupBatchSize = 0 then return (.error "chunk size must be non-zero", cache)
      else do
        match ← warmChunks layout now redis 1 (accountIds.toChunks cache.warmupBatchSize) cache with
        | (.error error, warmed) => return (.error error, warmed)
        | (.ok (), warmed) =>
          return (.ok (), { warmed with
            warmingState := { isWarming := false, lastWarmup := some now, accountsToWarm := [] } })

def cleanUp (now : Instant) (cache : CacheService) : Traced CacheLock CacheService :=
  ⟨cache.cleanUp now, (List.range cache.config.shardCount).flatMap fun index => (shardMap layout index).retain.trace⟩

/-- `get_shard_index` divides by the number of shards: without any the call panics there,
before it has taken a lock. -/
def onShards (cache : CacheService) (call : Traced CacheLock α) : Traced CacheLock α :=
  if cache.config.shardCount = 0 then ⟨call.value, []⟩ else call

/-- The operations that only speak to Redis, and the losses, take no lock of a map. -/
def perform (now : Instant) (redis : Cache.Redis) (cache : Cache) :
    Cache.Operation → Traced CacheLock (Cache.Reply × Cache)
  | .getAccount accountId => onShards cache.accounts do
    let (reply, accounts) ← getAccount layout now (Cache.command redis) accountId cache.accounts
    return (.account reply, { cache with accounts })
  | .setAccount account ttl => onShards cache.accounts do
    let (reply, accounts) ← setAccount layout now (Cache.command redis) account ttl cache.accounts
    return (.done reply, { cache with accounts })
  | .getAccountEvents accountId => do
    let (reply, events) ← getAccountEvents layout now (Cache.command redis) accountId cache.events
    return (.events reply, { cache with events })
  | .setAccountEvents accountId events ttl => do
    let (reply, events) ← setAccountEvents layout now (Cache.command redis) cache.defaultTtl accountId events ttl
      cache.events
    return (.done reply, { cache with events })
  | .invalidateAccount accountId => onShards cache.accounts do
    let (reply, cache) ← invalidateAccount layout redis accountId cache
    return (.done reply, cache)
  | .warmupCache accountIds => onShards cache.accounts do
    let (reply, cache) ← warmupCache layout now redis accountIds cache
    return (.done reply, cache)
  | .cleanUp => do
    let accounts ← cleanUp layout now cache.accounts
    return (.done (.ok ()), { cache with accounts })
  | operation => return cache.perform now redis operation

end CacheLocks
end BankingEs
