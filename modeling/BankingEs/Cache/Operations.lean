import BankingEs.Cache.Service

/-! All of `CacheService`: the accounts, the lists of events kept beside them and
the warm-up. Every operation is given how the Redis calls that it awaits turn out,
in the order in which it makes them; a call that fails has no effect. -/

namespace BankingEs

abbrev VersionedEvents := List (Int × AccountEvent)

/-- The data under an `events:` key, as `RedisEntry` has it for accounts. -/
structure EventsKey where
  data : Option VersionedEvents
  expiresAt : Instant

/-- `memory` is the `event_cache`, which knows no lifetime. -/
structure EventCache where
  memory : Uuid → Option VersionedEvents := fun _ => none
  redis : Uuid → Option EventsKey := fun _ => none

namespace EventCache

def redisGet (now : Instant) (accountId : Uuid) (cache : EventCache) : Option EventsKey :=
  (cache.redis accountId).filter fun key => now < key.expiresAt

def insert (accountId : Uuid) (events : VersionedEvents) (cache : EventCache) : EventCache :=
  { cache with memory := Function.update cache.memory accountId (some events) }

def getAccountEvents (now : Instant) (connection : Except String Unit) (accountId : Uuid) (cache : EventCache) :
    Except String (Option (List AccountEvent)) × EventCache :=
  match cache.memory accountId with
  | some events => (.ok (some (events.map Prod.snd)), cache)
  | none => match connection with
    | .error error => (.error error, cache)
    | .ok () => match cache.redisGet now accountId with
      | some ⟨some events, _⟩ => (.ok (some (events.map Prod.snd)), cache.insert accountId events)
      | some ⟨none, _⟩ => (.ok none, cache)
      | none => (.ok none, cache)

def store (now : Instant) (defaultTtl : Duration) (accountId : Uuid) (events : VersionedEvents) (ttl : Option Duration)
    (cache : EventCache) : EventCache :=
  let lifetime := Duration.fromSecs (ttl.getD defaultTtl).asSecs
  let stored := { cache with redis := Function.update cache.redis accountId (some ⟨some events, now + lifetime⟩) }
  stored.insert accountId events

def setAccountEvents (now : Instant) (connection : Except String Unit) (defaultTtl : Duration) (accountId : Uuid)
    (events : VersionedEvents) (ttl : Option Duration) (cache : EventCache) : Except String Unit × EventCache :=
  match CacheService.setEx connection (ttl.getD defaultTtl) with
  | .error error => (.error error, cache)
  | .ok () => (.ok (), cache.store now defaultTtl accountId events ttl)

end EventCache

structure WarmingState where
  isWarming : Bool := false
  lastWarmup : Option Instant := none
  accountsToWarm : List Uuid := []

structure Cache where
  accounts : CacheService := {}
  events : EventCache := {}
  warmingState : WarmingState := {}
  warmupBatchSize : Nat := 100

namespace Cache

/-- How the Redis calls of one operation turn out, by their order. -/
abbrev Redis := Nat → Except String Unit

def connected : Redis := fun _ => .ok ()

def command (redis : Redis) : Except String Unit := do
  redis 0
  redis 1

def setEx (redis : Redis) (ttl : Duration) : Except String Unit := CacheService.setEx (command redis) ttl

def defaultTtl (cache : Cache) : Duration := cache.accounts.config.defaultTtl

def getAccount (now : Instant) (redis : Redis) (accountId : Uuid) (cache : Cache) :
    Except String (Option Account) × Cache :=
  let (reply, accounts) := cache.accounts.getAccount now (command redis) accountId
  (reply, { cache with accounts })

def setAccount (now : Instant) (redis : Redis) (account : Account) (ttl : Option Duration) (cache : Cache) :
    Except String Unit × Cache :=
  let (reply, accounts) := cache.accounts.setAccount now (command redis) account ttl
  (reply, { cache with accounts })

def getAccountEvents (now : Instant) (redis : Redis) (accountId : Uuid) (cache : Cache) :
    Except String (Option (List AccountEvent)) × Cache :=
  let (reply, events) := cache.events.getAccountEvents now (command redis) accountId
  (reply, { cache with events })

def setAccountEvents (now : Instant) (redis : Redis) (accountId : Uuid) (events : VersionedEvents)
    (ttl : Option Duration) (cache : Cache) : Except String Unit × Cache :=
  let (reply, events) := cache.events.setAccountEvents now (command redis) cache.defaultTtl accountId events ttl
  (reply, { cache with events })

def deleteKey (accountId : Uuid) (cache : Cache) : Cache :=
  { cache with accounts.redis := Function.update cache.accounts.redis accountId none }

def deleteEventsKey (accountId : Uuid) (cache : Cache) : Cache :=
  { cache with events.redis := Function.update cache.events.redis accountId none }

def removeEntry (accountId : Uuid) (cache : Cache) : Cache :=
  let index := cache.accounts.getShardIndex accountId
  { cache with accounts := cache.accounts.setShard index ((cache.accounts.shards index).remove accountId) }

def removeEvents (accountId : Uuid) (cache : Cache) : Cache :=
  { cache with events.memory := Function.update cache.events.memory accountId none }

/-- The key in Redis is all that is deleted. -/
def deleteAccount (redis : Redis) (accountId : Uuid) (cache : Cache) : Except String Unit × Cache :=
  match command redis with
  | .error error => (.error error, cache)
  | .ok () => (.ok (), cache.deleteKey accountId)

def deleteAccountEvents (redis : Redis) (accountId : Uuid) (cache : Cache) : Except String Unit × Cache :=
  match command redis with
  | .error error => (.error error, cache)
  | .ok () => (.ok (), cache.deleteEventsKey accountId)

def invalidateAccount (redis : Redis) (accountId : Uuid) (cache : Cache) : Except String Unit × Cache :=
  let cache := (cache.removeEntry accountId).removeEvents accountId
  match command redis with
  | .error error => (.error error, cache)
  | .ok () =>
    let cache := cache.deleteKey accountId
    match redis 2 with
    | .error error => (.error error, cache)
    | .ok () => (.ok (), cache.deleteEventsKey accountId)

def warm (now : Instant) (accountId : Uuid) (account : Option RedisEntry) (events : Option EventsKey) (cache : Cache) :
    Cache :=
  match account, events with
  | some ⟨some account, _⟩, some ⟨some events, _⟩ =>
    { cache with accounts := cache.accounts.updateInMemoryCache now accountId account
                 events := cache.events.insert accountId events }
  | _, _ => cache

def warmChunk (now : Instant) (chunk : List Uuid) (cache : Cache) : Cache :=
  chunk.foldl (fun warmed accountId => warmed.warm now accountId (cache.accounts.redisGet now accountId)
    (cache.events.redisGet now accountId)) cache

/-- The pipelines are the Redis calls from `call` on. -/
def warmChunks (now : Instant) (redis : Redis) (call : Nat) : List (List Uuid) → Cache → Except String Unit × Cache
  | [], cache => (.ok (), cache)
  | chunk :: chunks, cache =>
    match redis call with
    | .error error => (.error error, cache)
    | .ok () => warmChunks now redis (call + 1) chunks (cache.warmChunk now chunk)

/-- An error leaves `is_warming` set. The panic of `chunks(0)` is an error here. -/
def warmupCache (now : Instant) (redis : Redis) (accountIds : List Uuid) (cache : Cache) : Except String Unit × Cache :=
  if cache.warmingState.isWarming then (.ok (), cache)
  else
    let cache := { cache with
      warmingState := { cache.warmingState with isWarming := true, accountsToWarm := accountIds } }
    match redis 0 with
    | .error error => (.error error, cache)
    | .ok () =>
      if cache.warmupBatchSize = 0 then (.error "chunk size must be non-zero", cache)
      else match warmChunks now redis 1 (accountIds.toChunks cache.warmupBatchSize) cache with
        | (.error error, warmed) => (.error error, warmed)
        | (.ok (), warmed) =>
          (.ok (), { warmed with warmingState := { isWarming := false, lastWarmup := some now, accountsToWarm := [] } })

/-- The read of a test key that follows the connection is ignored. -/
def initializeService (redis : Redis) (cache : Cache) : Except String Unit × Cache :=
  if cache.warmingState.isWarming then (.ok (), cache)
  else match redis 0 with
    | .error error => (.error error, cache)
    | .ok () =>
      (.ok (), { cache with warmingState := { cache.warmingState with isWarming := true, accountsToWarm := [] } })

/-- The calls, the clean-up task, and what can go missing at any time. -/
inductive Operation where
  | getAccount (accountId : Uuid)
  | setAccount (account : Account) (ttl : Option Duration)
  | deleteAccount (accountId : Uuid)
  | getAccountEvents (accountId : Uuid)
  | setAccountEvents (accountId : Uuid) (events : VersionedEvents) (ttl : Option Duration)
  | deleteAccountEvents (accountId : Uuid)
  | invalidateAccount (accountId : Uuid)
  | warmupCache (accountIds : List Uuid)
  | initializeService
  | cleanUp
  | loseKey (accountId : Uuid)
  | loseEventsKey (accountId : Uuid)
  | loseEntry (accountId : Uuid)

inductive Reply where
  | account (result : Except String (Option Account))
  | events (result : Except String (Option (List AccountEvent)))
  | done (result : Except String Unit)

def perform (now : Instant) (redis : Redis) (cache : Cache) : Operation → Reply × Cache
  | .getAccount accountId => (cache.getAccount now redis accountId).map .account id
  | .setAccount account ttl => (cache.setAccount now redis account ttl).map .done id
  | .deleteAccount accountId => (cache.deleteAccount redis accountId).map .done id
  | .getAccountEvents accountId => (cache.getAccountEvents now redis accountId).map .events id
  | .setAccountEvents accountId events ttl => (cache.setAccountEvents now redis accountId events ttl).map .done id
  | .deleteAccountEvents accountId => (cache.deleteAccountEvents redis accountId).map .done id
  | .invalidateAccount accountId => (cache.invalidateAccount redis accountId).map .done id
  | .warmupCache accountIds => (cache.warmupCache now redis accountIds).map .done id
  | .initializeService => (cache.initializeService redis).map .done id
  | .cleanUp => (.done (.ok ()), { cache with accounts := cache.accounts.cleanUp now })
  | .loseKey accountId => (.done (.ok ()), cache.deleteKey accountId)
  | .loseEventsKey accountId => (.done (.ok ()), cache.deleteEventsKey accountId)
  | .loseEntry accountId => (.done (.ok ()), cache.removeEntry accountId)

structure Served where
  now : Instant
  operation : Operation
  reply : Reply

/-- Calls one after another, each of them permitted by the history and the state it
finds. The history grows at the end. -/
inductive Run (permits : List Served → Cache → Instant → Operation → Prop) (first : Instant) (start : Cache) :
    List Served → Instant → Cache → Prop where
  | start : Run permits first start [] first start
  | call {history : List Served} {before now : Instant} {cache : Cache} {operation : Operation} (redis : Redis)
      (run : Run permits first start history before cache) (later : before ≤ now)
      (permitted : permits history cache now operation) :
      Run permits first start (history ++ [⟨now, operation, (cache.perform now redis operation).1⟩]) now
        (cache.perform now redis operation).2

def anything : List Served → Cache → Instant → Operation → Prop := fun _ _ _ _ => True

end Cache
end BankingEs
