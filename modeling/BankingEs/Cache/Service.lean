import BankingEs.Application.Repository

/-! `CacheService` for accounts: an in-memory level in shards over Redis. The calls
here run one after another; the locks of the shards are not part of this model. -/

namespace BankingEs

/-- Nanoseconds on the clock of the process. -/
abbrev Instant := Int

inductive EvictionPolicy where
  | lru
  | lfu
  | ttl
  deriving DecidableEq

structure CacheConfig where
  defaultTtl : Duration := Duration.fromSecs 3600
  maxSize : Nat := 10000
  shardCount : Nat := 16
  evictionPolicy : EvictionPolicy := .lru

structure CacheEntry where
  value : Account
  createdAt : Instant
  lastAccessed : Instant
  accessCount : Nat
  ttl : Duration

/-- The data under a key as `serde_json` reads it, and when it expires; data that
is not an account reads as `none`. -/
structure RedisEntry where
  data : Option Account
  expiresAt : Instant

abbrev Shard := List (Uuid × CacheEntry)

namespace Shard

def remove (shard : Shard) (id : Uuid) : Shard := shard.filter fun entry => entry.1 ≠ id

def insert (shard : Shard) (id : Uuid) (entry : CacheEntry) : Shard := (id, entry) :: remove shard id

end Shard

/-- Redis keys are written `account:` and the id, so they are given by the id. -/
structure CacheService where
  config : CacheConfig := {}
  shards : Nat → Shard := fun _ => []
  redis : Uuid → Option RedisEntry := fun _ => none

namespace CacheService

def getShardIndex (cache : CacheService) (accountId : Uuid) : Nat := accountId.bits.toNat % cache.config.shardCount

def isExpired (now : Instant) (entry : CacheEntry) : Bool := entry.ttl ≤ now - entry.lastAccessed

def entry (cache : CacheService) (accountId : Uuid) : Option CacheEntry :=
  (cache.shards (cache.getShardIndex accountId)).lookup accountId

def setShard (cache : CacheService) (index : Nat) (shard : Shard) : CacheService :=
  { cache with shards := Function.update cache.shards index shard }

/-- `min_by_key`: the first of the entries with the least key. -/
def minByKey {α β : Type} [LE β] [DecidableLE β] (key : α → β) : List α → Option α
  | [] => none
  | entry :: entries =>
    match minByKey key entries with
    | some least => if key entry ≤ key least then some entry else some least
    | none => some entry

def victim (policy : EvictionPolicy) (shard : Shard) : Option (Uuid × CacheEntry) :=
  match policy with
  | .lru => minByKey (fun entry => entry.2.lastAccessed) shard
  | .lfu => minByKey (fun entry => entry.2.accessCount) shard
  | .ttl => minByKey (fun entry => entry.2.createdAt) shard

def evictEntries (policy : EvictionPolicy) (shard : Shard) : Shard :=
  match victim policy shard with
  | some entry => shard.remove entry.1
  | none => shard

def updateInMemoryCache (now : Instant) (accountId : Uuid) (account : Account) (cache : CacheService) : CacheService :=
  let index := cache.getShardIndex accountId
  let shard := cache.shards index
  let shard := if cache.config.maxSize ≤ shard.length then evictEntries cache.config.evictionPolicy shard else shard
  cache.setShard index (shard.insert accountId
    { value := account, createdAt := now, lastAccessed := now, accessCount := 1, ttl := cache.config.defaultTtl })

def redisGet (now : Instant) (accountId : Uuid) (cache : CacheService) : Option RedisEntry :=
  (cache.redis accountId).filter fun entry => now < entry.expiresAt

/-- The second half of `get_account`, after a miss in memory. `connection` is an
error when Redis cannot be reached or fails the command. -/
def readThrough (now : Instant) (connection : Except String Unit) (accountId : Uuid) (cache : CacheService) :
    Except String (Option Account) × CacheService :=
  match connection with
  | .error error => (.error error, cache)
  | .ok () => match cache.redisGet now accountId with
    | some ⟨some account, _⟩ => (.ok (some account), cache.updateInMemoryCache now accountId account)
    | some ⟨none, _⟩ => (.ok none, cache)
    | none => (.ok none, cache)

def getAccount (now : Instant) (connection : Except String Unit) (accountId : Uuid) (cache : CacheService) :
    Except String (Option Account) × CacheService :=
  let index := cache.getShardIndex accountId
  match cache.entry accountId with
  | some entry =>
    if isExpired now entry then
      (cache.setShard index ((cache.shards index).remove accountId)).readThrough now connection accountId
    else (.ok (some entry.value), cache)
  | none => cache.readThrough now connection accountId

/-- `SETEX`, which Redis refuses for no time at all. -/
def setEx (connection : Except String Unit) (ttl : Duration) : Except String Unit := do
  connection
  if ttl.asSecs = 0 then throw "ERR invalid expire time in 'setex' command"

theorem setEx_lasting {ttl : Duration} (lasting : ttl.asSecs ≠ 0) : setEx (.ok ()) ttl = .ok () := if_neg lasting

theorem setEx_instant {ttl : Duration} (instant : ttl.asSecs = 0) :
    setEx (.ok ()) ttl = .error "ERR invalid expire time in 'setex' command" := if_pos instant

def store (now : Instant) (account : Account) (ttl : Option Duration) (cache : CacheService) : CacheService :=
  let lifetime := Duration.fromSecs (ttl.getD cache.config.defaultTtl).asSecs
  let stored := { cache with redis := Function.update cache.redis account.id (some ⟨some account, now + lifetime⟩) }
  stored.updateInMemoryCache now account.id account

def setAccount (now : Instant) (connection : Except String Unit) (account : Account) (ttl : Option Duration)
    (cache : CacheService) : Except String Unit × CacheService :=
  match setEx connection (ttl.getD cache.config.defaultTtl) with
  | .error error => (.error error, cache)
  | .ok () => (.ok (), cache.store now account ttl)

theorem setAccount_lasting {now : Instant} {account : Account} {ttl : Option Duration} {cache : CacheService}
    (lasting : (ttl.getD cache.config.defaultTtl).asSecs ≠ 0) :
    cache.setAccount now (.ok ()) account ttl = (.ok (), cache.store now account ttl) := by
  rw [setAccount, setEx_lasting lasting]

def cleanUp (now : Instant) (cache : CacheService) : CacheService :=
  { cache with shards := fun index => (cache.shards index).filter fun entry =>
      now - entry.2.lastAccessed ≤ entry.2.ttl }

end CacheService
end BankingEs
