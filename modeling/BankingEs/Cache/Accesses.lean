import BankingEs.Cache.History
import BankingEs.Cache.Usage

/-! The accesses of an operation are all that it does to the shards, so that the calls of
the cache, one after another, are a run in which no map changes its order. -/

namespace BankingEs
open CacheService

namespace Cache
variable {now : Instant} {redis : Redis} {cache read : Cache} {id : Uuid}

structure Kept (read cache : Cache) : Prop where
  accounts : cache.accounts.redis = read.accounts.redis
  events : cache.events.redis = read.events.redis

theorem Kept.warmOf (kept : Kept read cache) : cache.warmOf now = read.warmOf now := by
  funext id
  simp only [Cache.warmOf, fillOf, CacheService.redisGet, EventCache.redisGet, kept.accounts, kept.events]

theorem reads_of_warmOf {access : Access} (filled : read.warmOf now id = some access) :
    ∃ account expiresAt list until_, read.accounts.redisGet now id = some ⟨some account, expiresAt⟩ ∧
      read.events.redisGet now id = some ⟨some list, until_⟩ ∧ access = .fill id account := by
  simp only [Cache.warmOf, fillOf, Option.bind_eq_some_iff, Option.map_eq_some_iff] at filled
  obtain ⟨list, ⟨⟨_, until_⟩, events, rfl⟩, account, ⟨⟨_, expiresAt⟩, found, rfl⟩, rfl⟩ := filled
  exact ⟨account, expiresAt, list, until_, found, events, rfl⟩

private theorem warm_accounts :
    (cache.warm now id (read.accounts.redisGet now id) (read.events.redisGet now id)).accounts =
      (read.warmOf now id).toList.foldl (CacheService.access now) cache.accounts := by
  rw [Cache.warmOf, fillOf]
  rcases read.accounts.redisGet now id with _ | ⟨_ | account, expiresAt⟩ <;>
    rcases read.events.redisGet now id with _ | ⟨_ | list, until_⟩ <;> rfl

private theorem warmEach_accounts (chunk : List Uuid) :
    (chunk.foldl (fun warmed accountId => warmed.warm now accountId (read.accounts.redisGet now accountId)
      (read.events.redisGet now accountId)) cache).accounts =
      (chunk.filterMap (read.warmOf now)).foldl (CacheService.access now) cache.accounts := by
  induction chunk generalizing cache with
  | nil => rfl
  | cons id chunk ih =>
    rw [List.foldl_cons, ih, warm_accounts]
    cases found : read.warmOf now id with
    | none => rw [List.filterMap_cons_none found]; rfl
    | some access => rw [List.filterMap_cons_some found]; rfl

private theorem warmChunks_accounts (call : Nat) (chunks : List (List Uuid)) :
    (cache.warmChunks now redis call chunks).2.accounts =
      ((pipelined redis call chunks).filterMap (cache.warmOf now)).foldl (CacheService.access now) cache.accounts := by
  induction chunks generalizing cache call with
  | nil => rfl
  | cons chunk chunks ih =>
    rw [warmChunks, pipelined]
    cases redis call with
    | error error => rfl
    | ok _ =>
      have warmed : Warms now (fun _ => True) cache (cache.warmChunk now chunk) :=
        warmChunk_warms chunk fun _ _ _ _ _ => trivial
      have kept : Kept cache (cache.warmChunk now chunk) := ⟨warmed.keys, warmed.eventsKeys⟩
      dsimp only
      rw [ih, kept.warmOf, List.filterMap_append, List.foldl_append, warmChunk, warmEach_accounts]

private theorem warmupCache_accounts (accountIds : List Uuid) : (cache.warmupCache now redis accountIds).2.accounts =
    (cache.warmupAccesses now redis accountIds).foldl (CacheService.access now) cache.accounts := by
  rw [warmupCache, warmupAccesses]
  split
  next => rfl
  next =>
    cases redis 0 with
    | error error => rfl
    | ok _ =>
      dsimp only
      split
      next => rfl
      next =>
        have warmed : (Cache.warmChunks now redis 1 (accountIds.toChunks cache.warmupBatchSize) { cache with
          warmingState := { cache.warmingState with isWarming := true, accountsToWarm := accountIds } }).2.accounts = _ :=
            warmChunks_accounts 1 _
        refine .trans ?_ warmed
        rcases warmChunks now redis 1 _ _ with ⟨_ | _, last⟩ <;> rfl

private theorem readThrough_accesses {earlier accounts : CacheService} (same : accounts.redis = earlier.redis) :
    (accounts.readThrough now (.ok ()) id).2 =
      (earlier.fillOf now id).toList.foldl (CacheService.access now) accounts := by
  have read : earlier.redisGet now id = accounts.redisGet now id := by
    rw [CacheService.redisGet, CacheService.redisGet, same]
  rw [fillOf, read]
  dsimp only [readThrough]
  rcases accounts.redisGet now id with _ | ⟨_ | account, expiresAt⟩ <;> rfl

private theorem perform_shards (counted : cache.accounts.config.shardCount ≠ 0) (operation : Operation) :
    (cache.perform now redis operation).2.accounts.shards =
      ((cache.accesses now redis operation).foldl (CacheService.access now) cache.accounts).shards := by
  unfold accesses
  rw [if_neg counted]
  cases operation with
  | getAccount accountId =>
    dsimp only [perform, Cache.getAccount, CacheService.getAccount]
    cases cache.accounts.entry accountId with
    | none =>
      cases command redis with
      | error error => rfl
      | ok _ => exact congrArg _ (readThrough_accesses rfl)
    | some entry =>
      dsimp only
      split
      next =>
        cases command redis with
        | error error => rfl
        | ok _ => exact congrArg _ (readThrough_accesses rfl)
      next => rfl
  | setAccount account ttl =>
    dsimp only [perform, Cache.setAccount, CacheService.setAccount, setEx, defaultTtl]
    cases CacheService.setEx (command redis) (ttl.getD cache.accounts.config.defaultTtl) <;> rfl
  | warmupCache accountIds => exact congrArg _ (warmupCache_accounts accountIds)
  | invalidateAccount accountId =>
    dsimp only [perform, Cache.invalidateAccount]
    cases command redis with
    | error error => rfl
    | ok _ => cases redis 2 <;> rfl
  | deleteAccount accountId =>
    dsimp only [perform, Cache.deleteAccount]
    cases command redis <;> rfl
  | deleteAccountEvents accountId =>
    dsimp only [perform, Cache.deleteAccountEvents]
    cases command redis <;> rfl
  | initializeService => exact congrArg _ (initializeService_same cache redis).1
  | getAccountEvents accountId | setAccountEvents accountId events ttl | cleanUp | loseKey accountId
  | loseEventsKey accountId | loseEntry accountId => rfl

theorem accessed_in_order (accesses : List Access) (memory : Memory) : ∃ evictions last,
    Memory.Accessed now memory accesses evictions last ∧
      last.accounts = accesses.foldl (CacheService.access now) memory.accounts := by
  induction accesses generalizing memory with
  | nil => exact ⟨[], memory, .done, rfl⟩
  | cons access rest ih =>
    obtain ⟨evictions, last, accessed, same⟩ := ih (memory.access now access)
    exact ⟨_, last, .access ⟨rfl, rfl, fun _ => .refl _⟩ accessed, same⟩

theorem UsageRun.perform {permits : Instant → Redis → Cache → Operation → Prop} {first before : Instant}
    {start : Cache} {usage : Uuid → Usage} {operation : Operation}
    (run : UsageRun permits first start before cache usage) (later : before < now)
    (permitted : permits now redis cache operation) (counted : cache.accounts.config.shardCount ≠ 0) :
    ∃ used, UsageRun permits first start now (cache.perform now redis operation).2 used := by
  obtain ⟨evictions, last, accessed, same⟩ := accessed_in_order (cache.accesses now redis operation) ⟨cache.accounts, usage⟩
  have next := run.call redis later permitted accessed
  rw [same, ← perform_shards counted] at next
  exact ⟨last.usage, next⟩

end Cache
end BankingEs
