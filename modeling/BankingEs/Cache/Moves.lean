import BankingEs.Cache.Operations
import BankingEs.Forgetful

/-! What the operations of the cache come down to. Apart from a successful set, every
one of them only drops copies and refills memory from what Redis holds. -/

namespace BankingEs
open Forgetful Relation

namespace CacheService
variable {cache before after : CacheService} {now : Instant} {id other : Uuid} {account held : Account}
  {wanted wider : Uuid → Prop}

inductive Move (now : Instant) (wanted : Uuid → Prop) (before : CacheService) : CacheService → Prop where
  | drops {after : CacheService} (config : after.config = before.config)
      (shards : ∀ index, (after.shards index).Sublist (before.shards index))
      (redis : ∀ id, after.redis id = before.redis id ∨ after.redis id = none) : Move now wanted before after
  | refills {id : Uuid} {account : Account} {expiresAt : Instant} (want : wanted id)
      (found : before.redis id = some ⟨some account, expiresAt⟩) (live : now < expiresAt) :
      Move now wanted before (before.updateInMemoryCache now id account)

abbrev Moves (now : Instant) (wanted : Uuid → Prop) := ReflTransGen (Move now wanted)

theorem entry_member {entry : CacheEntry} (found : cache.entry id = some entry) :
    (id, entry) ∈ cache.shards (cache.getShardIndex id) := by
  obtain ⟨before, after, split, -⟩ := List.lookup_eq_some_iff.mp found
  rw [split]
  exact List.mem_append_right _ List.mem_cons_self

theorem setShard_shards (index : Nat) (shard : Shard) (at_index : Nat) :
    (cache.setShard index shard).shards at_index = if at_index = index then shard else cache.shards at_index := by
  simp [setShard, Function.update_apply]

private theorem Move.of_redisGet {expiresAt : Instant} (want : wanted id)
    (found : cache.redisGet now id = some ⟨some account, expiresAt⟩) :
    Move now wanted cache (cache.updateInMemoryCache now id account) := by
  obtain ⟨stored, live⟩ := Option.filter_eq_some_iff.mp found
  exact .refills want stored (by simpa using live)

private theorem Move.config (move : Move now wanted before after) : after.config = before.config := by
  cases move with
  | drops config => exact config
  | refills => rfl

theorem evictEntries_sublist (policy : EvictionPolicy) (shard : Shard) : (evictEntries policy shard).Sublist shard := by
  rw [evictEntries]
  split
  · exact List.filter_sublist
  · exact List.Sublist.refl _

/-- Everything in memory after an account was put there: the new entry, and old ones
under other ids. -/
theorem mem_updateInMemoryCache {index : Nat} {entry : CacheEntry}
    (member : (other, entry) ∈ (cache.updateInMemoryCache now id account).shards index) :
    (other = id ∧ index = cache.getShardIndex id ∧
      entry = { value := account, createdAt := now, lastAccessed := now, accessCount := 1,
                ttl := cache.config.defaultTtl }) ∨
    (¬(other = id ∧ index = cache.getShardIndex id) ∧ (other, entry) ∈ cache.shards index) := by
  simp only [updateInMemoryCache, setShard_shards] at member
  split at member
  next here =>
    rcases List.mem_cons.mp member with new | old
    · cases new
      exact .inl ⟨rfl, here, rfl⟩
    · obtain ⟨kept, differs⟩ := List.mem_filter.mp old
      refine .inr ⟨fun same => by simp [same.1] at differs, ?_⟩
      rw [here]
      split at kept
      · exact (evictEntries_sublist _ _).subset kept
      · exact kept
  next elsewhere => exact .inr ⟨fun same => elsewhere same.2, member⟩

inductive Servable (cache : CacheService) (now : Instant) (id : Uuid) : Account → Prop where
  | memory {entry : CacheEntry} (member : (id, entry) ∈ cache.shards (cache.getShardIndex id))
      (live : isExpired now entry = false) : Servable cache now id entry.value
  | redis {account : Account} {expiresAt : Instant} (found : cache.redis id = some ⟨some account, expiresAt⟩)
      (live : now < expiresAt) : Servable cache now id account

private theorem isExpired_earlier {entry : CacheEntry} {later : Instant} (live : isExpired later entry = false)
    (time : now ≤ later) : isExpired now entry = false := by
  simp only [isExpired, decide_eq_false_iff_not, not_le] at live ⊢
  exact lt_of_le_of_lt (sub_le_sub_right time _) live

theorem Servable.earlier {later : Instant} (servable : Servable cache later id account) (time : now ≤ later) :
    Servable cache now id account := by
  cases servable with
  | memory member live => exact .memory member (isExpired_earlier live time)
  | redis found live => exact .redis found (lt_of_le_of_lt time live)

theorem getShardIndex_config (same : after.config = before.config) (id : Uuid) :
    after.getShardIndex id = before.getShardIndex id := by
  rw [getShardIndex, getShardIndex, same]

theorem Move.servable (move : Move now wanted before after) (servable : Servable after now id account) :
    Servable before now id account := by
  cases move with
  | drops config shards redis =>
    cases servable with
    | memory member live =>
      rw [getShardIndex_config config] at member
      exact .memory ((shards _).subset member) live
    | redis found live =>
      rcases redis id with same | gone
      · exact .redis (same ▸ found) live
      · simp [gone] at found
  | refills want stored fresh =>
    cases servable with
    | redis found live => exact .redis found live
    | memory member live =>
      rcases mem_updateInMemoryCache member with ⟨rfl, _, rfl⟩ | ⟨_, old⟩
      · exact .redis stored fresh
      · exact .memory old live

theorem Moves.servable (moves : Moves now wanted before after) (servable : Servable after now id account) :
    Servable before now id account := by
  have loses : Loses (fun cache id account => Servable cache now id account) before after :=
    Loses.of_moves (fun _ _ move _ _ => move.servable) moves
  exact loses servable

theorem store_servable {ttl : Option Duration} (servable : Servable (cache.store now account ttl) now id held) :
    id = account.id ∧ held = account ∨ id ≠ account.id ∧ Servable cache now id held := by
  cases servable with
  | memory member live =>
    rcases mem_updateInMemoryCache member with ⟨rfl, _, rfl⟩ | ⟨apart, old⟩
    · exact .inl ⟨rfl, rfl⟩
    · refine .inr ⟨?_, .memory old live⟩
      rintro rfl
      exact apart ⟨rfl, rfl⟩
  | redis found live =>
    simp only [store, updateInMemoryCache, setShard, Function.update_apply] at found
    split at found
    next same =>
      cases found
      exact .inl ⟨same, rfl⟩
    next differs => exact .inr ⟨differs, .redis found live⟩

def Misses (cache : CacheService) (now : Instant) (id : Uuid) : Prop :=
  ∀ entry, cache.entry id = some entry → isExpired now entry = true

theorem removed_drops (index : Nat) (id : Uuid) :
    Move now wanted cache (cache.setShard index ((cache.shards index).remove id)) := by
  refine .drops rfl (fun at_index => ?_) (fun _ => .inl rfl)
  rw [setShard_shards]
  split
  next same =>
    rw [same]
    exact List.filter_sublist
  next => exact List.Sublist.refl _

private theorem readThrough_moves (want : wanted id) (connection : Except String Unit) :
    Moves now wanted cache (cache.readThrough now connection id).2 := by
  cases connection with
  | error error => exact .refl
  | ok connected =>
    simp only [readThrough]
    split
    next read account expiresAt found => exact .single (.of_redisGet want found)
    all_goals exact .refl

theorem getAccount_moves (connection : Except String Unit) (id : Uuid) :
    Moves now (fun wanted => wanted = id ∧ cache.Misses now id) cache (cache.getAccount now connection id).2 := by
  simp only [getAccount]
  split
  next held entry found =>
    split
    next expired =>
      have misses : cache.Misses now id := by
        intro other same
        cases found.symm.trans same
        exact expired
      exact .head (removed_drops _ id) (readThrough_moves ⟨rfl, misses⟩ connection)
    next => exact .refl
  next found =>
    have misses : cache.Misses now id := by
      intro other same
      cases found.symm.trans same
    exact readThrough_moves ⟨rfl, misses⟩ connection

theorem getAccount_servable {connection : Except String Unit}
    (answer : (cache.getAccount now connection id).1 = .ok (some account)) : Servable cache now id account := by
  have through {dropped : CacheService} (answer : (dropped.readThrough now connection id).1 = .ok (some account))
      (same : dropped.redis = cache.redis) : Servable cache now id account := by
    cases connection with
    | error error => cases answer
    | ok connected =>
      simp only [readThrough] at answer
      split at answer
      next read account expiresAt found =>
        cases answer
        obtain ⟨stored, live⟩ := Option.filter_eq_some_iff.mp found
        exact .redis (same ▸ stored) (by simpa using live)
      all_goals cases answer
  simp only [getAccount] at answer
  split at answer
  next held entry found =>
    split at answer
    next expired => exact through answer rfl
    next live =>
      cases answer
      exact .memory (entry_member found) (by simpa using live)
  next => exact through answer rfl

theorem getAccount_connected (cache : CacheService) (now : Instant) (id : Uuid) :
    ∃ found, (cache.getAccount now (.ok ()) id).1 = .ok found := by
  have through (dropped : CacheService) : ∃ found, (dropped.readThrough now (.ok ()) id).1 = .ok found := by
    simp only [readThrough]
    split
    all_goals exact ⟨_, rfl⟩
  simp only [getAccount]
  split
  · split
    · exact through _
    · exact ⟨_, rfl⟩
  · exact through _

theorem cleanUp_drops (time : Instant) : Move now wanted cache (cache.cleanUp time) :=
  .drops rfl (fun _ => List.filter_sublist) (fun _ => .inl rfl)

theorem Moves.config (moves : Moves now wanted before after) : after.config = before.config := by
  induction moves with
  | refl => rfl
  | tail _ move ih => exact move.config.trans ih

theorem Moves.redis (moves : Moves now wanted before after) (id : Uuid) :
    after.redis id = before.redis id ∨ after.redis id = none := by
  induction moves with
  | refl => exact .inl rfl
  | tail _ move ih =>
    cases move with
    | refills => exact ih
    | drops config shards redis =>
      rcases redis id with same | gone
      · rwa [same]
      · exact .inr gone

/-- Every entry in memory was there before, or was filled with what Redis held. -/
theorem Moves.entries {fine : Uuid → CacheEntry → Prop} (moves : Moves now wanted before after)
    (held : ∀ id entry, (id, entry) ∈ before.shards (before.getShardIndex id) → fine id entry)
    (filled : ∀ id account expiresAt, wanted id → before.redis id = some ⟨some account, expiresAt⟩ → now < expiresAt →
      fine id { value := account, createdAt := now, lastAccessed := now, accessCount := 1,
                ttl := before.config.defaultTtl }) :
    ∀ id entry, (id, entry) ∈ after.shards (after.getShardIndex id) → fine id entry := by
  induction moves with
  | refl => exact held
  | tail earlier move ih =>
    intro id entry member
    cases move with
    | drops config shards redis =>
      rw [getShardIndex_config config] at member
      exact ih id entry ((shards _).subset member)
    | refills want found live =>
      rcases mem_updateInMemoryCache member with ⟨rfl, _, rfl⟩ | ⟨_, old⟩
      · rw [Moves.config earlier]
        rcases Moves.redis earlier id with same | gone
        · exact filled id _ _ want (same ▸ found) live
        · simp [gone] at found
      · exact ih id entry old

end CacheService

namespace EventCache
variable {cache before after : EventCache} {now : Instant} {id other : Uuid} {events held : VersionedEvents}

inductive Move (now : Instant) (before : EventCache) : EventCache → Prop where
  | drops {after : EventCache} (memory : ∀ id, after.memory id = before.memory id ∨ after.memory id = none)
      (redis : ∀ id, after.redis id = before.redis id ∨ after.redis id = none) : Move now before after
  | refills {id : Uuid} {events : VersionedEvents} {expiresAt : Instant}
      (found : before.redis id = some ⟨some events, expiresAt⟩) (live : now < expiresAt) :
      Move now before (before.insert id events)

abbrev Moves (now : Instant) := ReflTransGen (Move now)

private theorem Move.of_redisGet {expiresAt : Instant} (found : cache.redisGet now id = some ⟨some events, expiresAt⟩) :
    Move now cache (cache.insert id events) := by
  obtain ⟨stored, live⟩ := Option.filter_eq_some_iff.mp found
  exact .refills stored (by simpa using live)

inductive Servable (cache : EventCache) (now : Instant) (id : Uuid) (events : VersionedEvents) : Prop where
  | memory (found : cache.memory id = some events)
  | redis {expiresAt : Instant} (found : cache.redis id = some ⟨some events, expiresAt⟩) (live : now < expiresAt)

theorem Servable.earlier {later : Instant} (servable : Servable cache later id events) (time : now ≤ later) :
    Servable cache now id events := by
  cases servable with
  | memory found => exact .memory found
  | redis found live => exact .redis found (lt_of_le_of_lt time live)

private theorem insert_memory (other : Uuid) :
    (cache.insert id events).memory other = if other = id then some events else cache.memory other := by
  simp [insert, Function.update_apply]

private theorem Move.servable (move : Move now before after) (servable : Servable after now id events) :
    Servable before now id events := by
  cases move with
  | drops memory redis =>
    cases servable with
    | memory found =>
      rcases memory id with same | gone
      · exact .memory (same ▸ found)
      · simp [gone] at found
    | redis found live =>
      rcases redis id with same | gone
      · exact .redis (same ▸ found) live
      · simp [gone] at found
  | refills stored fresh =>
    cases servable with
    | redis found live => exact .redis found live
    | memory found =>
      rw [insert_memory] at found
      split at found
      next same =>
        cases found
        exact .redis (same ▸ stored) fresh
      next => exact .memory found

theorem Moves.servable (moves : Moves now before after) (servable : Servable after now id events) :
    Servable before now id events := by
  have loses : Loses (fun cache id events => Servable cache now id events) before after :=
    Loses.of_moves (fun _ _ move _ _ => move.servable) moves
  exact loses servable

theorem store_servable {defaultTtl : Duration} {ttl : Option Duration}
    (servable : Servable (cache.store now defaultTtl id events ttl) now other held) :
    other = id ∧ held = events ∨ other ≠ id ∧ Servable cache now other held := by
  cases servable with
  | memory found =>
    simp only [store, insert_memory] at found
    split at found
    next same =>
      cases found
      exact .inl ⟨same, rfl⟩
    next differs => exact .inr ⟨differs, .memory found⟩
  | redis found live =>
    simp only [store, insert, Function.update_apply] at found
    split at found
    next same =>
      cases found
      exact .inl ⟨same, rfl⟩
    next differs => exact .inr ⟨differs, .redis found live⟩

theorem Moves.redis (moves : Moves now before after) (id : Uuid) :
    after.redis id = before.redis id ∨ after.redis id = none := by
  induction moves with
  | refl => exact .inl rfl
  | tail _ move ih =>
    cases move with
    | refills => exact ih
    | drops memory redis =>
      rcases redis id with same | gone
      · rwa [same]
      · exact .inr gone

theorem getAccountEvents_moves (connection : Except String Unit) (id : Uuid) :
    Moves now cache (cache.getAccountEvents now connection id).2 := by
  simp only [getAccountEvents]
  split
  next => exact .refl
  next =>
    split
    next => exact .refl
    next =>
      split
      next read events expiresAt found => exact .single (.of_redisGet found)
      all_goals exact .refl

theorem getAccountEvents_servable {connection : Except String Unit} {answer : List AccountEvent}
    (answered : (cache.getAccountEvents now connection id).1 = .ok (some answer)) :
    ∃ events, Servable cache now id events ∧ answer = events.map Prod.snd := by
  simp only [getAccountEvents] at answered
  split at answered
  next events found =>
    cases answered
    exact ⟨events, .memory found, rfl⟩
  next =>
    split at answered
    next => cases answered
    next =>
      split at answered
      next read events expiresAt found =>
        cases answered
        obtain ⟨stored, live⟩ := Option.filter_eq_some_iff.mp found
        exact ⟨events, .redis stored (by simpa using live), rfl⟩
      all_goals cases answered

end EventCache

namespace Cache
variable {cache : Cache} {now : Instant} {id : Uuid}

def Refills (cache : Cache) (now : Instant) : Operation → Uuid → Prop
  | .getAccount accountId, id => id = accountId ∧ cache.accounts.Misses now accountId
  | .warmupCache accountIds, id => cache.warmingState.isWarming = false ∧ id ∈ accountIds ∧
      ∃ events expiresAt, cache.events.redisGet now id = some ⟨some events, expiresAt⟩
  | _, _ => False

theorem deleteKey_drops (cache : Cache) (now : Instant) (wanted : Uuid → Prop) (id : Uuid) :
    CacheService.Move now wanted cache.accounts (cache.deleteKey id).accounts :=
  .drops rfl (fun _ => List.Sublist.refl _) (update_none _ id)

theorem deleteEventsKey_drops (id : Uuid) : EventCache.Move now cache.events (cache.deleteEventsKey id).events :=
  .drops (fun _ => .inl rfl) (update_none _ id)

private theorem removeEvents_drops (id : Uuid) : EventCache.Move now cache.events (cache.removeEvents id).events :=
  .drops (update_none _ id) (fun _ => .inl rfl)

theorem invalidateAccount_moves (redis : Redis) (id : Uuid) (wanted : Uuid → Prop) :
    CacheService.Moves now wanted cache.accounts (cache.invalidateAccount redis id).2.accounts ∧
      EventCache.Moves now cache.events (cache.invalidateAccount redis id).2.events := by
  have entry : CacheService.Move now wanted cache.accounts (cache.removeEntry id).accounts :=
    CacheService.removed_drops _ id
  have events : EventCache.Move now cache.events (cache.removeEvents id).events := removeEvents_drops id
  simp only [invalidateAccount]
  split
  next => exact ⟨.single entry, .single events⟩
  next =>
    have key := deleteKey_drops ((cache.removeEntry id).removeEvents id) now wanted id
    split
    next => exact ⟨.head entry (.single key), .single events⟩
    next => exact ⟨.head entry (.single key), .head events (.single (deleteEventsKey_drops id))⟩

structure Warms (now : Instant) (wanted : Uuid → Prop) (before after : Cache) : Prop where
  accounts : CacheService.Moves now wanted before.accounts after.accounts
  events : EventCache.Moves now before.events after.events
  keys : after.accounts.redis = before.accounts.redis
  eventsKeys : after.events.redis = before.events.redis

namespace Warms
variable {wanted : Uuid → Prop} {before middle after : Cache}

private theorem refl (cache : Cache) : Warms now wanted cache cache := ⟨.refl, .refl, rfl, rfl⟩

private theorem trans (first : Warms now wanted before middle) (last : Warms now wanted middle after) :
    Warms now wanted before after :=
  ⟨first.accounts.trans last.accounts, first.events.trans last.events, last.keys.trans first.keys,
    last.eventsKeys.trans first.eventsKeys⟩

end Warms

private theorem warm_warms {wanted : Uuid → Prop} (id : Uuid)
    (want : ∀ events expiresAt, cache.events.redisGet now id = some ⟨some events, expiresAt⟩ → wanted id) :
    Warms now wanted cache (cache.warm now id (cache.accounts.redisGet now id) (cache.events.redisGet now id)) := by
  unfold warm
  split
  next account _ events expiresAt found read =>
    exact ⟨.single (.of_redisGet (want _ _ read) found), .single (.of_redisGet read), rfl, rfl⟩
  next => exact .refl _

theorem warmChunk_warms {wanted : Uuid → Prop} (chunk : List Uuid)
    (want : ∀ id ∈ chunk, ∀ events expiresAt, cache.events.redisGet now id = some ⟨some events, expiresAt⟩ → wanted id) :
    Warms now wanted cache (cache.warmChunk now chunk) := by
  -- the pipeline has read all keys before the loop, and the loop leaves them as they are
  have step (ids : List Uuid) (inside : ids ⊆ chunk) (warmed : Cache) (before : Warms now wanted cache warmed) :
      Warms now wanted cache (ids.foldl (fun warmed accountId => warmed.warm now accountId
        (cache.accounts.redisGet now accountId) (cache.events.redisGet now accountId)) warmed) := by
    induction ids generalizing warmed with
    | nil => exact before
    | cons id ids ih =>
      have keys : cache.accounts.redisGet now id = warmed.accounts.redisGet now id := by
        rw [CacheService.redisGet, CacheService.redisGet, before.keys]
      have eventsKeys : cache.events.redisGet now id = warmed.events.redisGet now id := by
        rw [EventCache.redisGet, EventCache.redisGet, before.eventsKeys]
      rw [List.foldl_cons, keys, eventsKeys]
      apply ih (fun other member => inside (List.mem_cons_of_mem _ member))
      refine before.trans (warm_warms id ?_)
      rw [← eventsKeys]
      exact want id (inside List.mem_cons_self)
  exact step chunk (List.Subset.refl _) cache (.refl _)

private theorem warmChunks_warms {wanted : Uuid → Prop} (redis : Redis) (call : Nat) (chunks : List (List Uuid))
    (want : ∀ chunk ∈ chunks, ∀ id ∈ chunk, ∀ events expiresAt,
      cache.events.redisGet now id = some ⟨some events, expiresAt⟩ → wanted id) :
    Warms now wanted cache (warmChunks now redis call chunks cache).2 := by
  induction chunks generalizing call cache with
  | nil => exact .refl _
  | cons chunk chunks ih =>
    simp only [warmChunks]
    split
    next => exact .refl _
    next =>
      have first : Warms now wanted cache (cache.warmChunk now chunk) :=
        warmChunk_warms chunk (want chunk List.mem_cons_self)
      refine first.trans (ih _ ?_)
      intro other member id inside events expiresAt found
      rw [EventCache.redisGet, first.eventsKeys] at found
      exact want other (List.mem_cons_of_mem _ member) id inside events expiresAt found

private theorem mem_toChunks {α : Type} {size : Nat} {list chunk : List α} {value : α}
    (member : chunk ∈ list.toChunks size) (inside : value ∈ chunk) : value ∈ list := by
  have go (rest : List α) (filling : Array α) (full : Array (List α))
      (member : chunk ∈ List.toChunks.go size rest filling full) : value ∈ rest ∨ value ∈ filling ∨ chunk ∈ full := by
    induction rest generalizing filling full with
    | nil =>
      simp only [List.toChunks.go, Array.toList_push, List.mem_append, List.mem_singleton] at member
      rcases member with member | rfl
      · exact .inr (.inr (by simpa using member))
      · exact .inr (.inl (by simpa using inside))
    | cons head rest ih =>
      rw [List.toChunks.go] at member
      split at member
      · rcases ih _ _ member with later | here | closed
        · exact .inl (List.mem_cons_of_mem _ later)
        · have first : value = head := by simpa using here
          exact .inl (first ▸ List.mem_cons_self)
        · rcases Array.mem_push.mp closed with closed | rfl
          · exact .inr (.inr closed)
          · exact .inr (.inl (by simpa using inside))
      · rcases ih _ _ member with later | here | closed
        · exact .inl (List.mem_cons_of_mem _ later)
        · rcases Array.mem_push.mp here with here | rfl
          · exact .inr (.inl here)
          · exact .inl List.mem_cons_self
        · exact .inr (.inr closed)
  cases list with
  | nil => simp [List.toChunks] at member
  | cons head rest =>
    cases size with
    | zero =>
      simp only [List.toChunks, List.mem_singleton] at member
      rwa [← member]
    | succ size =>
      simp only [List.toChunks] at member
      rcases go _ _ _ member with later | here | closed
      · exact List.mem_cons_of_mem _ later
      · have first : value = head := by simpa using here
        exact first ▸ List.mem_cons_self
      · simp at closed

theorem warmupCache_moves (redis : Redis) (accountIds : List Uuid) :
    CacheService.Moves now (cache.Refills now (.warmupCache accountIds)) cache.accounts
        (cache.warmupCache now redis accountIds).2.accounts ∧
      EventCache.Moves now cache.events (cache.warmupCache now redis accountIds).2.events := by
  rw [warmupCache]
  split
  next => exact ⟨.refl, .refl⟩
  next idle =>
    simp only
    split
    next => exact ⟨.refl, .refl⟩
    next =>
      split
      next => exact ⟨.refl, .refl⟩
      next =>
        generalize started : ({ cache with warmingState := _ } : Cache) = busy
        have warms : Warms now (cache.Refills now (.warmupCache accountIds)) busy
            (warmChunks now redis 1 (accountIds.toChunks cache.warmupBatchSize) busy).2 := by
          apply warmChunks_warms
          subst started
          intro chunk member id inside events expiresAt found
          exact ⟨by simpa using idle, mem_toChunks member inside, events, expiresAt, found⟩
        split
        next failed =>
          rw [failed] at warms
          subst started
          exact ⟨warms.accounts, warms.events⟩
        next finished =>
          rw [finished] at warms
          subst started
          exact ⟨warms.accounts, warms.events⟩

end Cache
end BankingEs
