import Mathlib
import BankingEs.Cache.Accesses
import BankingEs.Cache.Locks
import BankingEs.Proofs.CacheShards

/-! Which operations of the cache block on themselves: those that remove an entry while they
still refer to one in its slot, for an entry that has expired or a shard that is full. -/

namespace BankingEs.Proofs.SelfBlocking
open Locking Cache CacheLocks CacheFreshness

variable {layout : CacheLayout} {now : Instant} {redis : Cache.Redis}

section Erasure
variable {cache : Cache} {accounts : CacheService} {events : EventCache} {accountId : Uuid}

@[simp] theorem evictEntries_value (index : Nat) (policy : EvictionPolicy) (shard : Shard) :
    (evictEntries layout index policy shard).value = CacheService.evictEntries policy shard := by
  unfold CacheLocks.evictEntries CacheService.evictEntries
  rw [bind_value]
  dsimp only [Map.iterMin]
  cases CacheService.victim policy shard with
  | none => rfl
  | some entry => rfl

@[simp] theorem updateInMemoryCache_value (account : Account) :
    (updateInMemoryCache layout now accountId account accounts).value =
      accounts.updateInMemoryCache now accountId account := by
  unfold CacheLocks.updateInMemoryCache CacheService.updateInMemoryCache
  dsimp only
  by_cases full : accounts.config.maxSize ≤ (accounts.shards (accounts.getShardIndex accountId)).length
  · rw [if_pos full, if_pos full, bind_value, bind_value, evictEntries_value]
    rfl
  · rw [if_neg full, if_neg full]
    rfl

@[simp] theorem readThrough_value (connection : Except String Unit) :
    (readThrough layout now connection accountId accounts).value = accounts.readThrough now connection accountId := by
  unfold CacheLocks.readThrough CacheService.readThrough
  cases connection with
  | error error => rfl
  | ok _ =>
    dsimp only
    rcases accounts.redisGet now accountId with _ | ⟨_ | account, expiresAt⟩
    · rfl
    · rfl
    · dsimp only
      rw [bind_value, updateInMemoryCache_value]
      rfl

@[simp] theorem getAccount_value (connection : Except String Unit) :
    (getAccount layout now connection accountId accounts).value = accounts.getAccount now connection accountId := by
  unfold CacheLocks.getAccount CacheService.getAccount
  cases accounts.entry accountId with
  | none => exact readThrough_value connection
  | some entry =>
    simp only [Map.get, bind_value]
    split
    next => exact readThrough_value connection
    next => rfl

@[simp] theorem setAccount_value (connection : Except String Unit) (account : Account) (ttl : Option Duration) :
    (setAccount layout now connection account ttl accounts).value = accounts.setAccount now connection account ttl := by
  unfold CacheLocks.setAccount CacheService.setAccount
  cases CacheService.setEx connection (ttl.getD accounts.config.defaultTtl) with
  | error error => rfl
  | ok _ =>
    dsimp only
    rw [bind_value, updateInMemoryCache_value]
    rfl

@[simp] theorem getAccountEvents_value (connection : Except String Unit) :
    (getAccountEvents layout now connection accountId events).value = events.getAccountEvents now connection accountId := by
  unfold CacheLocks.getAccountEvents EventCache.getAccountEvents
  cases events.memory accountId with
  | some found => rfl
  | none =>
    cases connection with
    | error error => rfl
    | ok _ =>
      rw [bind_value]
      rcases events.redisGet now accountId with _ | ⟨_ | found, expiresAt⟩ <;> rfl

@[simp] theorem setAccountEvents_value (connection : Except String Unit) (defaultTtl : Duration)
    (list : VersionedEvents) (ttl : Option Duration) :
    (setAccountEvents layout now connection defaultTtl accountId list ttl events).value =
      events.setAccountEvents now connection defaultTtl accountId list ttl := by
  rw [CacheLocks.setAccountEvents, EventCache.setAccountEvents]
  cases CacheService.setEx connection (ttl.getD defaultTtl) <;> rfl

@[simp] theorem warm_value (account : Option RedisEntry) (list : Option EventsKey) :
    (warm layout now accountId account list cache).value = cache.warm now accountId account list := by
  rcases account with _ | ⟨_ | account, expiresAt⟩
  · rfl
  · rfl
  · rcases list with _ | ⟨_ | list, expiresAt⟩
    · rfl
    · rfl
    · rw [CacheLocks.warm, bind_value, updateInMemoryCache_value]
      rfl

private theorem warmEach_value (read : Cache) (chunk : List Uuid) :
    (warmEach layout now read chunk cache).value = chunk.foldl (fun warmed accountId =>
      warmed.warm now accountId (read.accounts.redisGet now accountId) (read.events.redisGet now accountId)) cache := by
  induction chunk generalizing cache with
  | nil => rfl
  | cons accountId chunk ih =>
    rw [warmEach, bind_value, warm_value, ih]
    rfl

private theorem warmChunks_value (call : Nat) (chunks : List (List Uuid)) :
    (warmChunks layout now redis call chunks cache).value = cache.warmChunks now redis call chunks := by
  induction chunks generalizing cache call with
  | nil => rfl
  | cons chunk chunks ih =>
    rw [CacheLocks.warmChunks, Cache.warmChunks]
    cases redis call with
    | error error => rfl
    | ok _ =>
      dsimp only
      rw [bind_value, warmEach_value, ih]
      rfl

@[simp] theorem warmupCache_value (accountIds : List Uuid) :
    (warmupCache layout now redis accountIds cache).value = cache.warmupCache now redis accountIds := by
  unfold CacheLocks.warmupCache Cache.warmupCache
  split
  next => rfl
  next =>
    cases redis 0 with
    | error error => rfl
    | ok _ =>
      dsimp only
      split
      next => rfl
      next =>
        rw [bind_value, warmChunks_value]
        rcases Cache.warmChunks _ _ _ _ _ with ⟨_ | _, warmed⟩ <;> rfl

@[simp] theorem onShards_value {α : Type} (call : Traced CacheLock α) : (onShards accounts call).value = call.value := by
  unfold onShards
  split <;> rfl

/-- Without the locks the operations are those of the cache. -/
theorem perform_value (operation : Operation) :
    (perform layout now redis cache operation).value = cache.perform now redis operation := by
  cases operation with
  | getAccount accountId => simp [CacheLocks.perform, Cache.perform, Cache.getAccount]
  | setAccount account ttl => simp [CacheLocks.perform, Cache.perform, Cache.setAccount]
  | getAccountEvents accountId => simp [CacheLocks.perform, Cache.perform, Cache.getAccountEvents]
  | setAccountEvents accountId events ttl => simp [CacheLocks.perform, Cache.perform, Cache.setAccountEvents]
  | warmupCache accountIds => simp [CacheLocks.perform, Cache.perform, Prod.map]
  | invalidateAccount accountId => simp [CacheLocks.perform, Cache.perform, CacheLocks.invalidateAccount, Prod.map]
  | deleteAccount accountId | deleteAccountEvents accountId | initializeService
  | cleanUp | loseKey accountId | loseEventsKey accountId | loseEntry accountId => rfl

end Erasure

/-- An account goes into its shard by way of an eviction. -/
def Full (accounts : CacheService) (id : Uuid) : Prop :=
  accounts.config.maxSize ≤ (accounts.shards (accounts.getShardIndex id)).length ∧
    accounts.shards (accounts.getShardIndex id) ≠ []

instance (accounts : CacheService) (id : Uuid) : Decidable (Full accounts id) :=
  inferInstanceAs (Decidable (_ ∧ _))

section Updates
variable {accounts : CacheService} {id : Uuid} {account : Account}

/-- A shard that is due for an eviction and not full is one of no room at all. -/
theorem empty_of_room (room : ¬ Full accounts id)
    (reached : accounts.config.maxSize ≤ (accounts.shards (accounts.getShardIndex id)).length) :
    accounts.shards (accounts.getShardIndex id) = [] := by
  by_contra filled
  exact room ⟨reached, filled⟩

private theorem evictEntries_blocks (index : Nat) (policy : EvictionPolicy) {shard : Shard} (filled : shard ≠ [])
    (rest : List (Locking.Event CacheLock)) : Blocks [] ((evictEntries layout index policy shard).trace ++ rest) := by
  obtain ⟨entry, found⟩ := CacheShards.victim_of_ne_nil policy filled
  rw [CacheLocks.evictEntries, found, bind_trace, List.append_assoc]
  exact Map.iterMin_remove_blocks (fun entry : Uuid × CacheEntry => entry.1) entry _

private theorem evictEntries_quiet (index : Nat) (policy : EvictionPolicy) :
    Quiet (evictEntries layout index policy []).trace := by
  have none_found : CacheService.victim policy [] = none := by cases policy <;> rfl
  rw [CacheLocks.evictEntries, none_found]
  exact (Map.iterMin_none_quiet _).append .nil

private theorem updateInMemoryCache_blocks (full : Full accounts id) (rest : List (Locking.Event CacheLock)) :
    Blocks [] ((updateInMemoryCache layout now id account accounts).trace ++ rest) := by
  dsimp only [CacheLocks.updateInMemoryCache]
  rw [bind_trace, if_pos full.1, bind_trace, List.append_assoc, Map.len_quiet.blocks_append, List.append_assoc]
  exact evictEntries_blocks _ _ full.2 _

private theorem updateInMemoryCache_quiet (room : ¬ Full accounts id) :
    Quiet (updateInMemoryCache layout now id account accounts).trace := by
  dsimp only [CacheLocks.updateInMemoryCache]
  rw [bind_trace]
  apply Map.len_quiet.append
  split
  next reached =>
    rw [empty_of_room room reached]
    exact (evictEntries_quiet _ _).append ((Map.insert_quiet _).append .nil)
  next => exact (Map.insert_quiet _).append .nil

private theorem updateInMemoryCache_blocks_iff :
    Blocks [] (updateInMemoryCache layout now id account accounts).trace ↔ Full accounts id := by
  by_cases full : Full accounts id
  · refine iff_of_true ?_ full
    rw [← List.append_nil (updateInMemoryCache layout now id account accounts).trace]
    exact updateInMemoryCache_blocks full []
  · exact iff_of_false (updateInMemoryCache_quiet full).free full

end Updates

section Calls
variable {accounts : CacheService} {events : EventCache} {id : Uuid} {account : Account} {ttl : Option Duration}
  {connection : Except String Unit}

private theorem readThrough_blocks_iff : Blocks [] (readThrough layout now connection id accounts).trace ↔
    connection = .ok () ∧ (accounts.fillOf now id).isSome ∧ Full accounts id := by
  cases connection with
  | error error => simp [CacheLocks.readThrough, Blocks]
  | ok _ =>
    rcases found : accounts.redisGet now id with _ | ⟨_ | account, expiresAt⟩
    · simp [CacheLocks.readThrough, CacheService.fillOf, found, Blocks]
    · simp [CacheLocks.readThrough, CacheService.fillOf, found, Blocks]
    · simp [CacheLocks.readThrough, CacheService.fillOf, found, updateInMemoryCache_blocks_iff]

theorem getAccount_blocks_iff : Blocks [] (getAccount layout now connection id accounts).trace ↔
    match accounts.entry id with
    | some entry => CacheService.isExpired now entry
    | none => connection = .ok () ∧ (accounts.fillOf now id).isSome ∧ Full accounts id := by
  rw [CacheLocks.getAccount]
  cases accounts.entry id with
  | none =>
    rw [bind_trace, (Map.get_none_quiet id).blocks_append]
    exact readThrough_blocks_iff
  | some entry =>
    dsimp only
    rw [bind_trace]
    dsimp only [Map.get]
    split
    next expired =>
      refine iff_of_true ?_ expired
      exact Map.get_remove_blocks id entry _
    next live =>
      refine iff_of_false ?_ live
      exact ((Map.visit_quiet id entry).append .nil).free

theorem setAccount_blocks_iff : Blocks [] (setAccount layout now connection account ttl accounts).trace ↔
    CacheService.setEx connection (ttl.getD accounts.config.defaultTtl) = .ok () ∧ Full accounts account.id := by
  rw [CacheLocks.setAccount]
  cases CacheService.setEx connection (ttl.getD accounts.config.defaultTtl) with
  | error error => simp [Blocks]
  | ok _ =>
    rw [bind_trace, pure_trace, List.append_nil, updateInMemoryCache_blocks_iff]
    exact (and_iff_right rfl).symm

private theorem getAccountEvents_quiet : Quiet (getAccountEvents layout now connection id events).trace := by
  unfold CacheLocks.getAccountEvents
  cases events.memory id with
  | some found => exact (Map.visit_quiet id found).append .nil
  | none =>
    refine (Map.get_none_quiet id).append ?_
    cases connection with
    | error error => exact .nil
    | ok _ =>
      dsimp only [Map.get]
      rcases events.redisGet now id with _ | ⟨_ | found, expiresAt⟩
      · exact .nil
      · exact .nil
      · exact (Map.insert_quiet id).append .nil

private theorem setAccountEvents_quiet {defaultTtl : Duration} {list : VersionedEvents} :
    Quiet (setAccountEvents layout now connection defaultTtl id list ttl events).trace := by
  rw [CacheLocks.setAccountEvents]
  cases CacheService.setEx connection (ttl.getD defaultTtl) with
  | error error => exact .nil
  | ok _ => exact (Map.insert_quiet id).append .nil

private theorem invalidateAccount_quiet {cache : Cache} : Quiet (invalidateAccount layout redis id cache).trace :=
  (Map.remove_quiet id).append ((Map.remove_quiet id).append .nil)

private theorem cleanUp_quiet : Quiet (cleanUp layout now accounts).trace := .flatMap _ fun _ => Map.retain_quiet

end Calls

section WarmUp
variable {accounts : CacheService} {id other : Uuid} {earlier fills : List Uuid} {account : Account}

/-- Those of the ids that share the shard of another. -/
def together (accounts : CacheService) (ids : List Uuid) (id : Uuid) : List Uuid :=
  ids.filter fun other => accounts.getShardIndex other = accounts.getShardIndex id

/-- The entries in the shard of an id once others were put into memory with room for all
of them. -/
def occupancy (accounts : CacheService) (earlier : List Uuid) (id : Uuid) : Nat :=
  ((accounts.shards (accounts.getShardIndex id)).filter fun entry => entry.1 ∉ together accounts earlier id).length +
    (together accounts earlier id).dedup.length

def Crowded (accounts : CacheService) (earlier : List Uuid) (id : Uuid) : Prop :=
  accounts.config.maxSize ≤ occupancy accounts earlier id ∧ 0 < occupancy accounts earlier id

private theorem crowded_nil : Crowded accounts [] id ↔ Full accounts id := by
  have count : occupancy accounts [] id = (accounts.shards (accounts.getShardIndex id)).length := by
    simp [occupancy, together]
  rw [Crowded, count, List.length_pos_iff, Full]

private theorem update_shards_of_room (room : ¬ Full accounts id) (index : Nat) :
    ∃ entry, (accounts.updateInMemoryCache now id account).shards index =
      if index = accounts.getShardIndex id then (accounts.shards index).insert id entry else accounts.shards index := by
  refine ⟨{ value := account, createdAt := now, lastAccessed := now, accessCount := 1,
            ttl := accounts.config.defaultTtl }, ?_⟩
  simp only [CacheService.updateInMemoryCache, CacheService.setShard_shards]
  split
  next here =>
    subst here
    split
    next reached =>
      rw [empty_of_room room reached]
      cases accounts.config.evictionPolicy <;> rfl
    next => rfl
  next => rfl

private theorem length_insert (shard : Shard) (id : Uuid) (entry : CacheEntry) (ids : List Uuid) :
    ((shard.insert id entry).filter fun held => held.1 ∉ ids).length + ids.dedup.length =
      (shard.filter fun held => held.1 ∉ id :: ids).length + (id :: ids).dedup.length := by
  have kept : (shard.remove id).filter (fun held => held.1 ∉ ids) = shard.filter fun held => held.1 ∉ id :: ids := by
    rw [Shard.remove, List.filter_filter]
    congr 1
    funext held
    simp [Bool.and_comm]
  by_cases member : id ∈ ids
  · rw [Shard.insert, List.filter_cons_of_neg (by simpa using member), kept, List.dedup_cons_of_mem member]
  · rw [Shard.insert, List.filter_cons_of_pos (by simpa using member), kept, List.dedup_cons_of_notMem member,
      List.length_cons, List.length_cons, Nat.add_right_comm, Nat.add_assoc]

private theorem occupancy_update (room : ¬ Full accounts id) :
    occupancy (accounts.updateInMemoryCache now id account) earlier other = occupancy accounts (id :: earlier) other := by
  have same (ids : List Uuid) : together (accounts.updateInMemoryCache now id account) ids other =
      together accounts ids other := rfl
  have index : (accounts.updateInMemoryCache now id account).getShardIndex other = accounts.getShardIndex other := rfl
  obtain ⟨entry, shard⟩ := @update_shards_of_room now accounts id account room (accounts.getShardIndex other)
  rw [occupancy, occupancy, same, index, shard]
  by_cases shared : accounts.getShardIndex other = accounts.getShardIndex id
  · have first : together accounts (id :: earlier) other = id :: together accounts earlier other :=
      List.filter_cons_of_pos (by simpa using shared.symm)
    rw [if_pos shared, first]
    exact length_insert _ _ _ _
  · have rest : together accounts (id :: earlier) other = together accounts earlier other :=
      List.filter_cons_of_neg (by simpa using Ne.symm shared)
    rw [if_neg shared, rest]

def Overfills (accounts : CacheService) (fills : List Uuid) : Prop :=
  ∃ earlier id later, fills = earlier ++ id :: later ∧ Crowded accounts earlier id

private theorem overfills_nil : ¬ Overfills accounts [] := by
  rintro ⟨earlier, id, later, empty, -⟩
  simp at empty

private theorem overfills_of_full (full : Full accounts id) : Overfills accounts (id :: fills) :=
  ⟨[], id, fills, rfl, crowded_nil.mpr full⟩

private theorem overfills_cons (room : ¬ Full accounts id) :
    Overfills accounts (id :: fills) ↔ Overfills (accounts.updateInMemoryCache now id account) fills := by
  have moved (earlier : List Uuid) (other : Uuid) :
      Crowded (accounts.updateInMemoryCache now id account) earlier other ↔ Crowded accounts (id :: earlier) other := by
    rw [Crowded, Crowded, occupancy_update room]
    rfl
  constructor
  · rintro ⟨_ | ⟨first, earlier⟩, other, later, split, crowded⟩
    · obtain ⟨rfl, -⟩ := List.cons.inj split
      exact absurd (crowded_nil.mp crowded) room
    · obtain ⟨rfl, rest⟩ := List.cons.inj split
      exact ⟨earlier, other, later, rest, (moved earlier other).mpr crowded⟩
  · rintro ⟨earlier, other, later, rfl, crowded⟩
    exact ⟨id :: earlier, other, later, rfl, (moved earlier other).mp crowded⟩

variable {read cache : Cache}

private theorem warm_of_none (skipped : read.warmOf now id = none) :
    CacheLocks.warm layout now id (read.accounts.redisGet now id) (read.events.redisGet now id) cache = pure cache := by
  rw [Cache.warmOf, CacheService.fillOf] at skipped
  revert skipped
  rcases read.accounts.redisGet now id with _ | ⟨_ | account, expiresAt⟩
  · exact fun _ => rfl
  · exact fun _ => rfl
  · rcases read.events.redisGet now id with _ | ⟨_ | list, expiresAt⟩
    · exact fun _ => rfl
    · exact fun _ => rfl
    · simp

private theorem warmEach_blocks_iff (next : Cache → List (Locking.Event CacheLock)) {later : List Uuid}
    (rest : ∀ cache, Kept read cache → (Blocks [] (next cache) ↔ Overfills cache.accounts later)) (chunk : List Uuid)
    (kept : Kept read cache) :
    Blocks [] ((warmEach layout now read chunk cache).trace ++ next (warmEach layout now read chunk cache).value) ↔
      Overfills cache.accounts (chunk.filter (fun id => (read.warmOf now id).isSome) ++ later) := by
  induction chunk generalizing cache with
  | nil => exact rest cache kept
  | cons id chunk ih =>
    rw [warmEach, bind_trace, bind_value, List.append_assoc]
    cases filled : read.warmOf now id with
    | none =>
      rw [List.filter_cons_of_neg (by simp [filled]), warm_of_none filled]
      exact ih kept
    | some access =>
      obtain ⟨account, expiresAt, list, until_, found, events, -⟩ := reads_of_warmOf filled
      rw [List.filter_cons_of_pos (by simp [filled]), List.cons_append, found, events, CacheLocks.warm, bind_trace,
        List.append_assoc]
      by_cases full : Full cache.accounts id
      · exact iff_of_true (updateInMemoryCache_blocks full _) (overfills_of_full full)
      · rw [(updateInMemoryCache_quiet full).blocks_append, bind_value, updateInMemoryCache_value, bind_trace,
          List.append_assoc, (Map.insert_quiet id).blocks_append, overfills_cons full]
        exact ih ⟨kept.accounts, kept.events⟩

private theorem warmChunks_blocks_iff (call : Nat) (chunks : List (List Uuid)) :
    Blocks [] (warmChunks layout now redis call chunks cache).trace ↔
      Overfills cache.accounts ((pipelined redis call chunks).filter fun id => (cache.warmOf now id).isSome) := by
  induction chunks generalizing cache call with
  | nil => exact iff_of_false id overfills_nil
  | cons chunk chunks ih =>
    rw [CacheLocks.warmChunks, pipelined]
    cases redis call with
    | error error => exact iff_of_false id overfills_nil
    | ok _ =>
      dsimp only
      rw [bind_trace, List.filter_append]
      refine warmEach_blocks_iff (fun warmed => (warmChunks layout now redis (call + 1) chunks warmed).trace) ?_ chunk
        ⟨rfl, rfl⟩
      intro warmed kept
      rw [ih, kept.warmOf]

private theorem warmupCache_blocks_iff (accountIds : List Uuid) :
    Blocks [] (warmupCache layout now redis accountIds cache).trace ↔
      cache.warmingState.isWarming = false ∧ redis 0 = .ok () ∧ cache.warmupBatchSize ≠ 0 ∧
      Overfills cache.accounts ((pipelined redis 1 (accountIds.toChunks cache.warmupBatchSize)).filter
        fun id => (cache.warmOf now id).isSome) := by
  rw [CacheLocks.warmupCache]
  split
  next warming => simp [warming, Blocks]
  next idle =>
    rw [Bool.not_eq_true] at idle
    cases connection : redis 0 with
    | error error => simp [Blocks]
    | ok _ =>
      dsimp only
      split
      next zero => simp [zero, Blocks]
      next size =>
        rw [bind_trace, and_iff_right idle, and_iff_right rfl, and_iff_right size, warmChunks_value]
        rcases Cache.warmChunks now redis 1 _ _ with ⟨_ | _, warmed⟩ <;>
          exact (List.append_nil _).symm ▸ warmChunks_blocks_iff _ _

end WarmUp

/-- The calls that meet an expired entry, or put an account into a shard that is full by then. -/
def Collides (now : Instant) (redis : Cache.Redis) (cache : Cache) : Operation → Prop
  | .getAccount accountId =>
    match cache.accounts.entry accountId with
    | some entry => CacheService.isExpired now entry
    | none => command redis = .ok () ∧ (cache.accounts.fillOf now accountId).isSome ∧ Full cache.accounts accountId
  | .setAccount account ttl => setEx redis (ttl.getD cache.defaultTtl) = .ok () ∧ Full cache.accounts account.id
  | .warmupCache accountIds =>
    cache.warmingState.isWarming = false ∧ redis 0 = .ok () ∧ cache.warmupBatchSize ≠ 0 ∧
    Overfills cache.accounts ((pipelined redis 1 (accountIds.toChunks cache.warmupBatchSize)).filter
      fun id => (cache.warmOf now id).isSome)
  | _ => False

private theorem onShards_blocks_iff {α : Type} {accounts : CacheService} {call : Traced CacheLock α} :
    Blocks [] (onShards accounts call).trace ↔ accounts.config.shardCount ≠ 0 ∧ Blocks [] call.trace := by
  unfold onShards
  split
  next none_ => simp [none_, Blocks]
  next some_ => exact (and_iff_right some_).symm

theorem perform_blocks_iff {cache : Cache} {operation : Operation} :
    Blocks [] (perform layout now redis cache operation).trace ↔
      cache.accounts.config.shardCount ≠ 0 ∧ Collides now redis cache operation := by
  cases operation with
  | getAccount accountId =>
    rw [CacheLocks.perform, onShards_blocks_iff, bind_trace, pure_trace, List.append_nil, getAccount_blocks_iff]
    rfl
  | setAccount account ttl =>
    rw [CacheLocks.perform, onShards_blocks_iff, bind_trace, pure_trace, List.append_nil, setAccount_blocks_iff]
    rfl
  | warmupCache accountIds =>
    rw [CacheLocks.perform, onShards_blocks_iff, bind_trace, pure_trace, List.append_nil, warmupCache_blocks_iff]
    rfl
  | invalidateAccount accountId =>
    rw [CacheLocks.perform, onShards_blocks_iff]
    exact and_congr_right' (iff_of_false (invalidateAccount_quiet.append .nil).free id)
  | getAccountEvents accountId =>
    exact iff_of_false (getAccountEvents_quiet.append .nil).free (fun collides => collides.2)
  | setAccountEvents accountId events ttl =>
    exact iff_of_false (setAccountEvents_quiet.append .nil).free (fun collides => collides.2)
  | cleanUp => exact iff_of_false (cleanUp_quiet.append .nil).free (fun collides => collides.2)
  | deleteAccount accountId | deleteAccountEvents accountId | initializeService | loseKey accountId
  | loseEventsKey accountId | loseEntry accountId => exact iff_of_false id (fun collides => collides.2)

/-- A call asks for a lock that it holds itself exactly if it collides, in whatever state it
finds the cache. -/
theorem blocks_on_itself_iff (layout : CacheLayout) (now : Instant) (redis : Cache.Redis) (cache : Cache)
    (operation : Operation) :
    ¬ Blocks [] (perform layout now redis cache operation).trace ↔
      (cache.accounts.config.shardCount ≠ 0 → ¬ Collides now redis cache operation) := by
  rw [perform_blocks_iff, not_and]

/-- Under the default configuration an account that was set is asked for again an hour
later; or, with room for one account, a second one is set. -/
theorem expired_or_full_blocks :
    let set (cache : Cache) (id : Uuid) := perform .single 0 connected cache (.setAccount (Sample.account id 0) none)
    let ordinary := fresh {} 100
    let small := fresh { maxSize := 1, shardCount := 1 } 100
    (∃ history, Run anything 0 ordinary history 0 (set ordinary ⟨7⟩).value.2) ∧
    ¬ Blocks [] (set ordinary ⟨7⟩).trace ∧
    Blocks [] (perform .single (Duration.fromSecs 3600) connected (set ordinary ⟨7⟩).value.2 (.getAccount ⟨7⟩)).trace ∧
    (∃ history, Run anything 0 small history 0 (set small ⟨7⟩).value.2) ∧
    ¬ Blocks [] (set small ⟨7⟩).trace ∧ Blocks [] (set (set small ⟨7⟩).value.2 ⟨8⟩).trace := by
  intro set ordinary small
  have reached (cache : Cache) : ∃ history, Run anything 0 cache history 0 (set cache ⟨7⟩).value.2 := by
    rw [perform_value]
    exact ⟨_, Run.single cache 0 connected _⟩
  refine ⟨reached ordinary, ?_, ?_, reached small, ?_, ?_⟩
  · decide
  · decide
  · decide
  · decide

end BankingEs.Proofs.SelfBlocking
