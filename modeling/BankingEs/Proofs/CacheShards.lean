import BankingEs.Proofs.CacheFreshness

/-! The shards in memory. Whatever puts an entry in or takes it out, an account lies
under its own id in the shard of that id, and no shard outgrows its bound. -/

namespace BankingEs.Proofs.CacheShards
open Cache CacheService CacheFreshness

/-- `keys` is what Redis must hold for the refills to keep the rest. -/
structure WellPlaced (cache : CacheService) : Prop where
  placed : ∀ index id entry, (id, entry) ∈ cache.shards index → index = cache.getShardIndex id
  identity : ∀ index id entry, (id, entry) ∈ cache.shards index → entry.value.id = id
  unique : ∀ index, ((cache.shards index).map Prod.fst).Nodup
  bounded : ∀ index, (cache.shards index).length ≤ cache.config.maxSize
  keys : ∀ id account expiresAt, cache.redis id = some ⟨some account, expiresAt⟩ → account.id = id

theorem minByKey_cons {α β : Type} [LE β] [DecidableLE β] (key : α → β) (first : α) (rest : List α) :
    ∃ least ∈ first :: rest, minByKey key (first :: rest) = some least := by
  induction rest generalizing first with
  | nil => exact ⟨first, List.mem_cons_self, rfl⟩
  | cons second rest ih =>
    obtain ⟨least, member, found⟩ := ih second
    rw [minByKey, found]
    by_cases order : key first ≤ key least
    · exact ⟨first, List.mem_cons_self, by simp [order]⟩
    · exact ⟨least, List.mem_cons_of_mem _ member, by simp [order]⟩

private theorem victim_cons (policy : EvictionPolicy) (first : Uuid × CacheEntry) (rest : Shard) :
    ∃ entry ∈ first :: rest, victim policy (first :: rest) = some entry := by
  cases policy with
  | lru => exact minByKey_cons _ first rest
  | lfu => exact minByKey_cons _ first rest
  | ttl => exact minByKey_cons _ first rest

theorem victim_of_ne_nil (policy : EvictionPolicy) {shard : Shard} (filled : shard ≠ []) :
    ∃ entry, victim policy shard = some entry := by
  obtain ⟨first, rest, rfl⟩ := List.exists_cons_of_ne_nil filled
  obtain ⟨entry, _, found⟩ := victim_cons policy first rest
  exact ⟨entry, found⟩

/-- An eviction makes room in a shard that holds anything. -/
theorem evictEntries_length {policy : EvictionPolicy} {shard : Shard} (filled : shard ≠ []) :
    (evictEntries policy shard).length < shard.length := by
  obtain ⟨first, rest, rfl⟩ := List.exists_cons_of_ne_nil filled
  obtain ⟨entry, member, found⟩ := victim_cons policy first rest
  rw [evictEntries, found]
  exact List.length_filter_lt_length_iff_exists.mpr ⟨entry, member, by simp⟩

private theorem insert_unique {shard : Shard} (id : Uuid) (entry : CacheEntry) (unique : (shard.map Prod.fst).Nodup) :
    ((shard.insert id entry).map Prod.fst).Nodup := by
  rw [Shard.insert, List.map_cons, List.nodup_cons]
  refine ⟨?_, unique.sublist (List.filter_sublist.map _)⟩
  intro present
  obtain ⟨other, member, same⟩ := List.mem_map.mp present
  simp [Shard.remove, same] at member

private theorem insert_length (shard : Shard) (id : Uuid) (entry : CacheEntry) :
    (shard.insert id entry).length ≤ shard.length + 1 := by
  rw [Shard.insert, List.length_cons]
  exact Nat.succ_le_succ (List.length_filter_le _ _)

variable {cache before after : CacheService} {now : Instant} {id : Uuid} {account : Account}

/-- The entry that is put in replaces the one under its id, or goes into a shard in
which there is room by then. -/
theorem updateInMemoryCache_length (room : 1 ≤ cache.config.maxSize)
    (bounded : ∀ index, (cache.shards index).length ≤ cache.config.maxSize) (index : Nat) :
    ((cache.updateInMemoryCache now id account).shards index).length ≤ cache.config.maxSize := by
  simp only [updateInMemoryCache, setShard_shards]
  split
  next =>
    have bound := bounded (cache.getShardIndex id)
    refine (insert_length _ _ _).trans ?_
    split
    next full =>
      have filled : cache.shards (cache.getShardIndex id) ≠ [] := by
        intro empty
        rw [empty, List.length_nil] at full
        omega
      exact (evictEntries_length filled).trans_le bound
    next open_ => exact not_le.mp open_
  next => exact bounded index

private theorem updateInMemoryCache_wellPlaced (wellPlaced : WellPlaced cache) (room : 1 ≤ cache.config.maxSize)
    (own : account.id = id) : WellPlaced (cache.updateInMemoryCache now id account) := by
  constructor
  · intro index other entry member
    rcases mem_updateInMemoryCache member with ⟨rfl, here, _⟩ | ⟨_, old⟩
    · exact here
    · exact wellPlaced.placed index other entry old
  · intro index other entry member
    rcases mem_updateInMemoryCache member with ⟨rfl, _, rfl⟩ | ⟨_, old⟩
    · exact own
    · exact wellPlaced.identity index other entry old
  · intro index
    simp only [updateInMemoryCache, setShard_shards]
    split
    next =>
      apply insert_unique
      split
      · exact (wellPlaced.unique _).sublist ((evictEntries_sublist _ _).map _)
      · exact wellPlaced.unique _
    next => exact wellPlaced.unique index
  · exact updateInMemoryCache_length room wellPlaced.bounded
  · exact wellPlaced.keys

private theorem move_wellPlaced {wanted : Uuid → Prop} (move : Move now wanted before after)
    (wellPlaced : WellPlaced before)
    (room : 1 ≤ before.config.maxSize) : WellPlaced after := by
  cases move with
  | refills want found live => exact updateInMemoryCache_wellPlaced wellPlaced room (wellPlaced.keys _ _ _ found)
  | drops config shards redis =>
    constructor
    · intro index id entry member
      rw [getShardIndex_config config]
      exact wellPlaced.placed index id entry ((shards index).subset member)
    · intro index id entry member
      exact wellPlaced.identity index id entry ((shards index).subset member)
    · intro index
      exact (wellPlaced.unique index).sublist ((shards index).map _)
    · intro index
      rw [config]
      exact (shards index).length_le.trans (wellPlaced.bounded index)
    · intro id account expiresAt found
      rcases redis id with same | gone
      · exact wellPlaced.keys id account expiresAt (same ▸ found)
      · simp [gone] at found

private theorem moves_wellPlaced {wanted : Uuid → Prop} (moves : Moves now wanted before after)
    (wellPlaced : WellPlaced before)
    (room : 1 ≤ before.config.maxSize) : WellPlaced after := by
  induction moves with
  | refl => exact wellPlaced
  | tail earlier move ih => exact move_wellPlaced move ih (by rwa [Moves.config earlier])

private theorem store_wellPlaced {ttl : Option Duration} (wellPlaced : WellPlaced cache)
    (room : 1 ≤ cache.config.maxSize) : WellPlaced (cache.store now account ttl) := by
  refine updateInMemoryCache_wellPlaced ?_ room rfl
  refine ⟨wellPlaced.placed, wellPlaced.identity, wellPlaced.unique, wellPlaced.bounded, ?_⟩
  intro id held expiresAt found
  simp only [Function.update_apply] at found
  split at found
  next same =>
    cases found
    exact same.symm
  next => exact wellPlaced.keys id held expiresAt found

private theorem run_wellPlaced {permits : List Served → Cache → Instant → Operation → Prop} {first : Instant}
    {start last : Cache} {history : List Served} (run : Run permits first start history now last)
    (wellPlaced : WellPlaced start.accounts) (room : 1 ≤ start.accounts.config.maxSize) :
    WellPlaced last.accounts := by
  induction run with
  | start => exact wellPlaced
  | @call history before now cache operation redis run later permitted ih =>
    have space : 1 ≤ cache.accounts.config.maxSize := by rwa [run.config]
    rcases perform_accounts cache now redis operation with ⟨account, ttl, _, _, after⟩ | ⟨_, moves⟩
    · rw [after]
      exact store_wellPlaced ih space
    · exact moves_wellPlaced moves ih space

/-- In every state that the calls can reach, an account lies under its own id, once,
in the shard of that id, and no shard holds more entries than it may. -/
theorem shards_hold {config : CacheConfig} {size : Nat} {first : Instant} {last : Cache} {history : List Served}
    (room : 1 ≤ config.maxSize) (run : Run anything first (fresh config size) history now last) :
    (∀ index id entry, (id, entry) ∈ last.accounts.shards index →
      id.bits.toNat % config.shardCount = index ∧ entry.value.id = id) ∧
    (∀ id first second here there, (id, here) ∈ last.accounts.shards first →
      (id, there) ∈ last.accounts.shards second → first = second) ∧
    (∀ index, ((last.accounts.shards index).map Prod.fst).Nodup) ∧
    ∀ index, (last.accounts.shards index).length ≤ config.maxSize := by
  have initial : WellPlaced (fresh config size).accounts :=
    ⟨fun _ _ _ member => absurd member List.not_mem_nil, fun _ _ _ member => absurd member List.not_mem_nil,
      fun _ => List.nodup_nil, fun _ => Nat.zero_le _, fun _ _ _ found => by cases found⟩
  have wellPlaced := run_wellPlaced run initial room
  have same : last.accounts.config = config := run.config
  have index (id : Uuid) : last.accounts.getShardIndex id = id.bits.toNat % config.shardCount := by
    rw [getShardIndex, same]
  refine ⟨?_, ?_, wellPlaced.unique, ?_⟩
  · intro at_index id entry member
    refine ⟨?_, wellPlaced.identity at_index id entry member⟩
    rw [wellPlaced.placed at_index id entry member, index]
  · intro id first second here there one two
    rw [wellPlaced.placed first id here one, wellPlaced.placed second id there two]
  · intro at_index
    have bound := wellPlaced.bounded at_index
    rwa [same] at bound

theorem shards_hold_two : let config : CacheConfig := { maxSize := 2, shardCount := 1 }
    let set (id : Uuid) (cache : Cache) := (cache.setAccount 0 connected (Sample.account id 0) none).2
    ∀ index, ((set ⟨1⟩ (set ⟨0⟩ (fresh config 100))).accounts.shards index).length ≤ 2 := by
  intro config set
  have run := (Run.single (fresh config 100) 0 connected (.setAccount (Sample.account ⟨0⟩ 0) none)).next
    connected (.setAccount (Sample.account ⟨1⟩ 0) none) le_rfl
  exact (shards_hold (by decide) run).2.2.2

end BankingEs.Proofs.CacheShards
