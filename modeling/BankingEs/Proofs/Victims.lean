import BankingEs.Cache.Accesses
import BankingEs.Proofs.CacheShards

/-! Whether evictions follow their policy. The fields of an entry tell when it was put into
memory and not how it has been used since, so that they do while nothing is used twice. -/

namespace BankingEs
open Cache CacheService

/-- Of all that the shard held, the victim has the oldest last use or the fewest uses. -/
def Eviction.Follows (policy : EvictionPolicy) (eviction : Eviction) : Prop :=
  ∀ other ∈ eviction.shard, match policy with
    | .lru => (eviction.usage eviction.victim.1).lastUse ≤ (eviction.usage other.1).lastUse
    | .lfu => (eviction.usage eviction.victim.1).uses ≤ (eviction.usage other.1).uses
    | .ttl => True

namespace Proofs.Victims

variable {now : Instant} {policy : EvictionPolicy} {accounts : CacheService} {memory last : Memory} {access : Access}
  {accesses : List Access} {evictions : List Eviction} {id : Uuid} {entry : CacheEntry} {index : Nat}

section Victims

private theorem minByKey_least {α β : Type} [LinearOrder β] {key : α → β} {entries : List α} {least : α}
    (found : minByKey key entries = some least) : least ∈ entries ∧ ∀ other ∈ entries, key least ≤ key other := by
  induction entries generalizing least with
  | nil => cases found
  | cons first rest ih =>
    rw [minByKey] at found
    cases later : minByKey key rest with
    | none =>
      cases rest with
      | nil =>
        obtain rfl := Option.some.inj found
        simp
      | cons second others =>
        obtain ⟨chosen, _, some_⟩ := CacheShards.minByKey_cons key second others
        cases some_.symm.trans later
    | some candidate =>
      obtain ⟨member, smallest⟩ := ih later
      rw [later] at found
      dsimp only at found
      split at found
      next order =>
        obtain rfl := Option.some.inj found
        refine ⟨List.mem_cons_self, ?_⟩
        intro other inside
        rcases List.mem_cons.mp inside with rfl | inside
        · exact le_rfl
        · exact order.trans (smallest other inside)
      next order =>
        obtain rfl := Option.some.inj found
        refine ⟨List.mem_cons_of_mem _ member, ?_⟩
        intro other inside
        rcases List.mem_cons.mp inside with rfl | inside
        · exact (not_le.mp order).le
        · exact smallest other inside

private theorem minByKey_head {α β : Type} [LinearOrder β] {key : α → β} {first : α} {rest : List α}
    (least : ∀ other ∈ rest, key first ≤ key other) : minByKey key (first :: rest) = some first := by
  rw [minByKey]
  cases later : minByKey key rest with
  | none => rfl
  | some candidate =>
    dsimp only
    rw [if_pos (least candidate (minByKey_least later).1)]

/-- What the policy compares. -/
def policyKey : EvictionPolicy → CacheEntry → Int
  | .lru, entry => entry.lastAccessed
  | .lfu, entry => entry.accessCount
  | .ttl, entry => entry.createdAt

private theorem victim_least {shard : Shard} {victim : Uuid × CacheEntry}
    (found : CacheService.victim policy shard = some victim) :
    victim ∈ shard ∧ ∀ other ∈ shard, policyKey policy victim.2 ≤ policyKey policy other.2 := by
  cases policy with
  | lru => exact minByKey_least found
  | lfu =>
    obtain ⟨member, least⟩ := minByKey_least found
    exact ⟨member, fun other inside => Int.ofNat_le.mpr (least other inside)⟩
  | ttl => exact minByKey_least found

theorem victim_head {shard : Shard} {first : Uuid × CacheEntry}
    (least : ∀ other ∈ shard, policyKey policy first.2 ≤ policyKey policy other.2) :
    CacheService.victim policy (first :: shard) = some first := by
  cases policy with
  | lru => exact minByKey_head least
  | lfu => exact minByKey_head fun other inside => Int.ofNat_le.mp (least other inside)
  | ttl => exact minByKey_head least

end Victims

/-- What lies in memory after an access was put there by it, or was there before and is none
of those that the access is about. -/
theorem mem_access (member : (id, entry) ∈ (accounts.access now access).shards index) :
    (∃ account, access = .fill id account ∧ index = accounts.getShardIndex id ∧
      entry = { value := account, createdAt := now, lastAccessed := now, accessCount := 1,
                ttl := accounts.config.defaultTtl }) ∨
    ((id, entry) ∈ accounts.shards index ∧ (index = accounts.getShardIndex id →
      (∀ account, access ≠ .fill id account) ∧ access ≠ .remove id)) := by
  cases access with
  | fill other account =>
    rcases mem_updateInMemoryCache member with ⟨rfl, here, rfl⟩ | ⟨apart, old⟩
    · exact .inl ⟨account, rfl, here, rfl⟩
    · refine .inr ⟨old, fun place => ⟨?_, nofun⟩⟩
      rintro account ⟨⟩
      exact apart ⟨rfl, place⟩
  | hit other => exact .inr ⟨member, fun _ => ⟨nofun, nofun⟩⟩
  | remove other =>
    simp only [CacheService.access, setShard_shards] at member
    split at member
    next here =>
      obtain ⟨old, differs⟩ := List.mem_filter.mp member
      refine .inr ⟨here ▸ old, fun _ => ⟨nofun, ?_⟩⟩
      rintro ⟨⟩
      simp at differs
    next elsewhere =>
      refine .inr ⟨member, fun place => ⟨nofun, ?_⟩⟩
      rintro ⟨⟩
      exact elsewhere place
  | cleanUp => exact .inr ⟨List.mem_of_mem_filter member, fun _ => ⟨nofun, nofun⟩⟩

theorem access_config : (accounts.access now access).config = accounts.config := by
  cases access <;> rfl

theorem use_other (unfilled : ∀ account, access ≠ .fill id account) (missed : access ≠ .hit id) :
    (memory.access now access).usage id = memory.usage id := by
  cases access with
  | fill other account =>
    refine Function.update_of_ne ?_ _ _
    rintro rfl
    exact unfilled account rfl
  | hit other =>
    refine Function.update_of_ne ?_ _ _
    rintro rfl
    exact missed rfl
  | remove other => rfl
  | cleanUp => rfl

private theorem mem_evicted {eviction : Eviction} (member : eviction ∈ memory.evicted access) :
    ∃ accountId account, access = .fill accountId account ∧
      eviction.shard = memory.accounts.shards (memory.accounts.getShardIndex accountId) ∧
      eviction.usage = memory.usage ∧
      CacheService.victim memory.accounts.config.evictionPolicy eviction.shard = some eviction.victim := by
  cases access with
  | fill accountId account =>
    dsimp only [Memory.evicted] at member
    split at member
    next =>
      obtain ⟨victim, found, rfl⟩ := List.mem_map.mp member
      exact ⟨accountId, account, rfl, rfl, rfl, Option.mem_toList.mp found⟩
    next => cases member
  | hit accountId | remove accountId | cleanUp => cases member

/-- The fields of the entries and their usage say the same. -/
structure Tracked (policy : EvictionPolicy) (memory : Memory) : Prop where
  placed : ∀ index id entry, (id, entry) ∈ memory.accounts.shards index → index = memory.accounts.getShardIndex id
  lru : policy = .lru → ∀ index id entry, (id, entry) ∈ memory.accounts.shards index →
    entry.lastAccessed = (memory.usage id).lastUse
  lfu : policy = .lfu → ∀ index id entry, (id, entry) ∈ memory.accounts.shards index → (memory.usage id).uses = 1

private theorem Tracked.follows {eviction : Eviction} (tracked : Tracked policy memory)
    (configured : memory.accounts.config.evictionPolicy = policy) (member : eviction ∈ memory.evicted access) :
    eviction.Follows policy := by
  obtain ⟨accountId, account, -, shard, usage, found⟩ := mem_evicted member
  obtain ⟨chosen, least⟩ := victim_least found
  intro other inside
  have order := least other inside
  rw [shard] at chosen inside
  rw [usage]
  rw [configured] at order
  cases policy with
  | lru =>
    dsimp only
    rw [← tracked.lru rfl _ _ _ chosen, ← tracked.lru rfl _ _ _ inside]
    exact order
  | lfu =>
    dsimp only
    rw [tracked.lfu rfl _ _ _ chosen, tracked.lfu rfl _ _ _ inside]
  | ttl => trivial

/-- Accesses that no policy has to take note of, if no more than the given ids are in memory. -/
def Plain (policy : EvictionPolicy) : (Uuid → Prop) → List Access → Prop
  | _, [] => True
  | present, .fill id _ :: rest =>
    (policy = .lfu → ¬ present id) ∧ Plain policy (fun other => other = id ∨ present other) rest
  | present, .hit _ :: rest => policy = .ttl ∧ Plain policy present rest
  | present, .remove id :: rest => Plain policy (fun other => other ≠ id ∧ present other) rest
  | present, .cleanUp :: rest => Plain policy present rest

private theorem Tracked.shuffled (tracked : Tracked policy memory) (shuffled : memory.accounts.Shuffled accounts) :
    Tracked policy { memory with accounts } := by
  have old {index : Nat} {id : Uuid} {entry : CacheEntry} (member : (id, entry) ∈ accounts.shards index) :
      (id, entry) ∈ memory.accounts.shards index := (shuffled.shards index).subset member
  refine ⟨?_, ?_, ?_⟩
  · intro index id entry member
    rw [getShardIndex_config shuffled.config]
    exact tracked.placed index id entry (old member)
  · exact fun lru index id entry member => tracked.lru lru index id entry (old member)
  · exact fun lfu index id entry member => tracked.lfu lfu index id entry (old member)

private theorem Tracked.after (tracked : Tracked policy memory) (unhit : policy ≠ .ttl → ∀ id, access ≠ .hit id)
    (added : policy = .lfu → ∀ id account, access = .fill id account →
      ∀ entry, (id, entry) ∉ memory.accounts.shards (memory.accounts.getShardIndex id)) :
    Tracked policy (memory.access now access) := by
  refine ⟨?_, ?_, ?_⟩
  · intro index id entry member
    rw [Memory.access, getShardIndex_config access_config]
    rcases mem_access member with ⟨account, -, here, -⟩ | ⟨old, -⟩
    · exact here
    · exact tracked.placed index id entry old
  · intro lru index id entry member
    rcases mem_access member with ⟨account, rfl, -, rfl⟩ | ⟨old, others⟩
    · simp [Memory.access, Memory.use]
    · obtain ⟨unfilled, -⟩ := others (tracked.placed index id entry old)
      rw [use_other unfilled (unhit (by simp [lru]) id)]
      exact tracked.lru lru index id entry old
  · intro lfu index id entry member
    rcases mem_access member with ⟨account, rfl, -, -⟩ | ⟨old, others⟩
    · have absent : ((memory.accounts.makeRoom id).any fun entry => entry.1 = id) = false := by
        rw [List.any_eq_false]
        rintro ⟨other, held⟩ kept
        rw [decide_eq_true_eq]
        rintro rfl
        refine added lfu other account rfl held ?_
        rw [makeRoom] at kept
        split at kept
        · exact (evictEntries_sublist _ _).subset kept
        · exact kept
      simp [Memory.access, Memory.use, absent]
    · obtain ⟨unfilled, -⟩ := others (tracked.placed index id entry old)
      rw [use_other unfilled (unhit (by simp [lfu]) id)]
      exact tracked.lfu lfu index id entry old

private theorem Plain.first {present : Uuid → Prop} (plain : Plain policy present (access :: accesses)) :
    (policy ≠ .ttl → ∀ id, access ≠ .hit id) ∧
    (policy = .lfu → ∀ id account, access = .fill id account → ¬ present id) ∧
    ∃ after, Plain policy after accesses ∧ (∀ id account, access = .fill id account → after id) ∧
      ∀ id, present id → access ≠ .remove id → after id := by
  cases access with
  | fill id account =>
    obtain ⟨absent, rest⟩ := plain
    refine ⟨fun _ _ => nofun, ?_, _, rest, ?_, fun _ held _ => .inr held⟩
    · rintro lfu other account ⟨⟩
      exact absent lfu
    · rintro other account ⟨⟩
      exact .inl rfl
  | hit id =>
    obtain ⟨ttl, rest⟩ := plain
    exact ⟨fun other => absurd ttl other, fun _ _ _ => nofun, _, rest, fun _ _ => nofun, fun _ held _ => held⟩
  | remove id =>
    refine ⟨fun _ _ => nofun, fun _ _ _ => nofun, _, plain, fun _ _ => nofun, fun other held kept => ⟨?_, held⟩⟩
    rintro rfl
    exact kept rfl
  | cleanUp => exact ⟨fun _ _ => nofun, fun _ _ _ => nofun, _, plain, fun _ _ => nofun, fun _ held _ => held⟩

private theorem accessed_tracked {present : Uuid → Prop} (path : Memory.Accessed now memory accesses evictions last)
    (configured : memory.accounts.config.evictionPolicy = policy) (tracked : Tracked policy memory)
    (held : ∀ index id entry, (id, entry) ∈ memory.accounts.shards index → present id)
    (plain : Plain policy present accesses) : Tracked policy last ∧ ∀ eviction ∈ evictions, eviction.Follows policy := by
  induction path generalizing present with
  | done => exact ⟨tracked, fun _ => nofun⟩
  | @access memory last accounts access rest evictions shuffled later ih =>
    obtain ⟨unhit, added, after, plain, fills, stays⟩ := plain.first
    have same : accounts.config.evictionPolicy = policy := shuffled.config ▸ configured
    have before := tracked.shuffled shuffled
    have inside {index : Nat} {id : Uuid} {entry : CacheEntry} (member : (id, entry) ∈ accounts.shards index) :
        present id := held index id entry ((shuffled.shards index).subset member)
    have next : Tracked policy (({ memory with accounts } : Memory).access now access) :=
      before.after unhit fun lfu id account filled entry member => added lfu id account filled (inside member)
    have configured : (accounts.access now access).config.evictionPolicy = policy :=
      (congrArg CacheConfig.evictionPolicy access_config).trans same
    have holds : ∀ index id entry, (id, entry) ∈ (accounts.access now access).shards index → after id := by
      intro index id entry member
      rcases mem_access member with ⟨account, filled, -, -⟩ | ⟨old, others⟩
      · exact fills id account filled
      · exact stays id (inside old) (others (before.placed index id entry old)).2
    obtain ⟨tracked, follow⟩ := ih configured next holds plain
    refine ⟨tracked, ?_⟩
    intro eviction member
    rcases List.mem_append.mp member with here | later
    · exact before.follows same here
    · exact follow eviction later

private theorem accessed_config (path : Memory.Accessed now memory accesses evictions last) :
    last.accounts.config = memory.accounts.config := by
  induction path with
  | done => rfl
  | access shuffled later ih => exact ih.trans (access_config.trans shuffled.config)

private theorem access_length (room : 1 ≤ accounts.config.maxSize)
    (bounded : ∀ index, (accounts.shards index).length ≤ accounts.config.maxSize) (index : Nat) :
    ((accounts.access now access).shards index).length ≤ accounts.config.maxSize := by
  cases access with
  | fill id account => exact CacheShards.updateInMemoryCache_length room bounded index
  | hit id => exact bounded index
  | remove id =>
    simp only [CacheService.access, setShard_shards]
    split
    next here => exact (List.length_filter_le _ _).trans (bounded _)
    next => exact bounded index
  | cleanUp => exact (List.length_filter_le _ _).trans (bounded index)

private theorem accessed_length {size : Nat} (path : Memory.Accessed now memory accesses evictions last)
    (sized : memory.accounts.config.maxSize = size) (room : 1 ≤ size)
    (bounded : ∀ index, (memory.accounts.shards index).length ≤ size) :
    (∀ index, (last.accounts.shards index).length ≤ size) ∧
      ∀ eviction ∈ evictions, eviction.shard.length ≤ size ∧ eviction.victim ∈ eviction.shard := by
  induction path with
  | done => exact ⟨bounded, fun _ => nofun⟩
  | @access memory last accounts access rest evictions shuffled later ih =>
    have same : accounts.config.maxSize = size := (congrArg CacheConfig.maxSize shuffled.config).trans sized
    have before (index : Nat) : (accounts.shards index).length ≤ size :=
      (shuffled.shards index).length_eq.trans_le (bounded index)
    subst same
    obtain ⟨after, evicts⟩ := ih (congrArg CacheConfig.maxSize access_config) (access_length room before)
    refine ⟨after, ?_⟩
    intro eviction member
    rcases List.mem_append.mp member with here | later
    · obtain ⟨accountId, account, -, shard, -, found⟩ := mem_evicted here
      exact ⟨shard ▸ before _, (victim_least found).1⟩
    · exact evicts eviction later

private theorem accessed_nil (path : Memory.Accessed now memory [] evictions last) : evictions = [] := by
  cases path
  rfl

/-- A service that has just been started, with anything in Redis. -/
structure Started (config : CacheConfig) (start : Cache) : Prop where
  configured : start.accounts.config = config
  empty : ∀ index, start.accounts.shards index = []

def PlainCall (now : Instant) (redis : Redis) (cache : Cache) (operation : Operation) : Prop :=
  Plain cache.accounts.config.evictionPolicy
    (fun id => ∃ entry, (id, entry) ∈ cache.accounts.shards (cache.accounts.getShardIndex id))
    (cache.accesses now redis operation)

section Runs
variable {config : CacheConfig} {permits : Instant → Redis → Cache → Operation → Prop} {first before : Instant}
  {start cache : Cache} {usage : Uuid → Usage} {redis : Redis} {operation : Operation} {eviction : Eviction}

theorem run_config (started : Started config start) (run : UsageRun permits first start now cache usage) :
    cache.accounts.config = config := by
  induction run with
  | start => exact started.configured
  | call redis run later permitted accessed ih => exact (perform_config _ _ redis _).trans ih

private theorem accessed_append {reached : Memory} {more : List Access} {others : List Eviction}
    (path : Memory.Accessed now memory accesses evictions reached) (rest : Memory.Accessed now reached more others last) :
    Memory.Accessed now memory (accesses ++ more) (evictions ++ others) last := by
  induction path with
  | done => exact rest
  | access shuffled later ih =>
    rw [List.cons_append, List.append_assoc]
    exact .access shuffled (ih rest)

private theorem selected_accessed (selects : Selects now redis cache usage operation eviction) : ∃ evictions last,
    Memory.Accessed now ⟨cache.accounts, usage⟩ (cache.accesses now redis operation) evictions last ∧
      eviction ∈ evictions := by
  obtain @⟨earlier, rest, access, reached, accounts, split, _, accessed, shuffled, selected⟩ := selects
  obtain ⟨others, last, later, _⟩ := accessed_in_order rest (({ reached with accounts } : Memory).access now access)
  rw [split]
  exact ⟨_, last, accessed_append accessed (.access shuffled later), List.mem_append_right _ (List.mem_append_left _ selected)⟩

private theorem held_present (tracked : Tracked policy ⟨cache.accounts, usage⟩)
    (member : (id, entry) ∈ cache.accounts.shards index) :
    ∃ entry, (id, entry) ∈ cache.accounts.shards (cache.accounts.getShardIndex id) :=
  ⟨entry, tracked.placed index id entry member ▸ member⟩

private theorem plain_run_tracked (started : Started config start)
    (plain : ∀ now redis cache operation, permits now redis cache operation → PlainCall now redis cache operation)
    (run : UsageRun permits first start now cache usage) : Tracked config.evictionPolicy ⟨cache.accounts, usage⟩ := by
  induction run with
  | start =>
    have none_held {index : Nat} {held : Uuid × CacheEntry} : held ∉ start.accounts.shards index := by
      rw [started.empty]
      exact List.not_mem_nil
    exact ⟨fun _ _ _ member => absurd member none_held, fun _ _ _ _ member => absurd member none_held,
      fun _ _ _ _ member => absurd member none_held⟩
  | @call evictions before now cache usage operation last redis run later permitted accessed tracked =>
    have configured := run_config started run
    have permitted := plain _ _ _ _ permitted
    rw [PlainCall, configured] at permitted
    obtain ⟨after, -⟩ := accessed_tracked accessed (congrArg _ configured) tracked (fun _ _ _ => held_present tracked)
      permitted
    have same : ((cache.perform now redis operation).2.withShards last.accounts.shards).accounts.config =
        last.accounts.config := (perform_config _ _ _ _).trans (accessed_config accessed).symm
    refine ⟨?_, after.lru, after.lfu⟩
    intro index id entry member
    exact (after.placed index id entry member).trans (getShardIndex_config same id).symm

/-- After plain calls a plain call selects what the policy asks for. -/
theorem plain_selects_follows (started : Started config start)
    (plain : ∀ now redis cache operation, permits now redis cache operation → PlainCall now redis cache operation)
    (run : UsageRun permits first start before cache usage) (called : PlainCall now redis cache operation)
    (selects : Selects now redis cache usage operation eviction) : eviction.Follows config.evictionPolicy := by
  have configured := run_config started run
  have tracked := plain_run_tracked started plain run
  rw [PlainCall, configured] at called
  obtain ⟨evictions, last, accessed, member⟩ := selected_accessed selects
  exact (accessed_tracked accessed (congrArg _ configured) tracked (fun _ _ _ => held_present tracked) called).2
    eviction member

private theorem single_run (started : Started config start) (single : config.maxSize = 1)
    (run : UsageRun permits first start now cache usage) (index : Nat) : (cache.accounts.shards index).length ≤ 1 := by
  induction run generalizing index with
  | start => simp [started.empty]
  | @call evictions before now cache usage operation last redis run later permitted accessed bounded =>
    have sized : cache.accounts.config.maxSize = 1 := (congrArg CacheConfig.maxSize (run_config started run)).trans single
    exact (accessed_length accessed sized le_rfl bounded).1 index

theorem single_selects_follows (started : Started config start) (single : config.maxSize = 1)
    (run : UsageRun permits first start before cache usage) (selects : Selects now redis cache usage operation eviction) :
    eviction.Follows policy := by
  have sized : cache.accounts.config.maxSize = 1 := (congrArg CacheConfig.maxSize (run_config started run)).trans single
  obtain ⟨evictions, last, accessed, member⟩ := selected_accessed selects
  obtain ⟨small, chosen⟩ := (accessed_length accessed sized le_rfl (single_run started single run)).2 eviction member
  intro other inside
  obtain rfl : other = eviction.victim := by
    rcases shape : eviction.shard with _ | ⟨first, _ | ⟨second, rest⟩⟩
    · simp [shape] at inside
    · simp only [shape, List.mem_singleton] at inside chosen
      rw [inside, chosen]
    · simp [shape] at small
  cases policy with
  | lru => exact le_rfl
  | lfu => exact le_rfl
  | ttl => trivial

private theorem hit_not_filled (other : Uuid) : .hit id ∉ (cache.accounts.fillOf now other).toList := by
  intro refilled
  obtain ⟨account, -, filled⟩ := Option.map_eq_some_iff.mp (Option.mem_toList.mp refilled)
  cases filled

private theorem hit_not_warmed {redis : Redis} (accountIds : List Uuid) :
    .hit id ∉ cache.warmupAccesses now redis accountIds := by
  intro member
  rw [warmupAccesses] at member
  split at member
  next => cases member
  next =>
    split at member
    next => cases member
    next =>
      split at member
      next => cases member
      next =>
        obtain ⟨other, -, warmed⟩ := List.mem_filterMap.mp member
        obtain ⟨_, _, _, _, -, -, filled⟩ := reads_of_warmOf warmed
        cases filled

/-- A hit is answered from an entry that has not expired. -/
theorem hit_live {redis : Redis} {operation : Operation} (member : .hit id ∈ cache.accesses now redis operation) :
    ∃ entry, cache.accounts.entry id = some entry ∧ isExpired now entry = false := by
  unfold Cache.accesses at member
  split at member
  next => cases member
  next =>
    cases operation with
    | getAccount accountId =>
      dsimp only at member
      cases found : cache.accounts.entry accountId with
      | none =>
        rw [found] at member
        dsimp only at member
        split at member
        next => cases member
        next => exact absurd member (hit_not_filled accountId)
      | some entry =>
        rw [found] at member
        dsimp only at member
        split at member
        next =>
          rcases List.mem_cons.mp member with removed | refilled
          · cases removed
          · split at refilled
            next => cases refilled
            next => exact absurd refilled (hit_not_filled accountId)
        next live =>
          cases List.mem_singleton.mp member
          exact ⟨entry, found, by simpa using live⟩
    | setAccount account ttl =>
      dsimp only at member
      split at member
      next => cases member
      next => cases List.mem_singleton.mp member
    | warmupCache accountIds => exact absurd member (hit_not_warmed accountIds)
    | invalidateAccount accountId | loseEntry accountId => cases List.mem_singleton.mp member
    | cleanUp => cases List.mem_singleton.mp member
    | deleteAccount accountId | getAccountEvents accountId | setAccountEvents accountId events ttl
    | deleteAccountEvents accountId | initializeService | loseKey accountId | loseEventsKey accountId => cases member

private theorem plain_of_no_hit {present : Uuid → Prop} (other : policy ≠ .lfu) (unhit : ∀ id, .hit id ∉ accesses) :
    Plain policy present accesses := by
  induction accesses generalizing present with
  | nil => trivial
  | cons access accesses ih =>
    have rest {present : Uuid → Prop} : Plain policy present accesses :=
      ih fun id member => unhit id (List.mem_cons_of_mem _ member)
    cases access with
    | fill id account => exact ⟨fun lfu => absurd lfu other, rest⟩
    | hit id => exact absurd List.mem_cons_self (unhit id)
    | remove id => exact rest
    | cleanUp => exact rest

/-- What is in memory was put there in time, to live as long as the configuration says. -/
def Aged (now : Instant) (accounts : CacheService) : Prop :=
  ∀ index id entry, (id, entry) ∈ accounts.shards index →
    entry.lastAccessed ≤ now ∧ entry.ttl = accounts.config.defaultTtl

private theorem accessed_aged (path : Memory.Accessed now memory accesses evictions last)
    (aged : Aged now memory.accounts) :
    Aged now last.accounts := by
  induction path with
  | done => exact aged
  | @access memory last accounts access rest evictions shuffled later ih =>
    apply ih
    intro index id entry member
    rw [Memory.access, access_config]
    rcases mem_access member with ⟨account, -, -, rfl⟩ | ⟨old, -⟩
    · exact ⟨le_rfl, rfl⟩
    · rw [shuffled.config]
      exact aged index id entry ((shuffled.shards index).subset old)

theorem aged_run (started : Started config start) (run : UsageRun permits first start now cache usage) :
    Aged now cache.accounts := by
  induction run with
  | start =>
    intro index id entry member
    rw [started.empty] at member
    cases member
  | @call evictions before now cache usage operation last redis run later permitted accessed aged =>
    have earlier : Aged now cache.accounts := by
      intro index id entry member
      obtain ⟨time, lifetime⟩ := aged index id entry member
      exact ⟨time.trans later.le, lifetime⟩
    intro index id entry member
    obtain ⟨time, lifetime⟩ := accessed_aged accessed earlier index id entry member
    refine ⟨time, lifetime.trans ?_⟩
    rw [accessed_config accessed]
    exact congrArg CacheConfig.defaultTtl (perform_config _ _ redis _).symm

theorem short_call_plain (aged : Aged before cache.accounts) (later : before < now)
    (short : cache.accounts.config.defaultTtl ≤ 1) (other : cache.accounts.config.evictionPolicy ≠ .lfu) :
    PlainCall now redis cache operation := by
  refine plain_of_no_hit other ?_
  intro id hit
  obtain ⟨entry, found, live⟩ := hit_live hit
  obtain ⟨time, lifetime⟩ := aged _ id entry (entry_member found)
  rw [isExpired, decide_eq_false_iff_not, lifetime, not_le] at live
  have brief : (cache.accounts.config.defaultTtl : Int) ≤ 1 := Int.ofNat_le.mpr short
  have elapsed : (1 : Int) ≤ now - entry.lastAccessed := Int.le_sub_left_of_add_le (Int.add_one_le_of_lt (time.trans_lt later))
  exact absurd live (not_lt.mpr (brief.trans elapsed))

theorem short_run_plain (started : Started config start) (short : config.defaultTtl ≤ 1)
    (other : config.evictionPolicy ≠ .lfu) (run : UsageRun permits first start now cache usage) :
    UsageRun PlainCall first start now cache usage := by
  induction run with
  | start => exact .start
  | @call evictions before now cache usage operation last redis run later permitted accessed plain =>
    have configured := run_config started run
    exact plain.call redis later
      (short_call_plain (aged_run started run) later (configured ▸ short) (configured ▸ other)) accessed

theorem unsharded_selects (started : Started config start) (none_ : config.shardCount = 0)
    (run : UsageRun permits first start before cache usage) : ¬ Selects now redis cache usage operation eviction := by
  intro selects
  obtain ⟨evictions, last, accessed, member⟩ := selected_accessed selects
  unfold Cache.accesses at accessed
  rw [if_pos (run_config started run ▸ none_)] at accessed
  rw [accessed_nil accessed] at member
  cases member

end Runs

end Proofs.Victims
end BankingEs
