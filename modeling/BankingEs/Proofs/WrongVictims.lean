import BankingEs.Proofs.SelfBlocking
import BankingEs.Proofs.Victims

/-! Runs after which the wrong entry is selected to be evicted: a shard is filled up around two
entries, of which the one that is used more is the older by the fields that the policy compares. -/

namespace BankingEs.Proofs.WrongVictims
open Cache CacheService Locking SelfBlocking Victims

variable {now : Instant} {accounts : CacheService} {memory last : Memory} {access : Access}
  {accesses : List Access} {evictions : List Eviction} {id : Uuid} {entry : CacheEntry}

def anyCall : Instant → Redis → Cache → Operation → Prop := fun _ _ _ _ => True

def returning (layout : CacheLayout) (permits : Instant → Redis → Cache → Operation → Prop) (now : Instant)
    (redis : Redis) (cache : Cache) (operation : Operation) : Prop :=
  permits now redis cache operation ∧ ¬ Blocks [] (CacheLocks.perform layout now redis cache operation).trace

/-- After calls that have returned, a call selects an entry to be evicted. -/
def Selected (layout : CacheLayout) (permits : Instant → Redis → Cache → Operation → Prop) (config : CacheConfig)
    (eviction : Eviction) : Prop :=
  ∃ first start before cache usage now redis operation, Started config start ∧
    UsageRun (returning layout permits) first start before cache usage ∧ before < now ∧
    permits now redis cache operation ∧ Selects now redis cache usage operation eviction

private theorem returning_of_free {layout : CacheLayout} {now : Instant} {redis : Redis} {cache : Cache}
    {operation : Operation}
    (free : ¬ Collides now redis cache operation) : returning layout anyCall now redis cache operation := by
  refine ⟨trivial, ?_⟩
  rw [perform_blocks_iff]
  exact fun blocks => free blocks.2

def key (config : CacheConfig) (number : Nat) : Uuid := ⟨BitVec.ofNat 128 (number * config.shardCount)⟩

def blank (id : Uuid) : Account := { id, ownerName := "", balance := 0, isActive := true, version := 0 }

def newEntry (config : CacheConfig) (now : Instant) (account : Account) : CacheEntry :=
  { value := account, createdAt := now, lastAccessed := now, accessCount := 1, ttl := config.defaultTtl }

/-- There are enough ids for the shard, and it takes two of them. -/
structure Crowding (config : CacheConfig) : Prop where
  counted : config.shardCount ≠ 0
  fits : ∀ number ≤ config.maxSize, number * config.shardCount < 2 ^ 128
  pair : 2 ≤ config.maxSize

variable {config : CacheConfig} {number other count : Nat} {account : Account}

private theorem Crowding.key_toNat (crowding : Crowding config) (small : number ≤ config.maxSize) :
    (key config number).bits.toNat = number * config.shardCount := by
  rw [key, BitVec.toNat_ofNat, Nat.mod_eq_of_lt (crowding.fits number small)]

private theorem Crowding.key_shard (crowding : Crowding config) (small : number ≤ config.maxSize)
    (configured : accounts.config = config) : accounts.getShardIndex (key config number) = 0 := by
  rw [getShardIndex, configured, crowding.key_toNat small, Nat.mul_mod_left]

private theorem Crowding.key_inj (crowding : Crowding config) (small : number ≤ config.maxSize)
    (little : other ≤ config.maxSize) (same : key config number = key config other) : number = other := by
  have bits : (key config number).bits.toNat = (key config other).bits.toNat := congrArg (fun id => id.bits.toNat) same
  rw [crowding.key_toNat small, crowding.key_toNat little] at bits
  exact Nat.eq_of_mul_eq_mul_right (Nat.pos_of_ne_zero crowding.counted) bits

private theorem Crowding.apart (crowding : Crowding config) : key config 1 ≠ key config 0 := by
  intro same
  have pair := crowding.pair
  exact absurd (crowding.key_inj (by omega) (by omega) same) one_ne_zero

private theorem Crowding.fill (crowding : Crowding config) (small : number ≤ config.maxSize)
    (configured : memory.accounts.config = config) {shard : Shard} (held : memory.accounts.shards 0 = shard)
    (room : shard.length < config.maxSize) :
    memory.evicted (.fill (key config number) account) = [] ∧
    (memory.access now (.fill (key config number) account)).accounts.shards 0 =
      shard.insert (key config number) (newEntry config now account) ∧
    (memory.access now (.fill (key config number) account)).usage (key config number) =
      ⟨now, if shard.any fun entry => entry.1 = key config number then (memory.usage (key config number)).uses + 1
        else 1⟩ := by
  have placed := crowding.key_shard small configured
  subst configured held
  refine ⟨?_, ?_, ?_⟩
  · dsimp only [Memory.evicted]
    rw [placed, if_neg (not_le.mpr room)]
  · simp only [Memory.access, CacheService.access, updateInMemoryCache, setShard_shards, placed, if_neg (not_le.mpr room)]
    rfl
  · simp only [Memory.access, Memory.use, makeRoom, placed, if_neg (not_le.mpr room), Function.update_self]

private theorem insert_again {older : CacheEntry} : Shard.insert [(id, older)] id entry = [(id, entry)] := by
  simp [Shard.insert, Shard.remove]

private theorem insert_absent {shard : Shard} (absent : ∀ held ∈ shard, held.1 ≠ id) :
    shard.insert id entry = (id, entry) :: shard := by
  rw [Shard.insert, Shard.remove, List.filter_eq_self.mpr]
  intro held member
  simpa using absent held member

/-- Of the first two ids the second is used more, but its entry is not the younger. -/
structure Skewed (config : CacheConfig) (count : Nat) (memory : Memory) : Prop where
  configured : memory.accounts.config = config
  two : 2 ≤ count
  length : (memory.accounts.shards 0).length = count
  entries : ∀ held ∈ memory.accounts.shards 0,
    (∃ number < count, held.1 = key config number) ∧ 1 ≤ held.2.lastAccessed ∧ held.2.accessCount = 1
  first : ∃ entry, (key config 0, entry) ∈ memory.accounts.shards 0
  second : ∃ entry, (key config 1, entry) ∈ memory.accounts.shards 0 ∧ entry.lastAccessed = 1
  skew : match config.evictionPolicy with
    | .lru => (memory.usage (key config 0)).lastUse < (memory.usage (key config 1)).lastUse
    | .lfu => (memory.usage (key config 0)).uses < (memory.usage (key config 1)).uses
    | .ttl => False

private theorem Skewed.absent (crowding : Crowding config) (skewed : Skewed config count memory)
    (small : count ≤ config.maxSize) : ∀ held ∈ memory.accounts.shards 0, held.1 ≠ key config count := by
  intro held member same
  obtain ⟨⟨number, below, named⟩, -⟩ := skewed.entries held member
  exact below.ne (crowding.key_inj (below.le.trans small) small (named.symm.trans same))

private theorem Skewed.fill (crowding : Crowding config) (skewed : Skewed config count memory)
    (small : count < config.maxSize)
    (time : 1 ≤ now) : Skewed config (count + 1) (memory.access now (.fill (key config count) account)) := by
  obtain ⟨-, shard, -⟩ :=
    @Crowding.fill now memory config count account crowding small.le skewed.configured _ rfl (skewed.length ▸ small)
  rw [insert_absent (skewed.absent crowding small.le)] at shard
  have apart {number : Nat} (below : number < 2) :
      (memory.access now (.fill (key config count) account)).usage (key config number) =
        memory.usage (key config number) := by
    refine use_other ?_ nofun
    intro other same
    have less : number < count := below.trans_le skewed.two
    obtain ⟨equal, -⟩ := Access.fill.inj same
    exact less.ne' (crowding.key_inj small.le (less.le.trans small.le) equal)
  refine ⟨access_config.trans skewed.configured, skewed.two.trans (Nat.le_succ _), ?_, ?_, ?_, ?_, ?_⟩
  · rw [shard, List.length_cons, skewed.length]
  · rw [shard]
    intro held member
    rcases List.mem_cons.mp member with rfl | old
    · exact ⟨⟨count, Nat.lt_succ_self _, rfl⟩, time, rfl⟩
    · obtain ⟨⟨number, below, named⟩, rest⟩ := skewed.entries held old
      exact ⟨⟨number, below.trans (Nat.lt_succ_self _), named⟩, rest⟩
  · obtain ⟨entry, member⟩ := skewed.first
    exact ⟨entry, shard ▸ List.mem_cons_of_mem _ member⟩
  · obtain ⟨entry, member, old⟩ := skewed.second
    exact ⟨entry, shard ▸ List.mem_cons_of_mem _ member, old⟩
  · rw [apart Nat.zero_lt_two, apart Nat.one_lt_two]
    exact skewed.skew

private theorem Skewed.same {other : Memory} (skewed : Skewed config count memory)
    (configs : other.accounts.config = memory.accounts.config) (shards : other.accounts.shards = memory.accounts.shards)
    (usage : other.usage = memory.usage) : Skewed config count other := by
  obtain ⟨configured, two, length, entries, first, second, skew⟩ := skewed
  rw [← shards] at length entries first second
  rw [← usage] at skew
  exact ⟨configs.trans configured, two, length, entries, first, second, skew⟩

variable {layout : CacheLayout} {first : Instant} {start cache : Cache} {usage : Uuid → Usage}

private theorem Accessed.quietly (free : memory.evicted access = [])
    (later : Memory.Accessed now (memory.access now access) accesses evictions last) :
    Memory.Accessed now memory (access :: accesses) evictions last := by
  have path : Memory.Accessed now memory (access :: accesses) (memory.evicted access ++ evictions) last :=
    .access ⟨rfl, rfl, fun _ => .refl _⟩ later
  rwa [free] at path

private theorem set_accesses (counted : cache.accounts.config.shardCount ≠ 0) (account : Account) :
    cache.accesses now connected (.setAccount account (some (Duration.fromSecs 1))) = [.fill account.id account] := by
  have answer : Cache.setEx connected (Duration.fromSecs 1) = .ok () := CacheService.setEx_lasting (by decide)
  unfold Cache.accesses
  dsimp only [Option.getD_some]
  rw [if_neg counted, answer]

private theorem single_call {redis : Redis} {operation : Operation} {before : Instant}
    (run : UsageRun (returning layout anyCall) first start before cache usage) (later : before < now)
    (free : ¬ Collides now redis cache operation) (accesses : cache.accesses now redis operation = [access]) :
    UsageRun (returning layout anyCall) first start now
      ((cache.perform now redis operation).2.withShards
        (Memory.access now ⟨cache.accounts, usage⟩ access).accounts.shards)
      (Memory.access now ⟨cache.accounts, usage⟩ access).usage := by
  have accessed : Memory.Accessed now ⟨cache.accounts, usage⟩ (cache.accesses now redis operation)
      (Memory.evicted ⟨cache.accounts, usage⟩ access ++ []) (Memory.access now ⟨cache.accounts, usage⟩ access) := by
    rw [accesses]
    exact .access ⟨rfl, rfl, fun _ => .refl _⟩ .done
  exact run.call redis later (returning_of_free free) accessed

private theorem set_free {account : Account} {ttl : Option Duration}
    (room : (cache.accounts.shards (cache.accounts.getShardIndex account.id)).length < cache.accounts.config.maxSize) :
    ¬ Collides now connected cache (.setAccount account ttl) := fun collides => room.not_ge collides.2.1

private theorem fill_up (crowding : Crowding config) (missing : Nat)
    (skewed : Skewed config count ⟨cache.accounts, usage⟩)
    (small : count + missing = config.maxSize) (time : 1 ≤ now)
    (run : UsageRun (returning layout anyCall) first start now cache usage) :
    ∃ later full used, UsageRun (returning layout anyCall) first start later full used ∧
      Skewed config config.maxSize ⟨full.accounts, used⟩ := by
  induction missing generalizing count now cache usage with
  | zero =>
    obtain rfl : count = config.maxSize := small
    exact ⟨now, cache, usage, run, skewed⟩
  | succ missing ih =>
    have room : count < config.maxSize := by omega
    have counted : cache.accounts.config.shardCount ≠ 0 := skewed.configured ▸ crowding.counted
    have later : now < now + 1 := Int.lt_succ now
    have placed : cache.accounts.getShardIndex (blank (key config count)).id = 0 :=
      crowding.key_shard room.le skewed.configured
    have next := single_call run later
      (set_free (by rwa [placed, show (cache.accounts.shards 0).length = count from skewed.length, skewed.configured]))
      (set_accesses counted (blank (key config count)))
    refine ih ((skewed.fill crowding room (time.trans later.le)).same ?_ rfl rfl) ?_ (time.trans later.le) next
    · exact (perform_config _ _ connected _).trans access_config.symm
    · omega

private theorem Skewed.chosen (skewed : Skewed config count memory) :
    ∃ accounts entry older, memory.accounts.Shuffled accounts ∧
    CacheService.victim config.evictionPolicy (accounts.shards 0) = some (key config 1, entry) ∧
    (key config 0, older) ∈ accounts.shards 0 := by
  obtain ⟨entry, member, oldest⟩ := skewed.second
  obtain ⟨older, inside⟩ := skewed.first
  obtain ⟨left, right, shape⟩ := List.append_of_mem member
  have reordered : List.Perm ((key config 1, entry) :: (left ++ right)) (memory.accounts.shards 0) := by
    rw [shape]
    exact List.perm_middle.symm
  have shard : (memory.accounts.setShard 0 ((key config 1, entry) :: (left ++ right))).shards 0 =
      (key config 1, entry) :: (left ++ right) := by simp [setShard_shards]
  refine ⟨memory.accounts.setShard 0 ((key config 1, entry) :: (left ++ right)), entry, older,
    ⟨rfl, rfl, fun index => ?_⟩, shard ▸ victim_head ?_, shard ▸ reordered.symm.subset inside⟩
  · rw [setShard_shards]
    split
    next here =>
      rw [here]
      exact reordered
    next => exact .refl _
  · intro other held
    obtain ⟨-, young, once⟩ := skewed.entries other (reordered.subset (List.mem_cons_of_mem _ held))
    obtain ⟨-, -, single⟩ := skewed.entries _ member
    have skew := skewed.skew
    cases policy : config.evictionPolicy with
    | lru => exact oldest.trans_le young
    | lfu => exact Int.ofNat_le.mpr (single.trans once.symm).le
    | ttl =>
      rw [policy] at skew
      exact skew.elim

private theorem Skewed.evicts (crowding : Crowding config) (skewed : Skewed config config.maxSize memory) :
    ∃ accounts eviction, memory.accounts.Shuffled accounts ∧
      eviction ∈ ({ memory with accounts } : Memory).evicted (.fill (key config config.maxSize) account) ∧
      ¬ eviction.Follows config.evictionPolicy := by
  obtain ⟨accounts, entry, older, shuffled, victim, inside⟩ := skewed.chosen
  have configured : accounts.config = config := shuffled.config.trans skewed.configured
  have placed : accounts.getShardIndex (key config config.maxSize) = 0 := crowding.key_shard le_rfl configured
  have full : config.maxSize ≤ (accounts.shards 0).length := by rw [(shuffled.shards 0).length_eq, skewed.length]
  have evicted : ({ memory with accounts } : Memory).evicted (.fill (key config config.maxSize) account) =
      [⟨accounts.shards 0, memory.usage, (key config 1, entry)⟩] := by
    dsimp only [Memory.evicted]
    rw [placed, configured, if_pos full, victim]
    rfl
  refine ⟨accounts, _, shuffled, evicted ▸ List.mem_singleton_self _, ?_⟩
  intro follows
  have order := follows _ inside
  have skew := skewed.skew
  cases policy : config.evictionPolicy with
  | lru =>
    rw [policy] at skew order
    exact skew.not_ge order
  | lfu =>
    rw [policy] at skew order
    exact skew.not_ge order
  | ttl =>
    rw [policy] at skew
    exact skew

/-- From two entries that are used unevenly on, some run gets to a wrong selection. -/
theorem Skewed.violates (crowding : Crowding config) (skewed : Skewed config 2 ⟨cache.accounts, usage⟩)
    (time : 1 ≤ now) (started : Started config start)
    (run : UsageRun (returning layout anyCall) first start now cache usage) :
    ∃ eviction, Selected layout anyCall config eviction ∧ ¬ eviction.Follows config.evictionPolicy := by
  obtain ⟨missing, size⟩ := Nat.exists_eq_add_of_le crowding.pair
  obtain ⟨later, full, used, run, skewed⟩ := fill_up crowding missing skewed size.symm time run
  obtain ⟨accounts, eviction, shuffled, selected, wrong⟩ :=
    @Skewed.evicts _ config (blank (key config config.maxSize)) crowding skewed
  have counted : full.accounts.config.shardCount ≠ 0 := skewed.configured ▸ crowding.counted
  have selects : Selects (later + 1) connected full used
      (.setAccount (blank (key config config.maxSize)) (some (Duration.fromSecs 1))) eviction :=
    .selects (set_accesses counted _) (fun _ => List.not_mem_nil) .done shuffled selected
  exact ⟨eviction, ⟨_, _, _, _, _, _, _, _, started, run, Int.lt_succ later, trivial, selects⟩, wrong⟩

def supplied (config : CacheConfig) : Cache where
  accounts := { config, redis := fun id => some ⟨some (blank id), 2⟩ }
  events := { redis := fun _ => some ⟨some [], 2⟩ }

private theorem supplied_started : Started config (supplied config) := ⟨rfl, fun _ => rfl⟩

private theorem warmup_accesses (counted : config.shardCount ≠ 0) (one two : Uuid) :
    (supplied config).accesses 1 connected (.warmupCache [one, one, two]) =
      [.fill one (blank one), .fill one (blank one), .fill two (blank two)] := by
  unfold Cache.accesses
  rw [if_neg (show (supplied config).accounts.config.shardCount ≠ 0 from counted)]
  rfl

private theorem warmup_free (crowding : Crowding config) (one two : Uuid) :
    ¬ Collides 1 connected (supplied config) (.warmupCache [one, one, two]) := by
  rintro ⟨-, -, -, earlier, id, later, split, full, -⟩
  have filled : [one, one, two] = earlier ++ id :: later := split
  have distinct : earlier.dedup.length ≤ 1 := by
    rcases earlier with _ | ⟨first, _ | ⟨second, _ | ⟨third, rest⟩⟩⟩
    · exact Nat.zero_le _
    · simp
    · simp only [List.cons_append, List.nil_append, List.cons.injEq] at filled
      obtain ⟨rfl, rfl, -⟩ := filled
      simp
    · simp at filled
  have few : occupancy (supplied config).accounts earlier id ≤ earlier.dedup.length := by
    have inside : (together (supplied config).accounts earlier id).dedup ⊆ earlier.dedup := fun other member =>
      List.mem_dedup.mpr (List.filter_subset_self _ (List.mem_dedup.mp member))
    have fewer := (List.subperm_of_subset (List.nodup_dedup _) inside).length_le
    simpa [occupancy, supplied] using fewer
  have pair := crowding.pair
  have full : config.maxSize ≤ _ := full
  omega

private theorem warmed (crowding : Crowding config) : ∃ cache usage,
    UsageRun (returning layout anyCall) 0 (supplied config) 1 cache usage ∧ cache.accounts.config = config ∧
    cache.accounts.shards 0 = [(key config 0, newEntry config 1 (blank (key config 0))),
      (key config 1, newEntry config 1 (blank (key config 1)))] ∧
    usage (key config 0) = ⟨1, 1⟩ ∧ usage (key config 1) = ⟨1, 2⟩ := by
  let empty : Memory := ⟨(supplied config).accounts, fun _ => {}⟩
  let second := Access.fill (key config 1) (blank (key config 1))
  let one := empty.access 1 second
  let again := one.access 1 second
  let both := again.access 1 (.fill (key config 0) (blank (key config 0)))
  have pair := crowding.pair
  obtain ⟨free, oneShard, used⟩ := @Crowding.fill 1 empty config 1 (blank (key config 1)) crowding (by omega) rfl
    [] rfl (Nat.zero_lt_of_lt pair)
  have oneUsage : one.usage (key config 1) = ⟨1, 1⟩ := used
  obtain ⟨freeAgain, shard, used⟩ := @Crowding.fill 1 one config 1 (blank (key config 1)) crowding (by omega) rfl
    [_] oneShard pair
  have againShard : again.accounts.shards 0 = [(key config 1, newEntry config 1 (blank (key config 1)))] :=
    shard.trans insert_again
  have againUsage : again.usage (key config 1) = ⟨1, 2⟩ := by
    refine Eq.trans used ?_
    rw [oneUsage]
    simp
  obtain ⟨freeBoth, shard, used⟩ := @Crowding.fill 1 again config 0 (blank (key config 0)) crowding (by omega) rfl
    [_] againShard pair
  have bothShard : both.accounts.shards 0 = [(key config 0, newEntry config 1 (blank (key config 0))),
      (key config 1, newEntry config 1 (blank (key config 1)))] :=
    shard.trans (insert_absent (by simpa using crowding.apart))
  have firstUsage : both.usage (key config 0) = ⟨1, 1⟩ := by
    refine Eq.trans used ?_
    simp [crowding.apart]
  have secondUsage : both.usage (key config 1) = ⟨1, 2⟩ := by
    refine Eq.trans (use_other ?_ nofun) againUsage
    rintro account same
    exact crowding.apart.symm (Access.fill.inj same).1
  have accessed : Memory.Accessed 1 empty
      ((supplied config).accesses 1 connected (.warmupCache [key config 1, key config 1, key config 0])) [] both := by
    rw [warmup_accesses crowding.counted]
    exact Accessed.quietly free (Accessed.quietly freeAgain (Accessed.quietly freeBoth .done))
  exact ⟨_, _, UsageRun.start.call connected Int.one_pos (returning_of_free (warmup_free crowding _ _)) accessed,
    perform_config _ _ connected _, bothShard, firstUsage, secondUsage⟩

private theorem skewed_pair (configured : memory.accounts.config = config)
    (shard : memory.accounts.shards 0 = [(key config 0, newEntry config 1 (blank (key config 0))),
      (key config 1, newEntry config 1 (blank (key config 1)))])
    (skew : match config.evictionPolicy with
      | .lru => (memory.usage (key config 0)).lastUse < (memory.usage (key config 1)).lastUse
      | .lfu => (memory.usage (key config 0)).uses < (memory.usage (key config 1)).uses
      | .ttl => False) : Skewed config 2 memory := by
  refine ⟨configured, le_rfl, by rw [shard]; rfl, ?_, ⟨newEntry config 1 (blank (key config 0)), ?_⟩,
    ⟨newEntry config 1 (blank (key config 1)), ?_, rfl⟩, skew⟩
  · rw [shard]
    intro held member
    rcases List.mem_pair.mp member with rfl | rfl
    · exact ⟨⟨0, Nat.zero_lt_two, rfl⟩, le_rfl, rfl⟩
    · exact ⟨⟨1, Nat.one_lt_two, rfl⟩, le_rfl, rfl⟩
  · rw [shard]
    exact List.mem_cons_self
  · rw [shard]
    exact List.mem_cons_of_mem _ List.mem_cons_self

private theorem lfu_violates (crowding : Crowding config) (lfu : config.evictionPolicy = .lfu) :
    ∃ eviction, Selected layout anyCall config eviction ∧ ¬ eviction.Follows config.evictionPolicy := by
  obtain ⟨cache, usage, run, configured, shard, first, second⟩ := @warmed _ layout crowding
  refine Skewed.violates crowding (skewed_pair configured shard ?_) le_rfl supplied_started run
  rw [lfu]
  simp [first, second]

private theorem lru_violates (crowding : Crowding config) (lru : config.evictionPolicy = .lru)
    (long : 1 < config.defaultTtl) :
    ∃ eviction, Selected layout anyCall config eviction ∧ ¬ eviction.Follows config.evictionPolicy := by
  obtain ⟨cache, usage, run, configured, shard, first, second⟩ := @warmed _ layout crowding
  have pair := crowding.pair
  have found : cache.accounts.entry (key config 1) = some (newEntry config 1 (blank (key config 1))) := by
    rw [entry, crowding.key_shard (by omega) configured, shard]
    rw [List.lookup_cons, beq_false_of_ne crowding.apart]
    exact List.lookup_cons_self
  have live : isExpired 2 (newEntry config 1 (blank (key config 1))) = false := by
    rw [isExpired, decide_eq_false_iff_not, not_le]
    exact Int.ofNat_lt.mpr long
  have accesses : cache.accesses 2 connected (.getAccount (key config 1)) = [.hit (key config 1)] := by
    unfold Cache.accesses
    dsimp only
    rw [if_neg (configured ▸ crowding.counted), found]
    dsimp only
    rw [live]
    rfl
  have free : ¬ Collides 2 connected cache (.getAccount (key config 1)) := by
    rw [Collides, found]
    simp [live]
  have next := single_call run one_lt_two free accesses
  refine Skewed.violates crowding ?_ one_le_two supplied_started next
  refine skewed_pair ?_ shard ?_
  · exact (perform_config _ _ connected _).trans configured
  · rw [lru]
    have used : (Memory.access 2 ⟨cache.accounts, usage⟩ (.hit (key config 1))).usage (key config 0) = ⟨1, 1⟩ :=
      (use_other (by simp) (by simpa using crowding.apart)).trans first
    dsimp only
    rw [used]
    simp [Memory.access, Memory.use]

/-- Without shards, by age, with one entry to a shard, or if entries expire before they can
be used again. -/
def Harmless (config : CacheConfig) : Prop :=
  config.shardCount = 0 ∨ config.evictionPolicy = .ttl ∨ config.maxSize = 1 ∨
    config.evictionPolicy = .lru ∧ config.defaultTtl ≤ 1

/-- In runs of plain calls what is selected to be evicted follows its policy, and in all runs it does
under harmless configurations only. -/
theorem eviction_iff {config : CacheConfig} (layout : CacheLayout) (room : 1 ≤ config.maxSize)
    (sizes : config.maxSize < 2 ^ 64) (counts : config.shardCount < 2 ^ 64) :
    (∀ eviction, Selected layout PlainCall config eviction → eviction.Follows config.evictionPolicy) ∧
    ((∀ eviction, Selected layout anyCall config eviction → eviction.Follows config.evictionPolicy) ↔ Harmless config) := by
  refine ⟨?_, ?_, ?_⟩
  · intro eviction ⟨_, _, _, _, _, _, _, _, started, run, _, called, selects⟩
    exact plain_selects_follows started (fun _ _ _ _ permitted => permitted.1) run called selects
  · intro follow
    by_contra harmful
    simp only [Harmless, not_or, not_and, not_le] at harmful
    obtain ⟨counted, younger, several, long⟩ := harmful
    have crowding : Crowding config := by
      refine ⟨counted, ?_, by omega⟩
      intro number small
      calc number * config.shardCount
        _ ≤ config.maxSize * config.shardCount := Nat.mul_le_mul_right _ small
        _ < 2 ^ 64 * 2 ^ 64 := Nat.mul_lt_mul'' sizes counts
        _ = 2 ^ 128 := by decide
    have violated : ∃ eviction, Selected layout anyCall config eviction ∧ ¬ eviction.Follows config.evictionPolicy := by
      cases policy : config.evictionPolicy with
      | lru => exact policy ▸ lru_violates crowding policy (long policy)
      | lfu => exact policy ▸ lfu_violates crowding policy
      | ttl => exact absurd policy younger
    obtain ⟨eviction, selected, wrong⟩ := violated
    exact wrong (follow eviction selected)
  · intro harmless eviction ⟨_, _, _, _, _, _, _, _, started, run, later, _, selects⟩
    rcases harmless with none_ | ttl | single | ⟨lru, short⟩
    · exact absurd selects (unsharded_selects started none_ run)
    · intro other _
      rw [ttl]
      trivial
    · exact single_selects_follows started single run selects
    · have plain := short_run_plain started short (by simp [lru]) run
      have configured := run_config started run
      refine plain_selects_follows started (fun _ _ _ _ permitted => permitted) plain ?_ selects
      exact short_call_plain (aged_run started run) later (configured ▸ short) (by simp [configured, lru])

theorem eviction_default : 1 ≤ ({} : CacheConfig).maxSize ∧
    ¬ ∀ eviction, Selected .single anyCall {} eviction → eviction.Follows .lru := by
  refine ⟨by decide, fun follow => ?_⟩
  have harmless := (@eviction_iff {} .single (by decide) (by decide) (by decide)).2.mp follow
  rcases harmless with none_ | ttl | single | ⟨-, short⟩
  · cases none_
  · cases ttl
  · cases single
  · exact absurd short (by decide)

/-- Two accounts are set, the first of them is read, and a third one is set into the full shard: the
first is selected to be evicted, although the second was used less recently. -/
theorem read_entry_selected : ∃ eviction,
    Selected .single anyCall { maxSize := 2, shardCount := 1 } eviction ∧ eviction.victim.1 = ⟨0⟩ ∧
      ¬ eviction.Follows .lru := by
  have first := @single_call 1 (.fill ⟨0⟩ (blank ⟨0⟩)) .single _ _ _ _ connected (.setAccount (blank ⟨0⟩) none) _
    (.start : UsageRun _ 0 (CacheFreshness.fresh { maxSize := 2, shardCount := 1 } 100) _ _ _) one_pos
    (set_free (by decide)) rfl
  have second := @single_call 2 (.fill ⟨1⟩ (blank ⟨1⟩)) .single _ _ _ _ connected (.setAccount (blank ⟨1⟩) none) _ first
    one_lt_two (set_free (by decide)) rfl
  have read := @single_call 3 (.hit ⟨0⟩) .single _ _ _ _ connected (.getAccount ⟨0⟩) _ second (by decide)
    Bool.false_ne_true rfl
  refine ⟨_, ⟨_, _, _, _, _, 4, connected, .setAccount (blank ⟨2⟩) none, ⟨rfl, fun _ => rfl⟩, read, by decide, trivial,
    @Selects.selects _ _ _ _ _ _ [] [] _ _ _ rfl (fun _ => List.not_mem_nil) .done ⟨rfl, rfl, fun _ => .refl _⟩
      List.mem_cons_self⟩, rfl, ?_⟩
  intro follows
  exact absurd (follows _ List.mem_cons_self) (by decide)

end BankingEs.Proofs.WrongVictims
