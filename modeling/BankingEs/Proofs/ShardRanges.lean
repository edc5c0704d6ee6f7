import Mathlib
import BankingEs.Sharding.Shards
import BankingEs.Tiling

/-! The ranges of the shards tile the hashes, and assignments leave them where they are. -/

namespace BankingEs.Proofs.ShardRanges
open Async ShardManager Tiling

section Ranges
variable {config : ShardConfig} {now : DateTime}

private theorem checkedMul_ofNat {a : Nat} {b : UInt64} (small : a < UInt64.size) (fits : a * b.toNat < UInt64.size) :
    checkedMul (.ofNat a) b = some (.ofNat (a * b.toNat)) := by
  rw [checkedMul, UInt64.toNat_ofNat_of_lt' small, if_pos fits, UInt64.ofNat_mul, UInt64.ofNat_toNat]

private theorem checkedAdd_ofNat {a : Nat} (fits : a + 1 < UInt64.size) :
    checkedAdd (.ofNat a) 1 = some (.ofNat (a + 1)) := by
  have within : (UInt64.ofNat a).toNat + (1 : UInt64).toNat < UInt64.size := by
    rw [UInt64.toNat_ofNat_of_lt' (Nat.lt_of_succ_lt fits)]
    exact fits
  rw [checkedAdd, if_pos within, UInt64.ofNat_add]
  rfl

private theorem checkedSub_ofNat {a : Nat} (positive : 1 ≤ a) (small : a < UInt64.size) :
    checkedSub (.ofNat a) 1 = some (.ofNat (a - 1)) := by
  have whole : (UInt64.ofNat a).toNat = a := UInt64.toNat_ofNat_of_lt' small
  have order : (1 : UInt64) ≤ .ofNat a := by
    rw [UInt64.le_iff_toNat_le, whole]
    exact positive
  rw [checkedSub, if_pos order, UInt64.ofNat_sub positive]
  rfl

def rangeSize (config : ShardConfig) : UInt64 := u64Max / config.shardCount

/-- Where the shards of one index and up begin. -/
def bound (config : ShardConfig) (index : Nat) : Nat :=
  if index < config.shardCount.toNat then index * (rangeSize config).toNat else UInt64.size

private theorem rangeSize_toNat : (rangeSize config).toNat = (UInt64.size - 1) / config.shardCount.toNat := by
  rw [rangeSize, UInt64.toNat_div]
  rfl

private theorem rangeSize_pos (counted : 1 ≤ config.shardCount.toNat) : 1 ≤ (rangeSize config).toNat := by
  rw [rangeSize_toNat, Nat.one_le_div_iff counted]
  have small := config.shardCount.toNat_lt_size
  omega

private theorem mul_rangeSize_lt {index : Nat} (within : index ≤ config.shardCount.toNat) :
    index * (rangeSize config).toNat < UInt64.size := by
  have whole : config.shardCount.toNat * (rangeSize config).toNat ≤ UInt64.size - 1 := by
    rw [rangeSize_toNat]
    exact Nat.mul_div_le _ _
  have part := Nat.mul_le_mul_right (rangeSize config).toNat within
  have positive : 0 < UInt64.size := by decide
  omega

def row (config : ShardConfig) (clock : Nat → DateTime) (index : Nat) : ShardInfo where
  id := "shard-" ++ toString index
  rangeStart := .ofNat (index * (rangeSize config).toNat)
  rangeEnd := .ofNat (bound config (index + 1) - 1)
  instanceId := none
  status := .available
  lastUpdated := clock index

private theorem rangeEnd_eq {index : Nat} (below : index < config.shardCount.toNat) :
    rangeEnd config (rangeSize config) index = some (.ofNat (bound config (index + 1) - 1)) := by
  have small := config.shardCount.toNat_lt_size
  have last : checkedSub config.shardCount 1 = some (.ofNat (config.shardCount.toNat - 1)) := by
    rw [← checkedSub_ofNat (by omega) small, UInt64.ofNat_toNat]
  rw [rangeEnd, last, Option.bind_eq_bind, Option.bind_some]
  by_cases inner : index + 1 < config.shardCount.toNat
  · have differs : UInt64.ofNat index ≠ .ofNat (config.shardCount.toNat - 1) := by
      intro same
      have same := congrArg UInt64.toNat same
      rw [UInt64.toNat_ofNat_of_lt' (below.trans small), UInt64.toNat_ofNat_of_lt' (by omega)] at same
      omega
    have next := checkedMul_ofNat (inner.trans small) (mul_rangeSize_lt (Nat.le_of_lt inner))
    have positive : 1 ≤ (index + 1) * (rangeSize config).toNat :=
      Nat.mul_pos (Nat.succ_pos index) (rangeSize_pos (by omega))
    rw [if_neg differs, checkedAdd_ofNat (inner.trans small), Option.bind_some, next, Option.bind_some,
      checkedSub_ofNat positive (mul_rangeSize_lt (Nat.le_of_lt inner)), bound, if_pos inner]
  · have ends : index = config.shardCount.toNat - 1 := by omega
    rw [if_pos (congrArg UInt64.ofNat ends), bound, if_neg inner]
    rfl

private theorem shardAt_eq {clock : Nat → DateTime} {index : Nat} (below : index < config.shardCount.toNat) :
    shardAt config (rangeSize config) (clock index) index = some (row config clock index) := by
  have starts := checkedMul_ofNat (below.trans config.shardCount.toNat_lt_size) (mul_rangeSize_lt (Nat.le_of_lt below))
  rw [shardAt, starts, rangeEnd_eq below]
  rfl

private theorem row_id_injective (clock : Nat → DateTime) :
    Function.Injective fun index => (row config clock index).id :=
  fun _ _ same => Nat.repr_injective ((String.append_right_inj "shard-").mp same)

private theorem insert_row {clock : Nat → DateTime} (count : Nat) :
    ShardMap.insert ((List.range count).map (row config clock)) (row config clock count) =
      (List.range (count + 1)).map (row config clock) := by
  have others : ∀ shard ∈ (List.range count).map (row config clock), shard.id ≠ (row config clock count).id := by
    intro shard member same
    obtain ⟨index, below, rfl⟩ := List.mem_map.mp member
    have equal := row_id_injective clock same
    exact absurd (List.mem_range.mp below) (by omega)
  rw [ShardMap.insert, List.filter_eq_self.mpr (by simpa using others), List.range_succ, List.map_append]
  rfl

private theorem initializeShards_eq (clock : Nat → DateTime) (counted : 1 ≤ config.shardCount.toNat) :
    initializeShards config clock [] = some ((List.range config.shardCount.toNat).map (row config clock)) := by
  have divides : checkedDiv u64Max config.shardCount = some (rangeSize config) := by
    apply if_neg
    intro zero
    rw [zero] at counted
    exact absurd counted (by decide)
  have loop : ∀ count ≤ config.shardCount.toNat, (List.range count).foldlM (fun shards i => do
      let shard ← shardAt config (rangeSize config) (clock i) i
      return ShardMap.insert shards shard) [] = some ((List.range count).map (row config clock)) := by
    intro count within
    induction count with
    | zero => rfl
    | succ count ih =>
      rw [List.range_succ, List.foldlM_append, ih (by omega), Option.bind_eq_bind, Option.bind_some, List.foldlM_cons,
        shardAt_eq within, ← List.range_succ, ← insert_row]
      rfl
  rw [initializeShards, divides]
  exact loop _ le_rfl

private theorem bound_of_lt {index : Nat} (below : index < config.shardCount.toNat) :
    bound config index = index * (rangeSize config).toNat := if_pos below

private theorem bound_rises {index : Nat} (below : index < config.shardCount.toNat) :
    bound config index < bound config (index + 1) ∧ bound config (index + 1) ≤ UInt64.size := by
  have positive : 1 ≤ (rangeSize config).toNat := rangeSize_pos (by omega)
  rw [bound_of_lt below, bound]
  split
  next inner =>
    refine ⟨?_, (mul_rangeSize_lt (Nat.le_of_lt inner)).le⟩
    rw [Nat.succ_mul]
    omega
  next => exact ⟨mul_rangeSize_lt (Nat.le_of_lt below), le_rfl⟩

private theorem row_rangeStart {clock : Nat → DateTime} {index : Nat} (below : index < config.shardCount.toNat) :
    (row config clock index).rangeStart.toNat = bound config index := by
  rw [bound_of_lt below]
  exact UInt64.toNat_ofNat_of_lt' (mul_rangeSize_lt (Nat.le_of_lt below))

private theorem row_rangeEnd {clock : Nat → DateTime} {index : Nat} (below : index < config.shardCount.toNat) :
    (row config clock index).rangeEnd.toNat + 1 = bound config (index + 1) := by
  obtain ⟨rises, fits⟩ := bound_rises below
  have whole : (row config clock index).rangeEnd.toNat = bound config (index + 1) - 1 :=
    UInt64.toNat_ofNat_of_lt' (by omega)
  omega

private theorem rows_tile (clock : Nat → DateTime) (counted : 1 ≤ config.shardCount.toNat) :
    Tiles (fun shard => shard.rangeStart.toNat) (fun shard => shard.rangeEnd.toNat) 0
      ((List.range config.shardCount.toNat).map (row config clock)) UInt64.size := by
  have first : bound config 0 = 0 := by rw [bound_of_lt counted, Nat.zero_mul]
  have stop : bound config config.shardCount.toNat = UInt64.size := if_neg (lt_irrefl _)
  rw [← first, ← stop]
  apply Tiles.of_bounds
  · exact fun index below => row_rangeStart below
  · intro index below
    have ends : (row config clock index).rangeEnd.toNat + 1 = _ := row_rangeEnd below
    have rises := bound_rises below
    omega
  · exact fun index below => row_rangeEnd below

end Ranges

section Routing
variable {shards order : List ShardInfo} {hash : UInt64}

private theorem covers_iff {shard : ShardInfo} :
    shard.covers hash = true ↔ shard.rangeStart.toNat ≤ hash.toNat ∧ hash.toNat ≤ shard.rangeEnd.toNat := by
  simp [ShardInfo.covers, UInt64.le_iff_toNat_le]

def Apart (shard other : ShardInfo) : Prop := ∀ hash, ¬(shard.covers hash ∧ other.covers hash)

instance : Std.Symm Apart := ⟨fun _ _ apart hash both => apart hash both.symm⟩

/-- The ranges of the shards share no hash. -/
def Disjoint (shards : List ShardInfo) : Prop := shards.Pairwise Apart

private theorem disjoint_of_tiles {stop : Nat}
    (tiles : Tiles (fun shard => shard.rangeStart.toNat) (fun shard => shard.rangeEnd.toNat) 0 shards stop) :
    Disjoint shards := by
  refine tiles.ordered.imp ?_
  rintro shard other apart hash ⟨covers, coversToo⟩
  have below := (covers_iff.mp covers).2
  have above := (covers_iff.mp coversToo).1
  omega

private theorem covered_of_tiles
    (tiles : Tiles (fun shard => shard.rangeStart.toNat) (fun shard => shard.rangeEnd.toNat) 0 shards UInt64.size)
    (hash : UInt64) : ∃ shard ∈ shards, shard.covers hash := by
  obtain ⟨shard, member, within⟩ := tiles.covers (Nat.zero_le hash.toNat) hash.toNat_lt_size
  exact ⟨shard, member, covers_iff.mpr within⟩

private theorem Disjoint.unique {shard other : ShardInfo} (disjoint : Disjoint shards) (member : shard ∈ shards)
    (memberToo : other ∈ shards) (covers : shard.covers hash) (coversToo : other.covers hash) : shard = other := by
  by_contra differs
  exact List.Pairwise.forall disjoint member memberToo differs hash ⟨covers, coversToo⟩

private theorem Disjoint.find {shard : ShardInfo} (disjoint : Disjoint shards) (permuted : order.Perm shards)
    (member : shard ∈ shards) (covers : shard.covers hash) :
    (order.find? fun shard => shard.covers hash) = some shard := by
  cases found : order.find? fun shard => shard.covers hash with
  | none => exact absurd covers (List.find?_eq_none.mp found shard (permuted.mem_iff.mpr member))
  | some other =>
    have memberToo := permuted.mem_iff.mp (List.mem_of_find?_eq_some found)
    rw [disjoint.unique memberToo member (List.find?_some found) covers]

/-- What stays of a shard for good. -/
def identity (shard : ShardInfo) : String × UInt64 × UInt64 := (shard.id, shard.rangeStart, shard.rangeEnd)

private theorem covers_of_identity {shard other : ShardInfo} (same : identity shard = identity other) :
    shard.covers hash = other.covers hash := by
  simp only [identity, Prod.mk.injEq] at same
  rw [ShardInfo.covers, ShardInfo.covers, same.2.1, same.2.2]

private theorem Disjoint.of_identities {later : List ShardInfo} (disjoint : Disjoint shards)
    (same : later.map identity = shards.map identity) : Disjoint later := by
  let covers := fun (range : String × UInt64 × UInt64) (hash : UInt64) => range.2.1 ≤ hash && hash ≤ range.2.2
  have apart : ∀ list : List ShardInfo, (list.map identity).Pairwise
      (fun range other => ∀ hash, ¬(covers range hash ∧ covers other hash)) ↔ Disjoint list :=
    fun list => List.pairwise_map
  rw [← apart, same, apart]
  exact disjoint

end Routing

section Runs
variable {ι : Type} {thread : ι} {before after : ShardWorld ι} {shards : List ShardInfo} {config : ShardConfig}

/-- A shard is assigned to an instance exactly when it says so. -/
def Consistent (shard : ShardInfo) : Prop := shard.status = .assigned ↔ shard.instanceId.isSome

structure Framed (shards : List ShardInfo) (world : ShardWorld ι) : Prop where
  identities : world.shards.map identity = shards.map identity
  consistent : ∀ shard ∈ world.shards, Consistent shard

private theorem rows_framed {locks : LockStore ι} {clock : Nat → DateTime} {count : Nat} :
    Framed ((List.range count).map (row config clock)) ⟨locks, (List.range count).map (row config clock)⟩ := by
  refine ⟨rfl, ?_⟩
  intro shard member
  obtain ⟨index, _, rfl⟩ := List.mem_map.mp member
  simp [Consistent, row]

variable [DecidableEq ι]

private theorem serves_framed {β : Type} {op : ShardCall β} {reply : β}
    (served : ShardWorld.serves thread before op reply after)
    (framed : Framed shards before) : Framed shards after := by
  rcases op with op | op
  · obtain ⟨locks, _, rfl⟩ := served
    exact ⟨framed.identities, framed.consistent⟩
  cases op with
  | assign shardId instanceId =>
    obtain ⟨now, rfl⟩ := served
    refine ⟨?_, ?_⟩
    · rw [← framed.identities, ShardMap.assign, List.map_map]
      apply List.map_congr_left
      intro shard _
      rw [Function.comp_apply]
      split <;> rfl
    · intro shard member
      obtain ⟨old, present, rfl⟩ := List.mem_map.mp member
      split
      next => simp [Consistent]
      next => exact framed.consistent old present
  | iter | len | iterInstances _ =>
    obtain ⟨_, rfl⟩ := served
    exact framed

private theorem Framed.routes {world after : ShardWorld ι} {hashKey : String → UInt64} {key : String}
    {first : ShardInfo}
    {result : Except String (Option ShardInfo)} (framed : Framed shards world) (disjoint : Disjoint shards)
    (member : first ∈ shards) (covers : first.covers (hashKey key))
    (run : Runs (ShardWorld.serves thread) world (getShardForKey hashKey key) result after) :
    ∃ shard ∈ world.shards, result = .ok (some shard) ∧ shard.id = first.id ∧ shard.covers (hashKey key) := by
  have present : identity first ∈ world.shards.map identity := by
    rw [framed.identities]
    exact List.mem_map_of_mem member
  obtain ⟨shard, here, same⟩ := List.mem_map.mp present
  have routed : shard.covers (hashKey key) := by rw [covers_of_identity same, covers]
  refine ⟨shard, here, ?_, congrArg Prod.fst same, routed⟩
  cases run with
  | request order served rest =>
    obtain ⟨permuted, rfl⟩ := served
    cases rest
    rw [(disjoint.of_identities framed.identities).find permuted here routed]

/-- The shards divide the hashes among them, whatever their number, and no assignment or
rebalancing changes their ids, their ranges or the shard that a key is routed to. -/
theorem shards_partition (counted : 1 ≤ config.shardCount.toNat) (clock : Nat → DateTime) :
    ∃ shards, initializeShards config clock [] = some shards ∧ shards.length = config.shardCount.toNat ∧
      (shards.map ShardInfo.id).Nodup ∧
      (shards.Pairwise fun shard other => ∀ hash, ¬(shard.covers hash ∧ other.covers hash)) ∧
      (∀ hash, ∃ shard ∈ shards, shard.covers hash) ∧
      ∀ {ι : Type} [DecidableEq ι] (operations : ι → Operation) (locks : LockStore ι)
        (history : List (Served ι ShardCall (ShardWorld ι))) threads (last : ShardWorld ι),
        Interleaves ShardWorld.serves (fun thread => perform config (operations thread)) ⟨locks, shards⟩
          history threads last →
        last.shards.map identity = shards.map identity ∧
        (∀ shard ∈ last.shards, shard.status = .assigned ↔ shard.instanceId.isSome) ∧
        ∀ hashKey key thread, ∃ first ∈ shards, first.covers (hashKey key) ∧
          (∃ result after, Runs (ShardWorld.serves thread) last (getShardForKey hashKey key) result after) ∧
          ∀ result after, Runs (ShardWorld.serves thread) last (getShardForKey hashKey key) result after →
            ∃ shard ∈ last.shards, result = .ok (some shard) ∧ shard.id = first.id ∧ shard.covers (hashKey key) := by
  have tiles := rows_tile clock counted
  have disjoint := disjoint_of_tiles tiles
  refine ⟨_, initializeShards_eq clock counted, by simp, ?_, disjoint, covered_of_tiles tiles, ?_⟩
  · rw [List.map_map]
    exact List.nodup_range.map (row_id_injective clock)
  · intro ι _ operations locks history threads last run
    have framed := run.invariant (Framed _) (fun _ _ _ _ _ _ served framed => serves_framed served framed) rows_framed
    refine ⟨framed.identities, framed.consistent, ?_⟩
    intro hashKey key thread
    obtain ⟨first, member, covers⟩ := covered_of_tiles tiles (hashKey key)
    refine ⟨first, member, covers, ?_, fun result after reads => framed.routes disjoint member covers reads⟩
    exact ⟨_, last, .request last.shards ⟨.refl _, rfl⟩ .pure⟩

theorem default_shards_partition : ∃ shards, initializeShards {} (fun _ => 0) [] = some shards ∧ shards.length = 16 ∧
    ∀ hash, ∃ shard ∈ shards, shard.covers hash := by
  have counted : 1 ≤ ({} : ShardConfig).shardCount.toNat := by decide
  obtain ⟨shards, set, length, _, _, covered, _⟩ := shards_partition counted (fun _ => 0)
  exact ⟨shards, set, length, covered⟩

end Runs
end BankingEs.Proofs.ShardRanges
