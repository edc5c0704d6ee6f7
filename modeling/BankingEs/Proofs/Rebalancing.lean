import Mathlib.Data.List.Count
import Mathlib.Tactic.Linarith
import BankingEs.Proofs.Moves

/-! When a rebalancing helps. Every overloaded instance gives one shard to every underloaded
one in turn, so that the last of them gets them all. -/

namespace BankingEs.Proofs.Rebalancing
open Async ShardManager OwnWorld Acquisitions Placement Moves

def averageLoad (shards : ShardMap) : ℚ := Comparisons.average shards.length (instanceShards shards)

/-- The largest deviation of an instance's number of shards from the average. -/
def largestDeviation (shards : ShardMap) : ℚ :=
  ((instanceShards shards).map fun entry => |(entry.2.length : ℚ) - averageLoad shards|).foldr max 0

def load (shards : ShardMap) (instanceId : String) : Nat := (shardsOf shards instanceId).length

private theorem load_eq_countP (shards : ShardMap) (instanceId : String) :
    load shards instanceId = shards.countP fun shard => shard.instanceId = some instanceId :=
  List.countP_eq_length_filter.symm

/-- The two comparisons of the rebalancing, on rational numbers. -/
abbrev isHeavy (threshold : ℚ) (shards : ShardMap) : String × List ShardInfo → Bool :=
  (Comparisons.exact threshold).isOverloaded shards.length (instanceShards shards)

abbrev isLight (threshold : ℚ) (shards : ShardMap) : String × List ShardInfo → Bool :=
  (Comparisons.exact threshold).isUnderloaded shards.length (instanceShards shards)

private theorem foldr_max_le_iff {values : List ℚ} {bound : ℚ} :
    values.foldr max 0 ≤ bound ↔ 0 ≤ bound ∧ ∀ value ∈ values, value ≤ bound := by
  induction values with
  | nil => simp
  | cons value values ih => rw [List.foldr_cons, max_le_iff, ih, List.forall_mem_cons, and_left_comm]

private theorem mem_entries {shards : ShardMap} {entry : String × List ShardInfo}
    (member : entry ∈ instanceShards shards) :
    entry.2.length = load shards entry.1 ∧ load shards entry.1 ≠ 0 := by
  obtain ⟨same, filled⟩ := mem_instanceShards.mp member
  rw [load, ← same]
  exact ⟨rfl, fun none => filled (List.length_eq_zero_iff.mp none)⟩

private theorem exists_entry {shards : ShardMap} {instanceId : String} (loaded : load shards instanceId ≠ 0) :
    (instanceId, shardsOf shards instanceId) ∈ instanceShards shards :=
  mem_instanceShards.mpr ⟨rfl, fun none => loaded (List.length_eq_zero_iff.mpr none)⟩

private theorem mem_keys_iff {shards : ShardMap} {instanceId : String} :
    instanceId ∈ (instanceShards shards).map Prod.fst ↔ load shards instanceId ≠ 0 := by
  constructor
  · intro member
    obtain ⟨entry, inside, rfl⟩ := List.mem_map.mp member
    exact (mem_entries inside).2
  · intro loaded
    exact List.mem_map_of_mem (exists_entry loaded)

private theorem largestDeviation_le_iff {shards : ShardMap} {bound : ℚ} :
    largestDeviation shards ≤ bound ↔
      0 ≤ bound ∧ ∀ instanceId, load shards instanceId ≠ 0 → |(load shards instanceId : ℚ) - averageLoad shards| ≤ bound := by
  rw [largestDeviation, foldr_max_le_iff, List.forall_mem_map]
  refine and_congr_right fun _ => ⟨?_, ?_⟩
  · intro bounded instanceId loaded
    rw [load]
    exact bounded (instanceId, shardsOf shards instanceId) (exists_entry loaded)
  · intro bounded entry member
    obtain ⟨same, loaded⟩ := mem_entries member
    rw [same]
    exact bounded entry.1 loaded

/-- Every instance has a shard, so they have more than one each on average. -/
theorem one_le_averageLoad {shards : ShardMap} {instanceId : String} (loaded : load shards instanceId ≠ 0) :
    1 ≤ averageLoad shards := by
  have some : 0 < (instanceShards shards).length := List.length_pos_of_mem (exists_entry loaded)
  rw [averageLoad, Comparisons.average, le_div_iff₀ (by exact_mod_cast some), one_mul]
  exact_mod_cast length_instanceShards_le shards

private theorem assign_absent {shards : ShardMap} {now : DateTime} {shardId instanceId : String}
    (absent : shardId ∉ shards.map ShardInfo.id) : shards.assign now shardId instanceId = shards := by
  rw [ShardMap.assign]
  conv_rhs => rw [← List.map_id shards]
  refine List.map_congr_left fun shard member => if_neg ?_
  rintro rfl
  exact absent (List.mem_map_of_mem member)

private theorem load_assign {shards : ShardMap} {shard : ShardInfo} (distinct : (shards.map ShardInfo.id).Nodup)
    (stored : shard ∈ shards) (now : DateTime) (target instanceId : String) :
    load (shards.assign now shard.id target) instanceId + (if shard.instanceId = some instanceId then 1 else 0) =
      load shards instanceId + if target = instanceId then 1 else 0 := by
  obtain ⟨before, rest, rfl⟩ := List.append_of_mem stored
  rw [List.map_append, List.map_cons, List.nodup_append, List.nodup_cons] at distinct
  obtain ⟨_, ⟨unlike, _⟩, different⟩ := distinct
  have earlier : ShardMap.assign now shard.id target before = before :=
    assign_absent fun member => different _ member _ List.mem_cons_self rfl
  have later : ShardMap.assign now shard.id target rest = rest := assign_absent unlike
  rw [ShardMap.assign] at earlier later
  rw [ShardMap.assign, List.map_append, List.map_cons, earlier, later, if_pos rfl]
  simp only [load_eq_countP, List.countP_append, List.countP_cons, decide_eq_true_eq, Option.some.injEq]
  omega

private theorem load_reassigned {gifts : List ShardInfo} {target : String} {shards after : ShardMap}
    (distinct : (shards.map ShardInfo.id).Nodup) (stored : gifts ⊆ shards) (different : (gifts.map ShardInfo.id).Nodup)
    (reassigned : Reassigns (gifts.map fun shard => (shard.id, target)) shards after) :
    after.length = shards.length ∧ ∀ instanceId,
      load after instanceId + gifts.countP (fun shard => shard.instanceId = some instanceId) =
        load shards instanceId + if target = instanceId then gifts.length else 0 := by
  induction gifts generalizing shards with
  | nil =>
    obtain rfl : after = shards := reassigned
    simp
  | cons shard gifts ih =>
    obtain ⟨now, rest⟩ := reassigned
    obtain ⟨unlike, different⟩ := List.nodup_cons.mp different
    obtain ⟨present, stored⟩ := List.cons_subset.mp stored
    have names : (shards.assign now shard.id target).map ShardInfo.id = shards.map ShardInfo.id := by
      rw [ShardMap.assign, List.map_map]
      refine List.map_congr_left fun other _ => ?_
      dsimp only [Function.comp_apply]
      split <;> rfl
    -- The shards that are still to go have other ids, and stay where they are.
    have kept : gifts ⊆ shards.assign now shard.id target := by
      intro other member
      refine List.mem_map.mpr ⟨other, stored member, if_neg ?_⟩
      intro same
      exact unlike (same ▸ List.mem_map_of_mem member)
    obtain ⟨count, loads⟩ := ih (names ▸ distinct) kept different rest
    refine ⟨count.trans (List.length_map _), fun instanceId => ?_⟩
    have step := load_assign distinct present now target instanceId
    have others := loads instanceId
    rw [List.countP_cons, List.length_cons]
    simp only [decide_eq_true_eq]
    split_ifs at * <;> omega

/-- One shard of each overloaded instance has gone to the only underloaded one. -/
structure Moved (shards after : ShardMap) (overloaded : List String) (target : String) : Prop where
  count : after.length = shards.length
  loaded : load shards target ≠ 0
  below : (load shards target : ℚ) < averageLoad shards
  takes : load after target = load shards target + overloaded.length
  above : ∀ instanceId ∈ overloaded, averageLoad shards < load shards instanceId
  gives : ∀ instanceId ∈ overloaded, load after instanceId + 1 = load shards instanceId
  keeps : ∀ instanceId, instanceId ∉ overloaded → instanceId ≠ target → load after instanceId = load shards instanceId

namespace Moved
variable {shards after : ShardMap} {overloaded : List String} {target : String}

private theorem loaded_iff (moved : Moved shards after overloaded target) (instanceId : String) :
    load after instanceId ≠ 0 ↔ load shards instanceId ≠ 0 := by
  by_cases gives : instanceId ∈ overloaded
  · have more : (1 : ℚ) < load shards instanceId := (one_le_averageLoad moved.loaded).trans_lt (moved.above _ gives)
    have many : 1 < load shards instanceId := by exact_mod_cast more
    have fewer := moved.gives _ gives
    omega
  · by_cases same : instanceId = target
    · subst same
      have loaded := moved.loaded
      have takes := moved.takes
      omega
    · rw [moved.keeps instanceId gives same]

private theorem averageLoad_eq (moved : Moved shards after overloaded target) :
    averageLoad after = averageLoad shards := by
  have instances : ((instanceShards after).map Prod.fst).Perm ((instanceShards shards).map Prod.fst) := by
    refine (List.perm_ext_iff_of_nodup (instanceShards_keys_nodup after) (instanceShards_keys_nodup shards)).mpr ?_
    intro instanceId
    rw [mem_keys_iff, mem_keys_iff, moved.loaded_iff]
  have number := instances.length_eq
  rw [List.length_map, List.length_map] at number
  rw [averageLoad, averageLoad, Comparisons.average, Comparisons.average, number, moved.count]

private theorem largestDeviation_le_iff (moved : Moved shards after overloaded target) :
    largestDeviation after ≤ largestDeviation shards ↔
      (load shards target : ℚ) + overloaded.length - averageLoad shards ≤ largestDeviation shards := by
  obtain ⟨nonneg, bounded⟩ := Rebalancing.largestDeviation_le_iff.mp (le_refl (largestDeviation shards))
  have lowest := neg_le_of_abs_le (bounded target moved.loaded)
  rw [Rebalancing.largestDeviation_le_iff, moved.averageLoad_eq]
  constructor
  · rintro ⟨_, deviates⟩
    have taken := le_of_abs_le (deviates target ((moved.loaded_iff target).mpr moved.loaded))
    rw [moved.takes, Nat.cast_add] at taken
    exact taken
  · intro taken
    refine ⟨nonneg, fun instanceId loaded => ?_⟩
    by_cases gives : instanceId ∈ overloaded
    · have above := moved.above instanceId gives
      have fewer : (load after instanceId : ℚ) + 1 = load shards instanceId := by exact_mod_cast moved.gives instanceId gives
      -- Loads are whole numbers, so what it has left is no less than what the target had.
      have order : load shards target < load shards instanceId := by exact_mod_cast moved.below.trans above
      have gap : (load shards target : ℚ) + 1 ≤ load shards instanceId := by exact_mod_cast order
      have highest := le_of_abs_le (bounded instanceId ((moved.loaded_iff instanceId).mp loaded))
      exact abs_le.mpr ⟨by linarith, by linarith⟩
    · by_cases same : instanceId = target
      · subst same
        rw [moved.takes, Nat.cast_add, abs_le]
        have many : (0 : ℚ) ≤ overloaded.length := Nat.cast_nonneg _
        exact ⟨by linarith, taken⟩
      · rw [moved.keeps instanceId gives same]
        exact bounded instanceId ((moved.loaded_iff instanceId).mp loaded)

private theorem of_given {gifts : List ShardInfo} (distinct : (shards.map ShardInfo.id).Nodup) (stored : gifts ⊆ shards)
    (different : (gifts.map ShardInfo.id).Nodup) (owners : gifts.map ShardInfo.instanceId = overloaded.map some)
    (unique : overloaded.Nodup) (above : ∀ instanceId ∈ overloaded, averageLoad shards < load shards instanceId)
    (loaded : load shards target ≠ 0) (below : (load shards target : ℚ) < averageLoad shards)
    (reassigned : Reassigns (gifts.map fun shard => (shard.id, target)) shards after) :
    Moved shards after overloaded target := by
  obtain ⟨count, loads⟩ := load_reassigned distinct stored different reassigned
  have number : gifts.length = overloaded.length := by simpa using congrArg List.length owners
  have givers (instanceId : String) :
      gifts.countP (fun shard => shard.instanceId = some instanceId) = overloaded.count instanceId := by
    rw [← List.count_map_of_injective overloaded some (Option.some_injective String), ← owners, List.count, List.countP_map]
    exact List.countP_congr fun shard _ => by simp
  simp only [givers, number] at loads
  have apart : target ∉ overloaded := fun member => lt_asymm below (above target member)
  refine ⟨count, loaded, below, ?_, above, ?_, ?_⟩
  · have taken := loads target
    rwa [List.count_eq_zero_of_not_mem apart, Nat.add_zero, if_pos rfl] at taken
  · intro instanceId member
    have gone := loads instanceId
    have other : target ≠ instanceId := fun same => apart (same ▸ member)
    rwa [List.count_eq_one_of_mem unique member, if_neg other, Nat.add_zero] at gone
  · intro instanceId absent other
    have same := loads instanceId
    rwa [List.count_eq_zero_of_not_mem absent, if_neg other.symm, Nat.add_zero, Nat.add_zero] at same

end Moved

section Single
variable {threshold : ℚ} {shards after : ShardMap} {order : InstanceShards}

private theorem overloaded_above (nonneg : 0 ≤ threshold) {entry : String × List ShardInfo}
    (member : entry ∈ instanceShards shards)
    (heavy : isHeavy threshold shards entry = true) : averageLoad shards < load shards entry.1 := by
  obtain ⟨same, loaded⟩ := mem_entries member
  have above : averageLoad shards * (1 + threshold) < entry.2.length := of_decide_eq_true heavy
  rw [same] at above
  have average := one_le_averageLoad loaded
  nlinarith

private theorem underloaded_below (nonneg : 0 ≤ threshold) {entry : String × List ShardInfo}
    (member : entry ∈ instanceShards shards)
    (light : isLight threshold shards entry = true) : (load shards entry.1 : ℚ) < averageLoad shards := by
  obtain ⟨same, loaded⟩ := mem_entries member
  have below : (entry.2.length : ℚ) < averageLoad shards * (1 - threshold) :=
    of_decide_eq_true (Bool.and_eq_true_iff.mp light).2
  rw [same] at below
  have average := one_le_averageLoad loaded
  nlinarith

private theorem keys_nodup (reordered : order.Perm (instanceShards shards)) (chosen : String × List ShardInfo → Bool) :
    ((order.filter chosen).map Prod.fst).Nodup :=
  ((reordered.map Prod.fst).nodup_iff.mpr (instanceShards_keys_nodup shards)).sublist (List.filter_sublist.map _)

private theorem given_different (distinct : (shards.map ShardInfo.id).Nodup)
    (reordered : order.Perm (instanceShards shards))
    (chosen : String × List ShardInfo → Bool) :
    ((given (instanceShards shards) ((order.filter chosen).map Prod.fst)).map ShardInfo.id).Nodup := by
  obtain ⟨stored, owners⟩ := given_owners (filter_collected reordered chosen)
  have nodup := (keys_nodup reordered chosen).map (Option.some_injective String)
  rw [← owners] at nodup
  refine nodup.of_map.map_on ?_
  intro first inside second within same
  exact List.inj_on_of_nodup_map distinct (stored inside) (stored within) same

private theorem planned_moved (nonneg : 0 ≤ threshold) (distinct : (shards.map ShardInfo.id).Nodup)
    (reordered : order.Perm (instanceShards shards)) {target : String × List ShardInfo}
    (single : order.filter (isLight threshold shards) = [target])
    (reassigned : Reassigns (planned (.exact threshold) shards.length (instanceShards shards) order) shards after) :
    Moved shards after ((order.filter (isHeavy threshold shards)).map Prod.fst) target.1 := by
  have member : target ∈ instanceShards shards ∧ isLight threshold shards target = true := by
    have inside : target ∈ order.filter _ := single ▸ List.mem_singleton_self target
    obtain ⟨inside, light⟩ := List.mem_filter.mp inside
    exact ⟨reordered.subset inside, light⟩
  have below := underloaded_below nonneg member.1 member.2
  obtain ⟨stored, owners⟩ := given_owners (filter_collected reordered _)
  rw [planned, moves, single] at reassigned
  simp only [List.map_singleton, ← List.map_eq_flatMap] at reassigned
  refine Moved.of_given distinct stored (given_different distinct reordered _) owners (keys_nodup reordered _) ?_
    (mem_entries member.1).2 below reassigned
  intro instanceId inside
  obtain ⟨entry, filtered, rfl⟩ := List.mem_map.mp inside
  obtain ⟨inside, heavy⟩ := List.mem_filter.mp filtered
  exact overloaded_above nonneg (reordered.subset inside) heavy

end Single

private theorem through_granted {millis : Nat} {tries : Tries}
    (granted : ∀ acquisition, tries.ending millis acquisition = .granted)
    (start count : Nat) : (tries.through millis start count).1 = .granted := by
  induction count generalizing start with
  | zero => rfl
  | succ count ih =>
    rw [Tries.through, granted start]
    exact ih (start + 1)

private theorem run_reassigns {slow : Prop} {tries : Tries} {config : ShardConfig} {comparisons : Comparisons}
    {entries : InstanceShards}
    {start : Instant} {shards : ShardMap} {result : Except String Unit} {after : OwnWorld}
    (granted : ∀ acquisition, tries.ending (lockMillis config) acquisition = .granted)
    (run : Runs (serves slow tries) { now := start, shards } (comparisons.performRebalancing config entries) result after) :
    ∃ order, order.Perm entries ∧ after.assigned = (planned comparisons shards.length entries order).reverse ∧
      Reassigns (planned comparisons shards.length entries order) shards after.shards := by
  obtain ⟨order, reordered, _, reassigns⟩ := (performRebalancing_makes (by simp)).runs run
  obtain ⟨reassigned, assigned⟩ := reassigns (through_granted granted _ _)
  exact ⟨order, reordered, by simpa using assigned, reassigned⟩

section Instances
variable (threshold : ℚ) (shards : ShardMap)

def overloadedInstances : InstanceShards := (instanceShards shards).filter (isHeavy threshold shards)

def underloadedInstances : InstanceShards := (instanceShards shards).filter (isLight threshold shards)

/-- There is nothing to move, or one instance takes all that moves without coming to deviate
more than any did. -/
def Fits : Prop :=
  overloadedInstances threshold shards = [] ∨ underloadedInstances threshold shards = [] ∨
    (underloadedInstances threshold shards).length = 1 ∧ ∀ entry ∈ underloadedInstances threshold shards,
      (entry.2.length : ℚ) + (overloadedInstances threshold shards).length - averageLoad shards ≤ largestDeviation shards

instance : Decidable (Fits threshold shards) := inferInstanceAs (Decidable (_ ∨ _))

end Instances

/-- No shard moves twice, and the deviation does not grow. -/
def Helps (shards : ShardMap) (after : OwnWorld) : Prop :=
  (after.assigned.map Prod.fst).Nodup ∧ largestDeviation after.shards ≤ largestDeviation shards

section Run
variable {threshold : ℚ} {shards : ShardMap} {order : InstanceShards} {after : OwnWorld}
  (assigned : after.assigned = (planned (.exact threshold) shards.length (instanceShards shards) order).reverse)
include assigned

private theorem not_helps_of_two (reordered : order.Perm (instanceShards shards))
    {giver first second : String × List ShardInfo}
    {givers others : InstanceShards}
    (overloaded : order.filter (isHeavy threshold shards) = giver :: givers)
    (underloaded : order.filter (isLight threshold shards) = first :: second :: others) : ¬Helps shards after := by
  rintro ⟨once, _⟩
  have inside : giver ∈ order.filter _ := overloaded ▸ List.mem_cons_self
  obtain ⟨shard, _, _, found⟩ := first_shard (reordered.subset (List.mem_of_mem_filter inside))
  have gifts : given (instanceShards shards) ((giver :: givers).map Prod.fst) =
      shard :: given (instanceShards shards) (givers.map Prod.fst) := by
    rw [List.map_cons, given, List.filterMap_cons, found]
    rfl
  rw [assigned, List.map_reverse, List.nodup_reverse, planned, moves, overloaded, underloaded, gifts] at once
  simp at once

variable
  (reassigned : Reassigns (planned (.exact threshold) shards.length (instanceShards shards) order) shards after.shards)
include reassigned

private theorem helps_of_nothing (nothing : planned (.exact threshold) shards.length (instanceShards shards) order = []) :
    Helps shards after := by
  rw [nothing] at assigned reassigned
  have same : after.shards = shards := reassigned
  rw [Helps, assigned, same]
  exact ⟨List.nodup_nil, le_rfl⟩

private theorem single_helps_iff (nonneg : 0 ≤ threshold) (distinct : (shards.map ShardInfo.id).Nodup)
    (reordered : order.Perm (instanceShards shards)) {target : String × List ShardInfo}
    (single : order.filter (isLight threshold shards) = [target]) :
    Helps shards after ↔
      (target.2.length : ℚ) + (overloadedInstances threshold shards).length - averageLoad shards ≤
        largestDeviation shards := by
  have moved := planned_moved nonneg distinct reordered single reassigned
  have inside : target ∈ order.filter _ := single ▸ List.mem_singleton_self target
  have own := (mem_entries (reordered.subset (List.mem_of_mem_filter inside))).1
  have number := (reordered.filter (isHeavy threshold shards)).length_eq
  rw [Helps, moved.largestDeviation_le_iff, List.length_map, own, number, overloadedInstances, and_iff_right_iff_imp]
  intro _
  rw [assigned, List.map_reverse, List.nodup_reverse, planned, moves, single]
  simp only [List.map_singleton, ← List.map_eq_flatMap, List.map_map]
  exact given_different distinct reordered _

end Run

private theorem helps_iff {threshold : ℚ} {shards : ShardMap} {order : InstanceShards} {after : OwnWorld}
    (nonneg : 0 ≤ threshold)
    (distinct : (shards.map ShardInfo.id).Nodup) (reordered : order.Perm (instanceShards shards))
    (assigned : after.assigned = (planned (.exact threshold) shards.length (instanceShards shards) order).reverse)
    (reassigned : Reassigns (planned (.exact threshold) shards.length (instanceShards shards) order) shards after.shards) :
    Helps shards after ↔ Fits threshold shards := by
  have heavy := reordered.filter (isHeavy threshold shards)
  have light := reordered.filter (isLight threshold shards)
  rw [← overloadedInstances] at heavy
  rw [← underloadedInstances] at light
  rcases givers : order.filter (isHeavy threshold shards) with _ | ⟨giver, others⟩
  · rw [givers] at heavy
    have nothing : planned (.exact threshold) shards.length (instanceShards shards) order = [] := by
      rw [planned, givers]
      rfl
    exact iff_of_true (helps_of_nothing assigned reassigned nothing) (.inl heavy.symm.eq_nil)
  · have some : overloadedInstances threshold shards ≠ [] := by
      intro none
      rw [givers, none] at heavy
      exact List.cons_ne_nil _ _ heavy.eq_nil
    rcases takers : order.filter (isLight threshold shards) with _ | ⟨target, _ | ⟨second, rest⟩⟩
    · rw [takers] at light
      have nothing : planned (.exact threshold) shards.length (instanceShards shards) order = [] := by
        rw [planned, moves, takers]
        simp
      exact iff_of_true (helps_of_nothing assigned reassigned nothing) (.inr (.inl light.symm.eq_nil))
    · rw [takers] at light
      have only := List.perm_singleton.mp light.symm
      rw [single_helps_iff assigned reassigned nonneg distinct reordered takers, Fits, only]
      simp [some]
    · rw [takers] at light
      refine iff_of_false (not_helps_of_two assigned reordered givers takers) ?_
      have number := light.length_eq
      rintro (none | none | ⟨single, _⟩)
      · exact some none
      · simp [none] at number
      · simp [single] at number

section Runs
variable {threshold : ℚ} {config : ShardConfig} {shards : ShardMap} {tries : Tries} {start : Instant}

private theorem exists_unhelpful (nonneg : 0 ≤ threshold) (distinct : (shards.map ShardInfo.id).Nodup)
    (granted : ∀ acquisition, tries.ending (lockMillis config) acquisition = .granted)
    (unfit : ¬Fits threshold shards) :
    ∃ result after, Runs (serves True tries) { now := start, shards }
      ((Comparisons.exact threshold).performRebalancing config (instanceShards shards)) result after ∧
        ¬Helps shards after := by
  obtain ⟨result, after, run⟩ := Runs.of_total (serves_total True tries)
    ((Comparisons.exact threshold).performRebalancing config (instanceShards shards)) { now := start, shards }
  obtain ⟨order, reordered, assigned, reassigned⟩ := run_reassigns granted run
  exact ⟨result, after, run, (helps_iff nonneg distinct reordered assigned reassigned).not.mpr unfit⟩

/-- With every lock granted, a rebalancing helps exactly if the instances are loaded so. -/
theorem rebalancing_helps_iff (nonneg : 0 ≤ threshold) (distinct : (shards.map ShardInfo.id).Nodup)
    (granted : ∀ acquisition, tries.ending (lockMillis config) acquisition = .granted) :
    (∀ result after, Runs (serves True tries) { now := start, shards }
      ((Comparisons.exact threshold).performRebalancing config (instanceShards shards)) result after → Helps shards after) ↔
    Fits threshold shards := by
  constructor
  · intro helps
    by_contra unfit
    obtain ⟨result, after, run, unhelpful⟩ := @exists_unhelpful _ _ _ _ start nonneg distinct granted unfit
    exact unhelpful (helps result after run)
  · intro fits result after run
    obtain ⟨order, reordered, assigned, reassigned⟩ := run_reassigns granted run
    exact (helps_iff nonneg distinct reordered assigned reassigned).mpr fits

end Runs

theorem one_move_helps : Fits (1 / 5) (distribution ["a", "a", "b"]) ∧
    ∀ result after, Runs (serves True fun _ _ => .acquired) { shards := distribution ["a", "a", "b"] }
      ((Comparisons.exact (1 / 5)).performRebalancing {} (instanceShards (distribution ["a", "a", "b"]))) result after →
        Helps (distribution ["a", "a", "b"]) after :=
  ⟨by decide +kernel, (rebalancing_helps_iff (by norm_num) (by decide +kernel) (fun _ => rfl)).mpr (by decide +kernel)⟩

/-- A shard that goes to two instances in turn; and two shards that go to one, which had one. -/
theorem moves_do_not_help :
    (∃ result after, Runs (serves True fun _ _ => .acquired) { shards := distribution ["a", "a", "a", "a", "b", "c"] }
      ((Comparisons.exact (1 / 5)).performRebalancing {} (instanceShards (distribution ["a", "a", "a", "a", "b", "c"])))
      result after ∧ ¬Helps (distribution ["a", "a", "a", "a", "b", "c"]) after) ∧
    ∃ result after, Runs (serves True fun _ _ => .acquired) { shards := distribution ["a", "a", "b", "b", "c"] }
      ((Comparisons.exact (1 / 10)).performRebalancing {} (instanceShards (distribution ["a", "a", "b", "b", "c"])))
      result after ∧ ¬Helps (distribution ["a", "a", "b", "b", "c"]) after :=
  ⟨exists_unhelpful (by norm_num) (by decide +kernel) (fun _ => rfl) (by decide +kernel),
    exists_unhelpful (by norm_num) (by decide +kernel) (fun _ => rfl) (by decide +kernel)⟩

end BankingEs.Proofs.Rebalancing
