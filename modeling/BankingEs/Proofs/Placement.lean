import Mathlib.Data.List.Induction
import BankingEs.Keyed
import BankingEs.Sharding.Shards

/-! Which shards lie with which instance, as the rebalancing collects it from the map. -/

namespace BankingEs.Proofs.Placement
open ShardManager

/-- The shards of an instance, in the order of the map. -/
def shardsOf (shards : List ShardInfo) (instanceId : String) : List ShardInfo :=
  shards.filter fun shard => shard.instanceId = some instanceId

private theorem lookup_push (instanceId other : String) (shard : ShardInfo) (entries : InstanceShards) :
    (push instanceId shard entries).lookup other =
      if other = instanceId then some ((entries.lookup instanceId).getD [] ++ [shard]) else entries.lookup other := by
  induction entries with
  | nil =>
    by_cases same : other = instanceId
    · simp [push, same]
    · rw [if_neg same, push, List.lookup_cons, beq_false_of_ne same]
  | cons entry entries ih =>
    obtain ⟨first, shards⟩ := entry
    rw [push]
    by_cases found : first = instanceId
    · subst found
      by_cases same : other = first
      · simp [same]
      · rw [if_pos rfl, if_neg same, List.lookup_cons, List.lookup_cons, beq_false_of_ne same]
    · have unfound : (instanceId == first) = false := beq_false_of_ne fun same => found same.symm
      rw [if_neg found, List.lookup_cons, List.lookup_cons, List.lookup_cons, ih, unfound]
      by_cases here : other = first
      · subst here
        simp [found]
      · rw [beq_false_of_ne here]

private theorem mem_keys_push (instanceId other : String) (shard : ShardInfo) (entries : InstanceShards) :
    other ∈ (push instanceId shard entries).map Prod.fst ↔ other = instanceId ∨ other ∈ entries.map Prod.fst := by
  induction entries with
  | nil => simp [push]
  | cons entry entries ih =>
    obtain ⟨first, shards⟩ := entry
    rw [push]
    split
    · next found => simp [found]
    · rw [List.map_cons, List.map_cons, List.mem_cons, List.mem_cons, ih, or_left_comm]

private theorem push_keys_nodup {instanceId : String} {shard : ShardInfo} {entries : InstanceShards}
    (distinct : (entries.map Prod.fst).Nodup) : ((push instanceId shard entries).map Prod.fst).Nodup := by
  induction entries with
  | nil => simp [push]
  | cons entry entries ih =>
    obtain ⟨first, shards⟩ := entry
    rw [push]
    split
    · exact distinct
    · next other =>
      obtain ⟨absent, distinct⟩ := List.nodup_cons.mp distinct
      refine List.nodup_cons.mpr ⟨?_, ih distinct⟩
      rw [mem_keys_push]
      rintro (same | member)
      · exact other same
      · exact absent member

private theorem length_push_le (instanceId : String) (shard : ShardInfo) (entries : InstanceShards) :
    (push instanceId shard entries).length ≤ entries.length + 1 := by
  induction entries with
  | nil => exact le_rfl
  | cons entry entries ih =>
    rw [push]
    split
    · exact Nat.le_succ _
    · exact Nat.succ_le_succ ih

private theorem instanceShards_concat (shards : List ShardInfo) (shard : ShardInfo) :
    instanceShards (shards ++ [shard]) = match shard.instanceId with
      | some instanceId => push instanceId shard (instanceShards shards)
      | none => instanceShards shards := by
  rw [instanceShards, List.foldl_concat]
  rfl

theorem instanceShards_keys_nodup (shards : List ShardInfo) : ((instanceShards shards).map Prod.fst).Nodup := by
  induction shards using List.reverseRecOn with
  | nil => exact List.nodup_nil
  | append_singleton shards shard ih =>
    rw [instanceShards_concat]
    cases shard.instanceId with
    | none => exact ih
    | some instanceId => exact push_keys_nodup ih

theorem length_instanceShards_le (shards : List ShardInfo) : (instanceShards shards).length ≤ shards.length := by
  induction shards using List.reverseRecOn with
  | nil => exact le_rfl
  | append_singleton shards shard ih =>
    rw [instanceShards_concat, List.length_append]
    cases shard.instanceId with
    | none => exact Nat.le_succ_of_le ih
    | some instanceId => exact (length_push_le _ _ _).trans (Nat.succ_le_succ ih)

private theorem shardsOf_concat (shards : List ShardInfo) (shard : ShardInfo) (instanceId : String) :
    shardsOf (shards ++ [shard]) instanceId =
      shardsOf shards instanceId ++ if shard.instanceId = some instanceId then [shard] else [] := by
  simp [shardsOf, List.filter_append, List.filter_singleton]

/-- Under an instance lie all its shards, and only instances with a shard have an entry. -/
theorem lookup_instanceShards (shards : List ShardInfo) (instanceId : String) :
    (instanceShards shards).lookup instanceId =
      if shardsOf shards instanceId = [] then none else some (shardsOf shards instanceId) := by
  induction shards using List.reverseRecOn with
  | nil => rfl
  | append_singleton shards shard ih =>
    rw [instanceShards_concat, shardsOf_concat]
    cases owner : shard.instanceId with
    | none => simp [ih]
    | some other =>
      dsimp only
      rw [lookup_push]
      by_cases same : instanceId = other
      · subst same
        rw [if_pos rfl, if_pos rfl, ih, if_neg (List.append_ne_nil_of_right_ne_nil _ (List.cons_ne_nil _ _))]
        by_cases none : shardsOf shards instanceId = []
        · rw [if_pos none, none, Option.getD_none]
        · rw [if_neg none, Option.getD_some]
      · have foreign : some other ≠ some instanceId := fun equal => same (Option.some.inj equal).symm
        rw [if_neg same, ih, if_neg foreign, List.append_nil]

theorem mem_instanceShards {shards : List ShardInfo} {instanceId : String} {own : List ShardInfo} :
    (instanceId, own) ∈ instanceShards shards ↔ own = shardsOf shards instanceId ∧ own ≠ [] := by
  rw [← Keyed.lookup_eq_some_iff_mem (instanceShards_keys_nodup shards), lookup_instanceShards]
  by_cases none : shardsOf shards instanceId = []
  · rw [if_pos none]
    simp [none]
  · rw [if_neg none]
    constructor
    · intro same
      cases same
      exact ⟨rfl, none⟩
    · rintro ⟨rfl, _⟩
      rfl

def distribution (instances : List String) : ShardMap :=
  instances.mapIdx fun index instanceId =>
    { id := "shard-" ++ toString index, rangeStart := 0, rangeEnd := 0, instanceId := some instanceId,
      status := .assigned, lastUpdated := 0 }

end BankingEs.Proofs.Placement
