import BankingEs.Proofs.Acquisitions
import BankingEs.Proofs.Placement

/-! The loops of the rebalancing as one loop over the moves that they make. A move that is
not granted its lock is the last. -/

namespace BankingEs.Proofs.Moves
open Async ShardManager OwnWorld Acquisitions Placement

/-- The first shard of each overloaded instance, as they were collected. -/
def given (entries : InstanceShards) (overloaded : List String) : List ShardInfo :=
  overloaded.filterMap fun overloadedId => (entries.lookup overloadedId).bind List.head?

/-- Each of these shards goes to every underloaded instance in turn. -/
def moves (entries : InstanceShards) (overloaded underloaded : List String) : List (String × String) :=
  (given entries overloaded).flatMap fun shard => underloaded.map fun underloadedId => (shard.id, underloadedId)

def makeMoves (config : ShardConfig) : List (String × String) → Program ShardCall (Except String Unit) :=
  Program.forEach fun move => assignShard config move.1 move.2

theorem first_shard {shards : List ShardInfo} {entry : String × List ShardInfo}
    (member : entry ∈ instanceShards shards) :
    ∃ shard ∈ shards, shard.instanceId = some entry.1 ∧
      ((instanceShards shards).lookup entry.1).bind List.head? = some shard := by
  obtain ⟨instanceId, own⟩ := entry
  obtain ⟨rfl, filled⟩ := mem_instanceShards.mp member
  obtain ⟨shard, rest, split⟩ := List.exists_cons_of_ne_nil filled
  have owned : shard ∈ shardsOf shards instanceId := split ▸ List.mem_cons_self
  obtain ⟨stored, owner⟩ := List.mem_filter.mp owned
  refine ⟨shard, stored, by simpa using owner, ?_⟩
  rw [lookup_instanceShards, if_neg filled, split]
  rfl

/-- Every instance gives a shard of its own. -/
theorem given_owners {shards : List ShardInfo} {entries : InstanceShards}
    (collected : entries ⊆ instanceShards shards) :
    given (instanceShards shards) (entries.map Prod.fst) ⊆ shards ∧
      (given (instanceShards shards) (entries.map Prod.fst)).map ShardInfo.instanceId =
        (entries.map Prod.fst).map some := by
  induction entries with
  | nil => exact ⟨List.nil_subset _, rfl⟩
  | cons entry entries ih =>
    obtain ⟨shard, stored, owner, first⟩ := first_shard (collected List.mem_cons_self)
    obtain ⟨inside, owners⟩ := ih fun other member => collected (List.mem_cons_of_mem _ member)
    rw [given] at inside owners ⊢
    rw [List.map_cons, List.filterMap_cons, first]
    dsimp only
    rw [List.map_cons, owner, owners]
    exact ⟨List.cons_subset.mpr ⟨stored, inside⟩, rfl⟩

private theorem length_moves {shards : List ShardInfo} {entries : InstanceShards}
    (collected : entries ⊆ instanceShards shards)
    (underloaded : List String) :
    (moves (instanceShards shards) (entries.map Prod.fst) underloaded).length = entries.length * underloaded.length := by
  have owners := congrArg List.length (given_owners collected).2
  rw [List.length_map, List.length_map, List.length_map] at owners
  simp [moves, List.length_flatMap, owners]

/-- The moves of a rebalancing that goes through the instances in the given order. -/
def planned (comparisons : Comparisons) (count : Nat) (entries order : InstanceShards) : List (String × String) :=
  moves entries ((order.filter (comparisons.isOverloaded count entries)).map Prod.fst)
    ((order.filter (comparisons.isUnderloaded count entries)).map Prod.fst)

def moveCount (comparisons : Comparisons) (shards : ShardMap) : Nat :=
  (instanceShards shards).countP (comparisons.isOverloaded shards.length (instanceShards shards)) *
    (instanceShards shards).countP (comparisons.isUnderloaded shards.length (instanceShards shards))

section Reordered
variable {shards : ShardMap} {order : InstanceShards} (reordered : order.Perm (instanceShards shards))
include reordered

theorem filter_collected (chosen : String × List ShardInfo → Bool) : order.filter chosen ⊆ instanceShards shards :=
  List.Subset.trans (List.filter_subset_self _) reordered.subset

/-- However the instances are ordered, as many moves are made. -/
theorem length_planned (comparisons : Comparisons) :
    (planned comparisons shards.length (instanceShards shards) order).length = moveCount comparisons shards := by
  rw [planned, length_moves (filter_collected reordered _), List.length_map, ← List.countP_eq_length_filter,
    ← List.countP_eq_length_filter, reordered.countP_eq, reordered.countP_eq]
  rfl

end Reordered

/-- The moves are carried out on the map in turn. -/
def Reassigns : List (String × String) → ShardMap → ShardMap → Prop
  | [], shards, after => after = shards
  | (shardId, instanceId) :: moves, shards, after =>
    ∃ now, Reassigns moves (shards.assign now shardId instanceId) after

variable {slow : Prop} {tries : Tries} {world middle after : OwnWorld} {millis : Nat}

/-- The locks of the moves are given back but a lost one, and if all are granted all moves are made. -/
structure Makes (slow : Prop) (tries : Tries) (millis : Nat) (list : List (String × String)) (world after : OwnWorld)
    (result : Except String Unit) : Prop where
  settles : Settles slow millis world after (tries.through millis world.begun list.length) result
  reassigns : (tries.through millis world.begun list.length).1 = .granted →
    Reassigns list world.shards after.shards ∧ after.assigned = list.reverse ++ world.assigned

private theorem Makes.of_through {list : List (String × String)} {ending : Acquisition × Duration}
    {result : Except String Unit}
    (through : tries.through millis world.begun list.length = ending) (settles : Settles slow millis world after ending result)
    (reassigns : ending.1 = .granted →
      Reassigns list world.shards after.shards ∧ after.assigned = list.reverse ++ world.assigned) :
    Makes slow tries millis list world after result := by
  subst through
  exact ⟨settles, reassigns⟩

private theorem makeMoves_makes {config : ShardConfig} (list : List (String × String))
    (apart : ∀ lock ∈ world.written, ∀ shardId, lock.key ≠ "lock:" ++ ("shard:lock:" ++ shardId)) :
    Returns (serves slow tries) (fun result after => Makes slow tries (lockMillis config) list world after result)
      (makeMoves config list) world := by
  -- A move leaves the locks as it found them, so that the next finds none under its own key.
  induction list generalizing world with
  | nil => exact ⟨.granted (Passes.refl world) id rfl, fun _ => ⟨rfl, rfl⟩⟩
  | cons move list ih =>
    obtain ⟨shardId, instanceId⟩ := move
    refine (assignShard_settles fun lock member => apart lock member shardId).andThen ?_ ?_
    · rintro error after ⟨_, settles, _⟩
      generalize ended : tries.ending (lockMillis config) world.begun = ending at settles
      cases settles with
      | refused passes written =>
        exact .of_through (by rw [List.length_cons, Tries.through, ended]) (.refused passes written) nofun
      | lost positive passes expires written =>
        exact .of_through (by rw [List.length_cons, Tries.through, ended]) (.lost positive passes expires written) nofun
    · rintro ⟨⟩ middle ⟨begun, settles, assigns⟩
      generalize ended : tries.ending (lockMillis config) world.begun = ending at settles assigns
      cases settles with
      | granted passes idle written =>
        obtain ⟨⟨now, shards⟩, assigned⟩ := assigns rfl
        refine (@ih middle (written ▸ apart)).mono ?_
        rintro result after ⟨settles, reassigns⟩
        rw [begun] at settles reassigns
        refine .of_through (by rw [List.length_cons, Tries.through, ended]) (settles.after_passes passes idle written) ?_
        intro granted
        obtain ⟨reassigned, added⟩ := reassigns granted
        refine ⟨⟨now, shards ▸ reassigned⟩, ?_⟩
        rw [added, assigned, List.reverse_cons, List.append_assoc]
        rfl

/-- The two loops are one. -/
theorem performRebalancing_eq (comparisons : Comparisons) (config : ShardConfig) (entries : InstanceShards) :
    comparisons.performRebalancing config entries = (do
      let count ← Program.send (.inr .len)
      let order ← Program.send (.inr (.iterInstances entries))
      makeMoves config (planned comparisons count entries order)) := by
  rw [Comparisons.performRebalancing]
  congr 1
  funext count
  congr 1
  funext order
  rw [makeMoves, planned, moves, given, Program.forEach_flatMap, Program.forEach_filterMap]
  dsimp only
  congr 1
  funext overloadedId
  cases (entries.lookup overloadedId).bind List.head? with
  | none => exact Program.forEach_nothing _
  | some shard =>
    dsimp only
    rw [Program.forEach_map _ (fun underloadedId => (shard.id, underloadedId))]

theorem performRebalancing_makes {comparisons : Comparisons} {config : ShardConfig} {entries : InstanceShards}
    (apart : ∀ lock ∈ world.written, ∀ shardId, lock.key ≠ "lock:" ++ ("shard:lock:" ++ shardId)) :
    Returns (serves slow tries)
      (fun result after => ∃ order, order.Perm entries ∧ Makes slow tries (lockMillis config)
        (planned comparisons world.shards.length entries order) world after result)
      (comparisons.performRebalancing config entries) world := by
  rw [performRebalancing_eq]
  intro count counted served
  obtain ⟨rfl, counting⟩ := len_counts served
  intro order ordered served
  obtain ⟨reordered, ordering⟩ := iterInstances_orders served
  have waited := counting.trans ordering
  have rest := @makeMoves_makes slow tries ordered config (planned comparisons world.shards.length entries order)
    (waited.written ▸ apart)
  refine rest.mono ?_
  rintro result after ⟨settles, reassigns⟩
  rw [waited.begun] at settles reassigns
  rw [waited.shards, waited.assigned] at reassigns
  have settled := settles.after_passes waited.passes waited.acquiring.trans waited.written
  rw [Nat.zero_add] at settled
  exact ⟨order, reordered, settled, reassigns⟩

end BankingEs.Proofs.Moves
