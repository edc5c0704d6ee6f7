import BankingEs.Proofs.Moves

/-! Which locks a call that changes assignments has left in Redis when it returns. An error
of a move is returned before the lock of the rebalancing is given back, and a lock
whose `SET` was not answered is known to nobody. -/

namespace BankingEs.Proofs.LockRelease
open Async ShardManager OwnWorld Acquisitions Placement Moves

/-- No lock that the call wrote is still there. -/
def Released (after : OwnWorld) : Prop := ∀ lock ∈ after.written, lock.expiresAt ≤ after.now

/-- The locks that are taken while the first one is held, if no acquisition fails. -/
def nested (comparisons : Comparisons) (shards : ShardMap) : Operation → Nat
  | .assign _ _ => 0
  | .rebalance =>
    if (instanceShards shards).any (comparisons.isUnbalanced shards.length (instanceShards shards)) then
      moveCount comparisons shards
    else 0

/-- No lock is lost, and if one of the nested ones is refused then the first has expired meanwhile. -/
def GivesBack (millis : Nat) (first : Acquisition) (nested : Acquisition × Duration) : Prop :=
  first = .refused ∨
    first = .granted ∧ (nested.1 = .granted ∨ nested.1 = .refused ∧ Duration.fromMillis millis ≤ nested.2)

/-- All that a call can leave, by how the first acquisition ends and how the others do. -/
inductive Leaves (slow : Prop) (millis : Nat) (after : OwnWorld) : Acquisition → Acquisition × Duration → Prop where
  | refused {inner : Acquisition × Duration} (written : after.written = []) : Leaves slow millis after .refused inner
  | lost {inner : Acquisition × Duration} {lock : OwnLock} (positive : millis ≠ 0)
      (expires : lock.expiresAt = after.now + Duration.fromMillis millis) (written : lock ∈ after.written) :
      Leaves slow millis after .lost inner
  | granted {time : Duration} (written : after.written = []) : Leaves slow millis after .granted (.granted, time)
  | kept {time : Duration} {lock : OwnLock} {taken : OwnWorld} (passes : Passes slow time taken after)
      (expires : lock.expiresAt = taken.now + Duration.fromMillis millis) (written : after.written = [lock]) :
      Leaves slow millis after .granted (.refused, time)
  | nestedLost {time : Duration} {lock : OwnLock} (positive : millis ≠ 0)
      (expires : lock.expiresAt = after.now + Duration.fromMillis millis) (written : lock ∈ after.written) :
      Leaves slow millis after .granted (.lost, time)

variable {slow : Prop} {tries : Tries} {world after : OwnWorld} {millis : Nat}

private theorem not_released {lock : OwnLock} (positive : millis ≠ 0)
    (expires : lock.expiresAt = after.now + Duration.fromMillis millis) (written : lock ∈ after.written) :
    ¬Released after := by
  intro released
  have expired := released lock written
  rw [expires] at expired
  have lasts : 0 < Duration.fromMillis millis := Nat.mul_pos (Nat.pos_of_ne_zero positive) (by decide)
  exact absurd expired (not_le.mpr (lt_add_of_pos_right _ (Int.natCast_pos.mpr lasts)))

private theorem Leaves.released {first : Acquisition} {others : Acquisition × Duration}
    (leaves : Leaves slow millis after first others) (gives : GivesBack millis first others) : Released after := by
  intro lock member
  cases leaves with
  | refused written => simp [written] at member
  | lost positive expires written => simp [GivesBack] at gives
  | granted written => simp [written] at member
  | @kept time held taken passes expires written =>
    obtain rfl : lock = held := by simpa [written] using member
    have outlasts : Duration.fromMillis millis ≤ time := by simpa [GivesBack] using gives
    rw [expires]
    exact (Int.add_le_add_left (Int.ofNat_le.mpr outlasts) _).trans passes.1
  | nestedLost positive expires written => simp [GivesBack] at gives

/-- Where no time passes but the sleeps, nothing else frees a key. -/
theorem Leaves.unreleased {first : Acquisition} {others : Acquisition × Duration}
    (leaves : Leaves False millis after first others) (keeps : ¬GivesBack millis first others) : ¬Released after := by
  cases leaves with
  | refused written => exact absurd (.inl rfl) keeps
  | lost positive expires written => exact not_released positive expires written
  | granted written => exact absurd (.inr ⟨rfl, .inl rfl⟩) keeps
  | kept passes expires written =>
    intro released
    refine keeps (.inr ⟨rfl, .inr ⟨rfl, ?_⟩⟩)
    have expired := released _ (written ▸ List.mem_cons_self)
    have exactly := passes.2.resolve_left id
    rw [expires, exactly] at expired
    exact Int.ofNat_le.mp (le_of_add_le_add_left expired)
  | nestedLost positive expires written => exact not_released positive expires written

private theorem rebalance_key_apart (shardId : String) :
    "lock:" ++ "shard:rebalance:lock" ≠ "lock:" ++ ("shard:lock:" ++ shardId) := by
  intro same
  have letters := congrArg String.toList same
  simp at letters

private theorem assignShard_leaves {config : ShardConfig} {shardId instanceId : String} (begun : world.begun = 0)
    (written : world.written = []) :
    Returns (serves slow tries)
      (fun _ after => Leaves slow (lockMillis config) after (tries.ending (lockMillis config) 0) (.granted, 0))
      (assignShard config shardId instanceId) world := by
  refine (assignShard_settles (by simp [written])).mono ?_
  rintro result after ⟨_, settles, _⟩
  rw [begun] at settles
  generalize tries.ending (lockMillis config) 0 = ending at settles ⊢
  cases settles with
  | granted _ _ same => exact .granted (same.trans written)
  | refused _ same => exact .refused (same.trans written)
  | lost positive _ expires same => exact .lost positive expires (same ▸ List.mem_cons_self)

private theorem release_empties {lock : DistributedLock} {expiresAt : Instant} (idle : world.acquiring = false)
    (written : world.written = [⟨lock.key, lock.id, expiresAt⟩]) :
    Returns (serves slow tries) (fun _ after => after.written = []) (withLock lock.releaseLock) world := by
  refine (releaseLock_deletes idle).mono ?_
  rintro _ after ⟨_, _, _, _, remaining, _⟩
  rw [remaining, written]
  simp

/-- The moves, and the lock of the rebalancing given back only after all of them. -/
theorem performRebalancing_leaves {comparisons : Comparisons} {config : ShardConfig} {lock : DistributedLock}
    {taken : OwnWorld} (key : lock.key = "lock:" ++ "shard:rebalance:lock") (begun : world.begun = 1)
    (idle : world.acquiring = false) (passes : Passes slow 0 taken world)
    (written : world.written = [⟨lock.key, lock.id, taken.now + Duration.fromMillis (lockMillis config)⟩]) :
    Returns (serves slow tries)
      (fun _ after => Leaves slow (lockMillis config) after .granted
        (tries.through (lockMillis config) 1 (moveCount comparisons world.shards)))
      ((comparisons.performRebalancing config (instanceShards world.shards)).andThen fun _ => withLock lock.releaseLock)
      world := by
  have apart : ∀ other ∈ world.written, ∀ shardId, other.key ≠ "lock:" ++ ("shard:lock:" ++ shardId) := by
    intro other member shardId
    rw [written, List.mem_singleton] at member
    rw [member, key]
    exact rebalance_key_apart shardId
  refine (performRebalancing_makes apart).andThen ?_ ?_
  -- An error is returned by `?` from here, and the lock of the rebalancing stays.
  · rintro error after ⟨order, reordered, settles, _⟩
    rw [length_planned reordered, begun] at settles
    generalize tries.through _ _ _ = ending at settles ⊢
    cases settles with
    | refused later same =>
      have waits := passes.trans later
      rw [Nat.zero_add] at waits
      exact .kept waits rfl (same.trans written)
    | lost positive _ expires same => exact .nestedLost positive expires (same ▸ List.mem_cons_self)
  · rintro ⟨⟩ after ⟨order, reordered, settles, _⟩
    rw [length_planned reordered, begun] at settles
    generalize tries.through _ _ _ = ending at settles ⊢
    cases settles with
    | granted _ still same => exact (release_empties (still idle) (same.trans written)).mono fun _ _ => .granted

private theorem rebalanceShards_leaves {comparisons : Comparisons} {config : ShardConfig} (begun : world.begun = 0)
    (written : world.written = []) :
    Returns (serves slow tries)
      (fun _ after => Leaves slow (lockMillis config) after (tries.ending (lockMillis config) 0)
        (tries.through (lockMillis config) 1 (nested comparisons world.shards .rebalance)))
      (comparisons.rebalanceShards config) world := by
  unfold Tries.ending
  refine (acquireLock_acquires (by simp [written])).andThen ?_ ?_
  · rintro error after ⟨_, acquires⟩
    rw [begun] at acquires
    generalize Try.ending (lockMillis config) (tries 0) 3 0 = ending at acquires ⊢
    cases acquires with
    | refused waits => exact .refused (waits.written.trans written)
    | lost positive writes => exact .lost positive rfl (writes.written ▸ List.mem_cons_self)
  · rintro lock taken ⟨started, acquires⟩
    rw [begun] at acquires started
    generalize Try.ending (lockMillis config) (tries 0) 3 0 = ending at acquires ⊢
    cases acquires with
    | @granted id sleeps writes =>
      have held : taken.written = [_] := written ▸ writes.written
      have same : taken.shards = world.shards := writes.shards
      intro shards collected served
      obtain ⟨read, collecting⟩ := iter_reads served
      intro count counted served
      obtain ⟨number, counting⟩ := len_counts served
      intro order ordered served
      obtain ⟨reordered, ordering⟩ := iterInstances_orders served
      rw [collecting.shards, same] at number
      rw [same] at read
      subst read number
      have waited := (collecting.trans counting).trans ordering
      have idle : ordered.acquiring = false := waited.acquiring.trans writes.acquiring
      have moves := @performRebalancing_leaves slow tries ordered comparisons config ⟨_, id⟩ taken rfl
        (waited.begun.trans started) idle waited.passes (waited.written.trans held)
      rw [waited.shards, same] at moves
      have unbalanced := reordered.any_eq (f := comparisons.isUnbalanced world.shards.length (instanceShards world.shards))
      rw [nested, ← unbalanced]
      dsimp only [Program.bind]
      split
      · exact moves
      · exact (release_empties idle (waited.written.trans held)).mono fun _ _ => .granted

section Calls
variable (comparisons : Comparisons) (config : ShardConfig) (operation : Operation) (shards : ShardMap) (tries : Tries)
  (start : Instant)

private theorem perform_leaves :
    Returns (serves slow tries)
      (fun _ after => Leaves slow (lockMillis config) after (tries.ending (lockMillis config) 0)
        (tries.through (lockMillis config) 1 (nested comparisons shards operation)))
      (comparisons.perform config operation) { now := start, shards } := by
  cases operation with
  | assign shardId instanceId => exact assignShard_leaves rfl rfl
  | rebalance => exact rebalanceShards_leaves rfl rfl

variable {comparisons config operation shards tries start}

/-- A call that does not give its locks back has a run in which they are still there. -/
theorem exists_unreleased
    (keeps : ¬GivesBack (lockMillis config) (tries.ending (lockMillis config) 0)
      (tries.through (lockMillis config) 1 (nested comparisons shards operation))) :
    ∃ result after, Runs (serves True tries) { now := start, shards } (comparisons.perform config operation) result after ∧
      ¬Released after := by
  obtain ⟨result, after, run⟩ :=
    Runs.of_total (serves_total False tries) (comparisons.perform config operation) { now := start, shards }
  have leaves := (perform_leaves comparisons config operation shards tries start).runs run
  refine ⟨result, after, run.mono ?_, leaves.unreleased keeps⟩
  rintro β before op reply after ⟨now, waits, _, served⟩
  exact ⟨now, waits, .inl trivial, served⟩

end Calls

/-- When a call returns, its locks are gone, exactly if its acquisitions go so. -/
theorem locks_released_iff (config : ShardConfig) (operation : Operation) (shards : ShardMap) (tries : Tries)
    (start : Instant) :
    (∀ result after, Runs (serves True tries) { now := start, shards } (ShardManager.perform config operation) result after →
      Released after) ↔
    GivesBack (lockMillis config) (tries.ending (lockMillis config) 0)
      (tries.through (lockMillis config) 1 (nested (.float config) shards operation)) := by
  rw [ShardManager.perform]
  constructor
  · intro released
    by_contra keeps
    obtain ⟨result, after, run, unreleased⟩ := @exists_unreleased _ _ _ _ _ start keeps
    exact unreleased (released result after run)
  · intro gives result after run
    exact ((perform_leaves _ config operation shards tries start).runs run).released gives

instance (millis : Nat) (first : Acquisition) (nested : Acquisition × Duration) : Decidable (GivesBack millis first nested) :=
  inferInstanceAs (Decidable (_ ∨ _))

/-- The lock of the rebalancing is granted, and the next is another's at each try. -/
def contended : Tries
  | 0, _ => .acquired
  | _ + 1, _ => .present

/-- The reply to a `SET` is lost; and of three shards one should move, and its lock is another's. -/
theorem locks_left_behind :
    (∃ result after, Runs (serves True fun _ _ => .unanswered) {} (ShardManager.perform {} (.assign "shard-0" "a"))
      result after ∧ ¬Released after) ∧
    ∃ result after, Runs (serves True contended) { shards := distribution ["a", "a", "b"] }
      ((Comparisons.exact (1 / 5)).perform {} .rebalance) result after ∧ ¬Released after := by
  refine ⟨?_, exists_unreleased (by decide +kernel)⟩
  rw [ShardManager.perform]
  exact exists_unreleased (by decide +kernel)

end BankingEs.Proofs.LockRelease
