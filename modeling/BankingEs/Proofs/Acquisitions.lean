import BankingEs.Sharding.OwnLocks

/-! What the acquisition and the release of a lock leave behind, by how the tries of the call go. -/

namespace BankingEs.Proofs.Acquisitions
open Async OwnWorld

variable {slow : Prop} {tries : Tries} {world after : OwnWorld} {millis : Nat} {lockKey : String}

theorem serves_total (slow : Prop) (tries : Tries) {β : Type} (world : OwnWorld) (op : ShardCall β) :
    ∃ reply after, serves slow tries world op reply after := by
  have served : ∃ reply after, step tries world op reply after := by
    rcases op with op | op
    · cases op with
      | newV4 => exact ⟨⟨0⟩, _, rfl⟩
      | getConnection =>
        by_cases cut : world.acquiring = true ∧ tries (world.begun - 1) world.tried = .disconnected
        · exact ⟨.error "", world, by rw [if_pos cut]; exact ⟨_, rfl⟩, rfl⟩
        · exact ⟨.ok (), world, by rw [if_neg cut], rfl⟩
      | setNxPx key id millis =>
        dsimp only [step, lockStep]
        by_cases zero : millis = 0
        · exact ⟨.error "", world, by rw [if_pos zero]; exact ⟨⟨_, rfl⟩, rfl⟩⟩
        · simp only [if_neg zero]
          cases tries (world.begun - 1) world.tried with
          | disconnected => exact ⟨.error "", world, ⟨_, rfl⟩, rfl⟩
          | refused => exact ⟨.error "", world, ⟨_, rfl⟩, rfl⟩
          | unanswered => exact ⟨.error "", _, ⟨_, rfl⟩, rfl⟩
          | present => exact ⟨.ok false, _, rfl, rfl⟩
          | acquired =>
            by_cases free : world.Free key
            · exact ⟨.ok true, _, by rw [Sets, if_pos free]; exact ⟨rfl, rfl⟩⟩
            · exact ⟨.ok false, _, by rw [Sets, if_neg free]; exact ⟨rfl, rfl⟩⟩
      | delIfEqual key id => exact ⟨_, _, rfl, rfl⟩
      | sleep time => exact ⟨(), _, rfl⟩
    · cases op with
      | assign shardId instanceId => exact ⟨(), _, 0, rfl⟩
      | iter => exact ⟨_, _, rfl, rfl⟩
      | len => exact ⟨_, _, rfl, rfl⟩
      | iterInstances entries => exact ⟨entries, _, .refl _, rfl⟩
  obtain ⟨reply, after, step⟩ := served
  exact ⟨reply, after, world.now, le_rfl, .inr rfl, step⟩

abbrev lockMillis (config : ShardConfig) : Nat := LockManager.millis config.lockTimeout

/-- `time` passes from one world to the other, or more if the world is slow. -/
def Passes (slow : Prop) (time : Duration) (world after : OwnWorld) : Prop :=
  world.now + time ≤ after.now ∧ (slow ∨ after.now = world.now + time)

private theorem passes_zero_iff : Passes slow 0 world after ↔ world.now ≤ after.now ∧ (slow ∨ after.now = world.now) := by
  rw [Passes, Nat.cast_zero, add_zero]

theorem Passes.refl (world : OwnWorld) : Passes slow 0 world world := passes_zero_iff.mpr ⟨le_rfl, .inr rfl⟩

theorem Passes.trans {first second : Duration} {middle : OwnWorld} (earlier : Passes slow first world middle)
    (later : Passes slow second middle after) : Passes slow (first + second) world after := by
  have sum : world.now + (first + second : Nat) = world.now + first + second := by rw [Nat.cast_add, add_assoc]
  refine ⟨?_, ?_⟩
  · rw [sum]
    exact (Int.add_le_add_right earlier.1 second).trans later.1
  · rcases earlier.2 with isSlow | first
    · exact .inl isSlow
    · rw [sum, ← first]
      exact later.2

private theorem Passes.trans_zero {time : Duration} {middle : OwnWorld} (earlier : Passes slow time world middle)
    (later : Passes slow 0 middle after) : Passes slow time world after := by
  have sum := earlier.trans later
  rwa [Nat.add_zero] at sum

/-- Nothing but the time has changed, apart from the count of tries. -/
structure Waits (slow : Prop) (time : Duration) (world after : OwnWorld) : Prop where
  passes : Passes slow time world after
  begun : after.begun = world.begun
  acquiring : after.acquiring = world.acquiring
  written : after.written = world.written
  shards : after.shards = world.shards
  assigned : after.assigned = world.assigned

theorem Waits.trans {first second : Duration} {middle : OwnWorld} (earlier : Waits slow first world middle)
    (later : Waits slow second middle after) : Waits slow (first + second) world after :=
  ⟨earlier.passes.trans later.passes, later.begun.trans earlier.begun, later.acquiring.trans earlier.acquiring,
    later.written.trans earlier.written, later.shards.trans earlier.shards, later.assigned.trans earlier.assigned⟩

structure Writes (slow : Prop) (time : Duration) (millis : Nat) (lock : DistributedLock) (world after : OwnWorld) :
    Prop where
  passes : Passes slow time world after
  begun : after.begun = world.begun
  acquiring : after.acquiring = false
  written : after.written = ⟨lock.key, lock.id, after.now + Duration.fromMillis millis⟩ :: world.written
  shards : after.shards = world.shards
  assigned : after.assigned = world.assigned

private theorem Waits.writes {first second : Duration} {lock : DistributedLock} {middle : OwnWorld}
    (earlier : Waits slow first world middle) (later : Writes slow second millis lock middle after) :
    Writes slow (first + second) millis lock world after :=
  ⟨earlier.passes.trans later.passes, later.begun.trans earlier.begun, later.acquiring,
    earlier.written ▸ later.written, later.shards.trans earlier.shards, later.assigned.trans earlier.assigned⟩

/-- The calls to Redis alone. -/
abbrev lockServes (slow : Prop) (tries : Tries) : Serves LockCall OwnWorld :=
  fun before op reply after => serves slow tries before (.inl op) reply after

private theorem connect_answers {reply : Except RedisError Unit}
    (served : lockServes slow tries world .getConnection reply after) :
    Waits slow 0 world after ∧ after.tried = world.tried ∧
      if world.acquiring ∧ tries (world.begun - 1) world.tried = .disconnected then ∃ error, reply = .error error
      else reply = .ok () := by
  obtain ⟨now, waits, exactly, answer, rfl⟩ := served
  exact ⟨⟨passes_zero_iff.mpr ⟨waits, exactly⟩, rfl, rfl, rfl, rfl, rfl⟩, rfl, answer⟩

private theorem sleep_waits {time : Duration} {reply : Unit}
    (served : lockServes slow tries world (.sleep time) reply after) :
    Waits slow time world after ∧ after.tried = world.tried := by
  obtain ⟨now, waits, exactly, rfl⟩ := served
  refine ⟨⟨⟨Int.add_le_add_right waits _, ?_⟩, rfl, rfl, rfl, rfl, rfl⟩, rfl⟩
  rcases exactly with isSlow | same
  · exact .inl isSlow
  · exact .inr (congrArg (· + (time : Int)) same)

private theorem assign_updates {shardId instanceId : String} {reply : Unit}
    (served : serves slow tries world (.inr (.assign shardId instanceId)) reply after) :
    Passes slow 0 world after ∧ after.begun = world.begun ∧ after.acquiring = world.acquiring ∧
      after.written = world.written ∧ (∃ now, after.shards = world.shards.assign now shardId instanceId) ∧
      after.assigned = (shardId, instanceId) :: world.assigned := by
  obtain ⟨now, waits, exactly, updated, rfl⟩ := served
  exact ⟨passes_zero_iff.mpr ⟨waits, exactly⟩, rfl, rfl, rfl, ⟨updated, rfl⟩, rfl⟩

theorem iter_reads {shards : List ShardInfo} (served : serves slow tries world (.inr .iter) shards after) :
    shards = world.shards ∧ Waits slow 0 world after := by
  obtain ⟨now, waits, exactly, rfl, rfl⟩ := served
  exact ⟨rfl, passes_zero_iff.mpr ⟨waits, exactly⟩, rfl, rfl, rfl, rfl, rfl⟩

theorem len_counts {count : Nat} (served : serves slow tries world (.inr .len) count after) :
    count = world.shards.length ∧ Waits slow 0 world after := by
  obtain ⟨now, waits, exactly, rfl, rfl⟩ := served
  exact ⟨rfl, passes_zero_iff.mpr ⟨waits, exactly⟩, rfl, rfl, rfl, rfl, rfl⟩

theorem iterInstances_orders {entries order : InstanceShards}
    (served : serves slow tries world (.inr (.iterInstances entries)) order after) :
    order.Perm entries ∧ Waits slow 0 world after := by
  obtain ⟨now, waits, exactly, reordered, rfl⟩ := served
  exact ⟨reordered, passes_zero_iff.mpr ⟨waits, exactly⟩, rfl, rfl, rfl, rfl, rfl⟩

/-- All that a `SET` can do, on a key under which the call has no lock. -/
inductive SetEnds (slow : Prop) (tries : Tries) (millis : Nat) (lock : DistributedLock) (world after : OwnWorld) :
    Except RedisError Bool → Prop where
  | refused {error : RedisError}
      (why : millis = 0 ∨ tries (world.begun - 1) world.tried = .disconnected ∨
        tries (world.begun - 1) world.tried = .refused)
      (waits : Waits slow 0 world after) : SetEnds slow tries millis lock world after (.error error)
  | unanswered {error : RedisError} (positive : millis ≠ 0) (outcome : tries (world.begun - 1) world.tried = .unanswered)
      (writes : Writes slow 0 millis lock world after) : SetEnds slow tries millis lock world after (.error error)
  | present (positive : millis ≠ 0) (outcome : tries (world.begun - 1) world.tried = .present)
      (waits : Waits slow 0 world after) (tried : after.tried = world.tried + 1) :
      SetEnds slow tries millis lock world after (.ok false)
  | acquired (positive : millis ≠ 0) (outcome : tries (world.begun - 1) world.tried = .acquired)
      (writes : Writes slow 0 millis lock world after) : SetEnds slow tries millis lock world after (.ok true)

private theorem set_ends {id : Uuid} {reply : Except RedisError Bool}
    (apart : ∀ lock ∈ world.written, lock.key ≠ lockKey)
    (served : lockServes slow tries world (.setNxPx lockKey id millis) reply after) :
    SetEnds slow tries millis ⟨lockKey, id⟩ world after reply := by
  obtain ⟨now, waits, exactly, served⟩ := served
  have passes : Passes slow 0 world { world with now } := passes_zero_iff.mpr ⟨waits, exactly⟩
  have free : OwnWorld.Free { world with now } lockKey := fun lock member same => absurd same (apart lock member)
  dsimp only [step, lockStep] at served
  split at served
  · next zero =>
    obtain ⟨⟨error, rfl⟩, rfl⟩ := served
    exact .refused (.inl zero) ⟨passes, rfl, rfl, rfl, rfl, rfl⟩
  · next positive =>
    cases outcome : tries (world.begun - 1) world.tried with
    | disconnected =>
      rw [outcome] at served
      obtain ⟨⟨error, rfl⟩, rfl⟩ := served
      exact .refused (.inr (.inl outcome)) ⟨passes, rfl, rfl, rfl, rfl, rfl⟩
    | refused =>
      rw [outcome] at served
      obtain ⟨⟨error, rfl⟩, rfl⟩ := served
      exact .refused (.inr (.inr outcome)) ⟨passes, rfl, rfl, rfl, rfl, rfl⟩
    | unanswered =>
      rw [outcome, Sets, if_pos free] at served
      obtain ⟨⟨error, rfl⟩, rfl⟩ := served
      exact .unanswered positive outcome ⟨passes, rfl, rfl, rfl, rfl, rfl⟩
    | present =>
      rw [outcome] at served
      obtain ⟨rfl, rfl⟩ := served
      exact .present positive outcome ⟨passes, rfl, rfl, rfl, rfl, rfl⟩ rfl
    | acquired =>
      rw [outcome, Sets, if_pos free] at served
      obtain ⟨rfl, rfl⟩ := served
      exact .acquired positive outcome ⟨passes, rfl, rfl, rfl, rfl, rfl⟩

/-- An acquisition that begins in `world`: how it ends, after how many sleeps. -/
inductive Acquires (slow : Prop) (millis : Nat) (lockKey : String) (world after : OwnWorld) :
    Acquisition × Nat → Except String DistributedLock → Prop where
  | granted {id : Uuid} {sleeps : Nat} (writes : Writes slow (Try.pauses sleeps) millis ⟨lockKey, id⟩ world after) :
      Acquires slow millis lockKey world after (.granted, sleeps) (.ok ⟨lockKey, id⟩)
  | refused {error : String} {sleeps : Nat} (waits : Waits slow (Try.pauses sleeps) world after) :
      Acquires slow millis lockKey world after (.refused, sleeps) (.error error)
  | lost {error : String} {id : Uuid} {sleeps : Nat} (positive : millis ≠ 0)
      (writes : Writes slow (Try.pauses sleeps) millis ⟨lockKey, id⟩ world after) :
      Acquires slow millis lockKey world after (.lost, sleeps) (.error error)

private theorem Acquires.begun {ending : Acquisition × Nat} {result : Except String DistributedLock}
    (acquires : Acquires slow millis lockKey world after ending result) : after.begun = world.begun := by
  cases acquires with
  | granted writes => exact writes.begun
  | refused waits => exact waits.begun
  | lost _ writes => exact writes.begun

private theorem pauses_zero : Try.pauses 0 = 0 := Nat.zero_mul _

/-- What was waited for before an acquisition is part of it. -/
theorem Acquires.after_waits {ending : Acquisition × Nat} {result : Except String DistributedLock} {middle : OwnWorld}
    {sleeps : Nat} (waits : Waits slow (Try.pauses sleeps) world middle)
    (acquires : Acquires slow millis lockKey middle after ending result) :
    Acquires slow millis lockKey world after (ending.1, ending.2 + sleeps) result := by
  have sum (more : Nat) : Try.pauses sleeps + Try.pauses more = Try.pauses (more + sleeps) := by
    rw [Try.pauses, Try.pauses, Try.pauses, Nat.add_mul, Nat.add_comm]
  cases acquires with
  | granted writes => exact .granted (sum _ ▸ waits.writes writes)
  | refused rest => exact .refused (sum _ ▸ waits.trans rest)
  | lost positive writes => exact .lost positive (sum _ ▸ waits.writes writes)

private theorem ending_refused {tries : Nat → Try} {left index : Nat}
    (why : millis = 0 ∨ tries index = .disconnected ∨ tries index = .refused) :
    Try.ending millis tries (left + 1) index = (.refused, 0) := by
  rw [Try.ending]
  rcases why with zero | cut | refused
  · cases tries index <;> simp [zero]
  · rw [cut]
  · rw [refused]

/-- A `SET` that fails ends the acquisition. -/
theorem SetEnds.acquires {tried : Nat → Try} {middle : OwnWorld} {id : Uuid} {error : RedisError} {left index : Nat}
    (ends : SetEnds slow tries millis ⟨lockKey, id⟩ middle after (.error error)) (waited : Waits slow 0 world middle)
    (current : tries (middle.begun - 1) middle.tried = tried index) :
    Acquires slow millis lockKey world after (Try.ending millis tried (left + 1) index) (.error error) := by
  cases ends with
  | refused why waits =>
    rw [current] at why
    rw [ending_refused why]
    exact .refused (pauses_zero ▸ waited.trans waits)
  | unanswered positive outcome writes =>
    rw [Try.ending, ← current, outcome]
    dsimp only
    rw [if_neg positive]
    exact .lost positive (pauses_zero ▸ waited.writes writes)

private theorem attempt_acquires {timeout : Duration} {id : Uuid} {acquisition : Nat} (left index : Nat)
    (begun : world.begun = acquisition + 1) (tried : world.tried = index) (acquiring : world.acquiring = true)
    (apart : ∀ lock ∈ world.written, lock.key ≠ lockKey) :
    Returns (lockServes slow tries)
      (fun result after => Acquires slow (LockManager.millis timeout) lockKey world after
        (Try.ending (LockManager.millis timeout) (tries acquisition) left index) result)
      (LockManager.attempt lockKey id timeout left) world := by
  -- On the tries that are left: one that finds the lock of another sleeps, and the rest follows.
  induction left generalizing index world with
  | zero => exact .refused (pauses_zero ▸ ⟨Passes.refl world, rfl, rfl, rfl, rfl, rfl⟩)
  | succ left ih =>
    intro connected middle served
    obtain ⟨waited, same, answer⟩ := connect_answers served
    have current : tries (world.begun - 1) world.tried = tries acquisition index := by
      rw [begun, tried]
      rfl
    rw [current] at answer
    by_cases cut : tries acquisition index = .disconnected
    · rw [if_pos ⟨acquiring, cut⟩] at answer
      obtain ⟨error, rfl⟩ := answer
      rw [ending_refused (.inr (.inl cut))]
      exact .refused (pauses_zero ▸ waited)
    · rw [if_neg fun both => cut both.2] at answer
      obtain rfl := answer
      intro reply after served
      have ends := set_ends (waited.written ▸ apart) served
      rw [← waited.begun, ← same] at current
      cases reply with
      | error error => exact ends.acquires waited current
      | ok acquired =>
        cases ends with
        | present positive outcome waits more =>
          rw [Try.ending, ← current, outcome]
          dsimp only
          rw [if_neg positive]
          intro _ paused served
          obtain ⟨slept, kept⟩ := sleep_waits served
          have waited := (waited.trans waits).trans slept
          have pause : Waits slow (Try.pauses 1) world paused := by
            rwa [Try.pauses, Nat.one_mul, ← Nat.zero_add (Duration.fromMillis 100), ← Nat.zero_add 0]
          have rest := ih (index + 1) (waited.begun.trans begun) (by rw [kept, more, same, tried])
            (waited.acquiring.trans acquiring) (waited.written ▸ apart)
          exact rest.mono fun _ _ acquires => acquires.after_waits pause
        | acquired positive outcome writes =>
          rw [Try.ending, ← current, outcome]
          dsimp only
          rw [if_neg positive]
          exact .granted (pauses_zero ▸ waited.writes writes)

/-- An acquisition as a whole, by its number among those of the call. -/
theorem acquireLock_acquires {key : String} {timeout : Duration}
    (apart : ∀ lock ∈ world.written, lock.key ≠ "lock:" ++ key) :
    Returns (serves slow tries)
      (fun result after => after.begun = world.begun + 1 ∧
        Acquires slow (LockManager.millis timeout) ("lock:" ++ key)
          { world with begun := after.begun, acquiring := true } after
          (Try.ending (LockManager.millis timeout) (tries world.begun) 3 0) result)
      (ShardManager.withLock (LockManager.acquireLock key timeout)) world := by
  refine Returns.embed ?_
  intro id start served
  obtain ⟨now, waits, exactly, rfl⟩ := served
  have rest := @attempt_acquires slow tries
    { world with now, begun := world.begun + 1, tried := 0, acquiring := true } ("lock:" ++ key) timeout id world.begun 3 0
    rfl rfl rfl apart
  refine rest.mono fun result after acquires => ?_
  have waited : Waits slow (Try.pauses 0) { world with begun := world.begun + 1, acquiring := true }
      { world with now, begun := world.begun + 1, tried := 0, acquiring := true } := by
    rw [pauses_zero]
    exact ⟨passes_zero_iff.mpr ⟨waits, exactly⟩, rfl, rfl, rfl, rfl, rfl⟩
  rw [acquires.begun]
  exact ⟨rfl, acquires.after_waits waited⟩

theorem releaseLock_deletes {lock : DistributedLock} (idle : world.acquiring = false) :
    Returns (serves slow tries)
      (fun result after => result = .ok () ∧ Passes slow 0 world after ∧ after.begun = world.begun ∧
        after.acquiring = false ∧
        after.written = (world.written.filter fun other => ¬(other.key = lock.key ∧ other.id = lock.id)) ∧
        after.shards = world.shards ∧ after.assigned = world.assigned)
      (ShardManager.withLock lock.releaseLock) world := by
  refine Returns.embed ?_
  intro connected middle served
  obtain ⟨waited, _, answer⟩ := connect_answers served
  rw [if_neg (by simp [idle])] at answer
  obtain rfl := answer
  intro reply after served
  obtain ⟨now, waits, exactly, rfl, rfl⟩ := served
  have passes : Passes slow 0 middle { middle with now } := passes_zero_iff.mpr ⟨waits, exactly⟩
  refine ⟨rfl, waited.passes.trans passes, waited.begun, waited.acquiring.trans idle, ?_, waited.shards, waited.assigned⟩
  rw [← waited.written]
  rfl

/-- What is left of the locks when a call or a loop of calls returns. -/
inductive Settles (slow : Prop) (millis : Nat) (world after : OwnWorld) :
    Acquisition × Duration → Except String Unit → Prop where
  | granted {time : Duration} (passes : Passes slow time world after)
      (idle : world.acquiring = false → after.acquiring = false) (written : after.written = world.written) :
      Settles slow millis world after (.granted, time) (.ok ())
  | refused {time : Duration} {error : String} (passes : Passes slow time world after)
      (written : after.written = world.written) : Settles slow millis world after (.refused, time) (.error error)
  | lost {time : Duration} {error : String} {lock : OwnLock} (positive : millis ≠ 0)
      (passes : Passes slow time world after) (expires : lock.expiresAt = after.now + Duration.fromMillis millis)
      (written : after.written = lock :: world.written) : Settles slow millis world after (.lost, time) (.error error)

theorem Settles.after_passes {middle : OwnWorld} {ending : Acquisition × Duration} {first : Duration}
    {result : Except String Unit} (settles : Settles slow millis middle after ending result)
    (passes : Passes slow first world middle) (idle : world.acquiring = false → middle.acquiring = false)
    (written : middle.written = world.written) : Settles slow millis world after (ending.1, first + ending.2) result := by
  cases settles with
  | granted later kept same => exact .granted (passes.trans later) (kept ∘ idle) (same.trans written)
  | refused later same => exact .refused (passes.trans later) (same.trans written)
  | lost positive later expires same => exact .lost positive (passes.trans later) expires (written ▸ same)

/-- A shard is assigned exactly if the lock is granted, and the lock is given back. -/
theorem assignShard_settles {config : ShardConfig} {shardId instanceId : String}
    (apart : ∀ lock ∈ world.written, lock.key ≠ "lock:" ++ ("shard:lock:" ++ shardId)) :
    Returns (serves slow tries)
      (fun result after => after.begun = world.begun + 1 ∧
        Settles slow (lockMillis config) world after
          (tries.ending (lockMillis config) world.begun,
            tries.slept (lockMillis config) world.begun) result ∧
        (tries.ending (lockMillis config) world.begun = .granted →
          (∃ now, after.shards = world.shards.assign now shardId instanceId) ∧
            after.assigned = (shardId, instanceId) :: world.assigned))
      (ShardManager.assignShard config shardId instanceId) world := by
  unfold Tries.ending Tries.slept
  refine (acquireLock_acquires apart).andThen ?_ ?_
  · rintro error after ⟨begun, acquires⟩
    generalize Try.ending (lockMillis config) (tries world.begun) 3 0 = ending at acquires ⊢
    cases acquires with
    | refused waits => exact ⟨begun, .refused waits.passes waits.written, nofun⟩
    | lost positive writes => exact ⟨begun, .lost positive writes.passes rfl writes.written, nofun⟩
  · rintro lock middle ⟨begun, acquires⟩
    generalize Try.ending (lockMillis config) (tries world.begun) 3 0 = ending at acquires ⊢
    cases acquires with
    | granted writes =>
      intro _ updated served
      obtain ⟨waits, sameBegun, idle, sameWritten, ⟨now, shards⟩, assigned⟩ := assign_updates served
      refine (releaseLock_deletes (idle.trans writes.acquiring)).mono ?_
      rintro _ after ⟨rfl, passes, begunAfter, idleAfter, written, shardsAfter, assignedAfter⟩
      have passes := (writes.passes.trans_zero waits).trans_zero passes
      refine ⟨begunAfter.trans (sameBegun.trans begun), .granted passes (fun _ => idleAfter) ?_, fun _ => ⟨⟨now, ?_⟩, ?_⟩⟩
      · rw [written, sameWritten, writes.written, List.filter_cons_of_neg (by simp), List.filter_eq_self]
        intro lock member
        simp [apart lock member]
      · rw [shardsAfter, shards, writes.shards]
      · rw [assignedAfter, assigned, writes.assigned]

end BankingEs.Proofs.Acquisitions
