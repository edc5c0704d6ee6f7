import BankingEs.Async.Interference
import BankingEs.Sharding.Locks

/-! No two handles of one key hold it at the same time. A lease that still runs is in
Redis under its key, written by its holder, and only the id of the holder deletes it. -/

namespace BankingEs.Proofs.LockExclusion
open Async LockStore

variable {ι : Type} {store before after : LockStore ι} {thread holder : ι} {key : String} {id : Uuid} {now : Instant}

structure Sound (store : LockStore ι) : Prop where
  leased : ∀ holder lease, store.leases holder = some lease → store.now < lease.expiresAt →
    ∃ entry, store.keys lease.key = some entry ∧ entry.writer = holder ∧ entry.expiresAt = lease.expiresAt
  written : ∀ key entry, store.keys key = some entry → (entry.writer, entry.value) ∈ store.issued
  distinct : ∀ first second id, (first, id) ∈ store.issued → (second, id) ∈ store.issued → first = second

private theorem Sound.initial : Sound ({ now } : LockStore ι) :=
  ⟨fun _ _ impossible => (by cases impossible), fun _ _ impossible => (by cases impossible),
    fun _ _ _ impossible => (by cases impossible)⟩

/-- Leases only run out with time. -/
theorem Sound.later (sound : Sound store) (later : store.now ≤ now) : Sound { store with now } := by
  refine ⟨?_, sound.written, sound.distinct⟩
  intro holder lease held running
  exact sound.leased holder lease held (lt_of_le_of_lt later running)

/-- Two running leases of one key are one. -/
theorem Sound.exclusive (sound : Sound store) {first second : ι} {lease other : Lease}
    (held : store.leases first = some lease) (heldToo : store.leases second = some other)
    (same : lease.key = other.key) (running : store.now < lease.expiresAt) (runningToo : store.now < other.expiresAt) :
    first = second := by
  obtain ⟨entry, found, rfl, _⟩ := sound.leased first lease held running
  obtain ⟨entry', found', rfl, _⟩ := sound.leased second other heldToo runningToo
  rw [same, found', Option.some.injEq] at found
  rw [found]

private theorem get_eq_some {entry : LockEntry ι} :
    store.get key = some entry ↔ store.keys key = some entry ∧ store.now < entry.expiresAt := by
  simp [LockStore.get, Option.filter_eq_some_iff]

private theorem Sound.set {millis : Nat} (sound : Sound store) (own : (thread, id) ∈ store.issued)
    (free : store.get key = none) :
    Sound (store.set thread key id millis) := by
  refine ⟨?_, ?_, sound.distinct⟩
  · intro holder lease held running
    have elsewhere : lease.key ≠ key := by
      rintro rfl
      obtain ⟨entry, found, _, expires⟩ := sound.leased holder lease held running
      have present := get_eq_some.mpr ⟨found, expires ▸ running⟩
      rw [free] at present
      cases present
    simpa [LockStore.set, elsewhere] using sound.leased holder lease held running
  · intro other entry found
    simp only [LockStore.set, Function.update_apply] at found
    split at found
    next =>
      cases found
      exact own
    next => exact sound.written other entry found

/-- An id under a key was written by the thread it was given to. -/
theorem Sound.writer {entry : LockEntry ι} (sound : Sound store) (own : (thread, id) ∈ store.issued)
    (found : store.keys key = some entry) (same : entry.value = id) : entry.writer = thread :=
  sound.distinct entry.writer thread id (same ▸ sound.written key entry found) own

/-- What a thread does to the locks: only keys of its own go. -/
structure Guarantee (thread : ι) (before after : LockStore ι) : Prop where
  sound : Sound before → Sound after
  issued : before.issued ⊆ after.issued
  removed : Sound before → ∀ key entry, before.keys key = some entry → after.keys key = none → entry.writer = thread

def Rely (before after : LockStore ι) : Prop := (Sound before → Sound after) ∧ before.issued ⊆ after.issued

private theorem id_relied (rely : Rely before after) (own : (thread, id) ∈ before.issued) :
    (thread, id) ∈ after.issued :=
  rely.2 own

private theorem guarantee_of_keys (sound : Sound before → Sound after) (issued : before.issued ⊆ after.issued)
    (keys : ∀ key, (before.keys key).isSome → (after.keys key).isSome) : Guarantee thread before after := by
  refine ⟨sound, issued, ?_⟩
  intro _ key entry found gone
  have kept := keys key (by simp [found])
  simp [gone] at kept

private theorem waits_guarantee (later : before.now ≤ now) : Guarantee thread before { before with now } :=
  guarantee_of_keys (fun sound => sound.later later) (fun _ member => member) (fun _ present => present)

/-- The handle that was given out carries an id drawn by its thread. -/
def Owned (thread : ι) (result : Except String DistributedLock) (store : LockStore ι) : Prop :=
  ∀ lock, result = .ok lock → (thread, lock.id) ∈ store.issued

private theorem owned_error (error : String) (store : LockStore ι) : Owned thread (.error error) store := by
  intro lock impossible
  cases impossible

variable [DecidableEq ι]

private theorem Sound.lend {millis : Nat} {entry : LockEntry ι} (sound : Sound store)
    (found : store.keys key = some entry)
    (own : entry.writer = holder) (expires : entry.expiresAt = store.now + Duration.fromMillis millis) :
    Sound (store.lend holder key millis) := by
  refine ⟨?_, sound.written, sound.distinct⟩
  intro other lease held running
  simp only [LockStore.lend, Function.update_apply] at held
  split at held
  next same =>
    cases held
    exact ⟨entry, found, own.trans same.symm, expires⟩
  next => exact sound.leased other lease held running

private theorem Sound.giveBack (sound : Sound store) : Sound (store.giveBack holder) := by
  refine ⟨?_, sound.written, sound.distinct⟩
  intro other lease held running
  simp only [LockStore.giveBack, Function.update_apply] at held
  split at held
  next => cases held
  next => exact sound.leased other lease held running

private theorem Sound.delete {entry : LockEntry ι} (sound : Sound store) (found : store.keys key = some entry)
    (own : entry.writer = thread) :
    Sound ({ store with keys := Function.update store.keys key none }.giveBack thread) := by
  refine ⟨?_, ?_, sound.distinct⟩
  · intro holder lease held running
    simp only [LockStore.giveBack, Function.update_apply] at held
    split at held
    next => cases held
    next other =>
      obtain ⟨entry', found', writer, expires⟩ := sound.leased holder lease held running
      have elsewhere : lease.key ≠ key := by
        rintro rfl
        rw [found, Option.some.injEq] at found'
        rw [← found', own] at writer
        exact other writer.symm
      exact ⟨entry', by simpa [LockStore.giveBack, elsewhere] using found', writer, expires⟩
  · intro other entry' found'
    simp only [LockStore.giveBack, Function.update_apply] at found'
    split at found'
    next => cases found'
    next => exact sound.written other entry' found'

private theorem setNxPx_guarantee {millis : Nat} {reply : Except RedisError Bool} (own : (thread, id) ∈ before.issued)
    (served : serves thread before (.setNxPx key id millis) reply after) : Guarantee thread before after := by
  obtain ⟨now, later, sets⟩ := served
  have keys : ∀ other, (before.keys other).isSome →
      ((({ before with now } : LockStore ι).set thread key id millis).keys other).isSome := by
    intro other present
    simp only [LockStore.set, Function.update_apply]
    split
    next => rfl
    next => exact present
  cases sets with
  | fails => exact waits_guarantee later
  | present => exact waits_guarantee later
  | acquired free =>
    refine guarantee_of_keys (fun sound => ?_) (fun _ member => member) keys
    have set : Sound (({ before with now } : LockStore ι).set thread key id millis) := (sound.later later).set own free
    exact set.lend (Function.update_self ..) rfl rfl
  | unanswered free =>
    refine guarantee_of_keys (fun sound => ?_) (fun _ member => member) keys
    exact (sound.later later).set own free

private theorem delIfEqual_guarantee {reply : Except RedisError Int} (own : (thread, id) ∈ before.issued)
    (served : serves thread before (.delIfEqual key id) reply after) : Guarantee thread before after := by
  obtain ⟨now, later, releases⟩ := served
  cases releases with
  | fails => exact waits_guarantee later
  | kept =>
    exact guarantee_of_keys (fun sound => (sound.later later).giveBack) (fun _ member => member)
      (fun _ present => present)
  | @deleted _ entry held same =>
    have found := (get_eq_some.mp held).1
    refine ⟨fun sound => ?_, fun _ member => member, ?_⟩
    · exact (sound.later later).delete found (sound.writer own found same)
    · intro sound other entry' found' gone
      have here : other = key := by
        by_contra elsewhere
        simp [LockStore.giveBack, elsewhere, found'] at gone
      subst here
      have same' : entry' = entry := Option.some.inj (found'.symm.trans found)
      exact same' ▸ sound.writer own found same

private theorem newV4_guarantee (served : serves thread before .newV4 id after) :
    Guarantee thread before after ∧ (thread, id) ∈ after.issued := by
  obtain ⟨now, later, fresh, rfl⟩ := served
  refine ⟨guarantee_of_keys (fun sound => ?_) (fun _ member => List.mem_cons_of_mem _ member) (fun _ present => present),
    List.mem_cons_self⟩
  refine ⟨(sound.later later).leased, fun key entry found => List.mem_cons_of_mem _ (sound.written key entry found), ?_⟩
  intro first second drawn member memberToo
  rcases List.mem_cons.mp member with here | member
  · rcases List.mem_cons.mp memberToo with hereToo | memberToo
    · cases here
      cases hereToo
      rfl
    · cases here
      exact absurd rfl (fresh _ memberToo)
  · rcases List.mem_cons.mp memberToo with hereToo | memberToo
    · cases hereToo
      exact absurd rfl (fresh _ member)
    · exact sound.distinct first second drawn member memberToo

section Threads

private theorem connected_guards {α : Type} {post : Except String α → LockStore ι → Prop}
    {next : Unit → Program LockCall (Except String α)} (own : (thread, id) ∈ store.issued)
    (fails : ∀ error store, post (.error error) store)
    (rest : ∀ store, (thread, id) ∈ store.issued → Guards (serves thread) Rely (Guarantee thread) post (next ()) store) :
    Guards (serves thread) Rely (Guarantee thread) post ((Program.send .getConnection).andThen next) store := by
  refine Guards.request (fun _ _ => id_relied) ?_ own
  rintro before reply after own ⟨now, later, rfl⟩
  refine ⟨waits_guarantee later, ?_⟩
  cases reply with
  | error error => exact Guards.pure (fails error _) (fun _ _ _ _ => fails error _)
  | ok connection => exact rest _ own

private theorem attempt_guards {timeout : Duration} (tries : Nat) (own : (thread, id) ∈ store.issued) :
    Guards (serves thread) Rely (Guarantee thread) (Owned thread) (LockManager.attempt key id timeout tries) store := by
  induction tries generalizing store with
  | zero => exact Guards.pure (owned_error _ _) fun _ after _ _ => owned_error _ after
  | succ tries ih =>
    refine connected_guards own owned_error ?_
    intro store own
    refine Guards.request (fun _ _ => id_relied) ?_ own
    intro before reply after own served
    have guarantee := setNxPx_guarantee own served
    refine ⟨guarantee, ?_⟩
    have own := guarantee.issued own
    rcases reply with error | ⟨_ | _⟩
    · exact Guards.pure (owned_error _ _) fun _ after _ _ => owned_error _ after
    · refine Guards.request (fun _ _ => id_relied) ?_ own
      rintro before _ after own ⟨now, later, rfl⟩
      exact ⟨waits_guarantee (later.trans (by simp)), ih own⟩
    · refine Guards.pure ?_ ?_
      · intro lock same
        cases same
        exact own
      · exact fun before after rely owned lock same => rely.2 (owned lock same)

private theorem session_guards {timeout : Duration} :
    Guards (serves thread) Rely (Guarantee thread) (fun _ _ => True) (LockManager.session key timeout) store := by
  have acquires : Guards (serves thread) Rely (Guarantee thread) (Owned thread)
      (LockManager.acquireLock key timeout) store := by
    refine Guards.request (fun _ _ _ (_ : True) => trivial) ?_ trivial
    intro before id after _ served
    obtain ⟨guarantee, own⟩ := newV4_guarantee served
    exact ⟨guarantee, attempt_guards 3 own⟩
  refine acquires.andThen (fun _ _ _ => trivial) ?_
  intro lock store owned
  refine connected_guards (owned lock rfl) (fun _ _ => trivial) ?_
  intro store own
  refine Guards.request (fun _ _ => id_relied) ?_ own
  intro before reply after own served
  refine ⟨delIfEqual_guarantee own served, ?_⟩
  cases reply with
  | error error => exact Guards.pure trivial (fun _ _ _ _ => trivial)
  | ok deleted => exact Guards.pure trivial (fun _ _ _ _ => trivial)

end Threads

section Runs
variable {keys : ι → String} {timeouts : ι → Duration} {start : Instant}
  {history : List (Served ι LockCall (LockStore ι))} {threads : ι → Program LockCall (Except String Unit)}
  {last : LockStore ι}

/-- However the threads take their locks, give them back and let them run out, no two of them
hold one key at the same time, and a key is deleted by the thread that wrote it. -/
theorem locks_exclude (run : Interleaves serves (fun thread => LockManager.session (keys thread) (timeouts thread))
      ({ now := start } : LockStore ι) history threads last) :
    (∀ first second lease other, last.leases first = some lease → last.leases second = some other →
      lease.key = other.key → last.now < lease.expiresAt → last.now < other.expiresAt → first = second) ∧
    (∀ thread {β : Type} (op : LockCall β) resume reply next, threads thread = .request op resume →
      serves thread last op reply next → ∀ key entry, last.keys key = some entry → next.keys key = none →
      entry.writer = thread) := by
  have promises := Interleaves.guards (fun _ _ _ _ _ (step : Guarantee _ _ _) => ⟨step.sound, step.issued⟩)
    (fun thread => session_guards) run
  have sound : Sound last := preserved_by_steps (fun _ _ ⟨_, step⟩ => step.sound) promises.1 .initial
  refine ⟨?_, ?_⟩
  · intro first second lease other held heldToo same running runningToo
    exact sound.exclusive held heldToo same running runningToo
  · intro thread β op resume reply next pending served
    have active := promises.2 thread
    rw [pending] at active
    exact (active last reply next .refl served).1.removed sound

/-- The first of two threads has the lock for thirty seconds, and the second does not get it. -/
theorem first_lock_excludes : ∃ history threads last,
    Interleaves serves (fun _ : Nat => LockManager.session "shard:lock:shard-0" (Duration.fromSecs 30))
      ({ } : LockStore Nat) history threads last ∧
    last.leases 0 = some ⟨"lock:" ++ "shard:lock:shard-0", 30000000000⟩ ∧ last.now = 5 ∧
    ∀ second other, last.leases second = some other → other.key = "lock:" ++ "shard:lock:shard-0" →
      last.now < other.expiresAt → 0 = second := by
  let key := "lock:" ++ "shard:lock:shard-0"
  let millis := LockManager.millis (Duration.fromSecs 30)
  let drawn : LockStore Nat := { issued := [(0, ⟨0⟩)] }
  let lent := (drawn.set 0 key ⟨0⟩ millis).lend 0 key millis
  let asked : LockStore Nat := { lent with issued := [(1, ⟨1⟩), (0, ⟨0⟩)] }
  have draws : serves 0 ({ } : LockStore Nat) .newV4 ⟨0⟩ drawn := ⟨0, le_rfl, by simp, rfl⟩
  have connects : serves 0 drawn .getConnection (.ok ()) drawn := ⟨0, le_rfl, rfl⟩
  have sets : serves 0 drawn (.setNxPx key ⟨0⟩ millis) (.ok true) lent :=
    ⟨0, le_rfl, .acquired rfl (by decide)⟩
  have drawsToo : serves 1 lent .newV4 ⟨1⟩ asked := ⟨0, le_rfl, by decide, rfl⟩
  have connectsToo : serves 1 asked .getConnection (.ok ()) asked := ⟨0, le_rfl, rfl⟩
  have refuses : serves 1 asked (.setNxPx key ⟨1⟩ millis) (.ok false) { asked with now := 5 } :=
    ⟨5, by decide, .present (by decide) (by decide)⟩
  have run : Interleaves serves (fun _ : Nat => LockManager.session "shard:lock:shard-0" (Duration.fromSecs 30))
      ({ } : LockStore Nat) [] _ _ := .start
  have run := Interleaves.serve 0 ⟨0⟩ run rfl draws
  have run := Interleaves.serve 0 (.ok ()) run rfl connects
  have run := Interleaves.serve 0 (.ok true) run rfl sets
  have run := Interleaves.serve 1 ⟨1⟩ run rfl drawsToo
  have run := Interleaves.serve 1 (.ok ()) run rfl connectsToo
  have run := Interleaves.serve 1 (.ok false) run rfl refuses
  refine ⟨_, _, { asked with now := 5 }, run, by decide, rfl, ?_⟩
  intro second other held same running
  exact (locks_exclude run).1 0 second _ other rfl held same.symm (by decide) running

end Runs
end BankingEs.Proofs.LockExclusion
