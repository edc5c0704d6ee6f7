import BankingEs.Auth.Counters

/-! When the counters of `check_rate_limit` expire. Only the call that began a count sends its
`EXPIRE`, so a counter expires if that call got that far. -/

namespace BankingEs.Proofs.CounterExpiry
open Async AuthService CounterStore

/-- Whether a call has still to count, has to set the expiry of a counter that it began, or neither. -/
inductive Phase where
  | fresh
  | expiring
  | finished
  deriving DecidableEq

inductive Stage (service : AuthService) (key : String) : Phase → Program AuthCall (Except AuthError Unit) → Prop where
  | connects {resume} (next : ∀ reply, Stage service key .fresh (resume reply)) :
      Stage service key .fresh (.request .getAsyncConnection resume)
  | failed {error} : Stage service key .fresh (.pure (.error error))
  | counts {resume} (first : Stage service key .expiring (resume (.ok 1)))
      (others : ∀ reply, reply ≠ .ok 1 → Stage service key .finished (resume reply)) :
      Stage service key .fresh (.request (.redisIncr (rateLimitKey key)) resume)
  | expires {resume} (next : ∀ reply, Stage service key .finished (resume reply)) :
      Stage service key .expiring (.request (.redisExpire (rateLimitKey key) service.config.rateLimitWindow) resume)
  | returned {result} : Stage service key .finished (.pure result)

private theorem Stage.initial (service : AuthService) (key : String) :
    Stage service key .fresh (service.checkRateLimit key) := by
  refine .connects fun connected => ?_
  cases connected with
  | error error => exact .failed
  | ok connection =>
    refine .counts (.expires fun expired => ?_) fun counted other => ?_
    · cases expired with
      | error error => exact .returned
      | ok value => exact .returned
    · cases counted with
      | error error => exact .returned
      | ok current =>
        have notFirst : current ≠ 1 := fun first => other (congrArg Except.ok first)
        change Stage service key .finished (if current = 1 then _ else _)
        rw [if_neg notFirst]
        exact .returned

private theorem update_eq {α β : Type} [DecidableEq α] {f : α → β} {place other : α} {new value : β}
    (found : Function.update f place new other = value) : other = place ∧ new = value ∨ other ≠ place ∧ f other = value := by
  by_cases same : other = place
  · subst same
    exact .inl ⟨rfl, by rwa [Function.update_self] at found⟩
  · exact .inr ⟨same, by rwa [Function.update_of_ne same] at found⟩

section Store
variable {ι : Type} {keys : ι → String} {window : Nat} {phase : ι → Phase} {store : CounterStore ι} {thread : ι}

/-- A counter expires from the `EXPIRE` of the call that began it on, and lasts no longer than a
window after the last command on it. -/
structure Sound (keys : ι → String) (window : Nat) (now : DateTime) (expired : List ι) (key : String)
    (counter : Counter ι) : Prop where
  positive : 1 ≤ counter.count
  touched : counter.touchedAt ≤ now
  named : rateLimitKey (keys counter.starter) = key
  unset : counter.starter ∉ expired → counter.expiresAt = none
  expires : counter.starter ∈ expired →
    ∃ expiresAt, counter.expiresAt = some expiresAt ∧ expiresAt ≤ counter.touchedAt + DateTime.seconds window

structure Tracks (keys : ι → String) (window : Nat) (phase : ι → Phase) (store : CounterStore ι) : Prop where
  sound : ∀ key counter, store.counters key = some counter → Sound keys window store.now store.expired key counter
  unexpired : ∀ thread, phase thread ≠ .finished → thread ∉ store.expired
  fresh : ∀ thread, phase thread = .fresh → ∀ key counter, store.counters key = some counter → counter.starter ≠ thread
  expiring : ∀ thread, phase thread = .expiring →
    ∃ counter, store.counters (rateLimitKey (keys thread)) = some counter ∧ counter.starter = thread

private theorem Tracks.initial (keys : ι → String) (window : Nat) (now : DateTime) :
    Tracks keys window (fun _ => .fresh) { now } where
  sound := fun _ _ found => by cases found
  unexpired := fun _ _ => List.not_mem_nil
  fresh := fun _ _ _ _ found => by cases found
  expiring := fun _ impossible => by cases impossible

private theorem Tracks.wait {now : DateTime} (tracks : Tracks keys window phase store) (waits : store.now ≤ now) :
    Tracks keys window phase { store with now } where
  sound := fun key counter found =>
    { tracks.sound key counter found with touched := (tracks.sound key counter found).touched.trans waits }
  unexpired := tracks.unexpired
  fresh := tracks.fresh
  expiring := tracks.expiring

private theorem live_some {key : String} {counter : Counter ι} (found : store.live key = some counter) :
    store.counters key = some counter :=
  (Option.filter_eq_some_iff.mp found).1

private theorem Tracks.waiting (tracks : Tracks keys window phase store) (isExpiring : phase thread = .expiring) :
    ∃ counter, store.live (rateLimitKey (keys thread)) = some counter ∧ counter.starter = thread := by
  obtain ⟨counter, stored, starter⟩ := tracks.expiring thread isExpiring
  have unexpired : counter.starter ∉ store.expired := starter ▸ tracks.unexpired thread (by simp [isExpiring])
  have unset := (tracks.sound _ counter stored).unset unexpired
  refine ⟨counter, ?_, starter⟩
  rw [live, stored, Option.filter_some, Counter.isLive, unset]
  rfl

/-- `INCR` begins a count if there is none, and else leaves its expiry as it is. -/
theorem Tracks.counted (tracks : Tracks keys window phase store) (isFresh : phase thread = .fresh) :
    Sound keys window store.now store.expired (rateLimitKey (keys thread))
        (store.counted thread (rateLimitKey (keys thread))) ∧
      (store.live (rateLimitKey (keys thread)) = none ∧
          (store.counted thread (rateLimitKey (keys thread))).starter = thread ∨
        (store.counted thread (rateLimitKey (keys thread))).count ≠ 1 ∧
          ∃ old, store.live (rateLimitKey (keys thread)) = some old ∧
            (store.counted thread (rateLimitKey (keys thread))).starter = old.starter) := by
  unfold CounterStore.counted
  cases found : store.live (rateLimitKey (keys thread)) with
  | none =>
    have mine : thread ∉ store.expired := tracks.unexpired thread (by simp [isFresh])
    exact ⟨⟨le_rfl, le_rfl, rfl, fun _ => rfl, fun expired => absurd expired mine⟩, .inl ⟨rfl, rfl⟩⟩
  | some old =>
    have sound := tracks.sound _ old (live_some found)
    refine ⟨⟨Int.le_add_one sound.positive, le_rfl, sound.named, sound.unset, fun expired => ?_⟩,
      .inr ⟨(Int.lt_add_one_of_le sound.positive).ne', old, rfl, rfl⟩⟩
    obtain ⟨expiresAt, set, bound⟩ := sound.expires expired
    exact ⟨expiresAt, set, bound.trans (Int.add_le_add_right sound.touched _)⟩

private theorem Sound.expired {now : DateTime} {expired : List ι} {key : String} {counter : Counter ι}
    (sound : Sound keys window now expired key counter) (other : counter.starter ≠ thread) :
    Sound keys window now (thread :: expired) key counter :=
  { sound with
    unset := fun absent => sound.unset fun member => absent (List.mem_cons_of_mem _ member)
    expires := fun member => sound.expires ((List.mem_cons.mp member).resolve_left other) }

variable [DecidableEq ι]

private theorem Tracks.finish (tracks : Tracks keys window phase store) (thread : ι) :
    Tracks keys window (Function.update phase thread .finished) store := by
  refine ⟨tracks.sound, ?_, ?_, ?_⟩
  · intro other active
    rcases @update_eq _ _ _ phase thread other .finished _ rfl with ⟨_, same⟩ | ⟨_, same⟩
    · exact absurd same.symm active
    · exact tracks.unexpired other (same ▸ active)
  · intro other isFresh
    rcases update_eq isFresh with ⟨_, impossible⟩ | ⟨_, otherFresh⟩
    · cases impossible
    · exact tracks.fresh other otherFresh
  · intro other isExpiring
    rcases update_eq isExpiring with ⟨_, impossible⟩ | ⟨_, otherExpiring⟩
    · cases impossible
    · exact tracks.expiring other otherExpiring

/-- A call has to set the expiry only of a counter that was not there. -/
theorem Tracks.count {next : Phase} (tracks : Tracks keys window phase store) (isFresh : phase thread = .fresh)
    (moves : next = .finished ∨ next = .expiring ∧ store.live (rateLimitKey (keys thread)) = none) :
    Tracks keys window (Function.update phase thread next)
      (store.set (rateLimitKey (keys thread)) (some (store.counted thread (rateLimitKey (keys thread))))) := by
  obtain ⟨sound, origin⟩ := tracks.counted isFresh
  generalize store.counted thread (rateLimitKey (keys thread)) = counter at sound origin ⊢
  refine ⟨?_, ?_, ?_, ?_⟩
  · intro key found stored
    rcases update_eq stored with ⟨rfl, new⟩ | ⟨_, old⟩
    · cases new
      exact sound
    · exact tracks.sound key found old
  · intro other active
    rcases @update_eq _ _ _ phase thread other next _ rfl with ⟨isThread, _⟩ | ⟨_, same⟩
    · exact isThread ▸ tracks.unexpired thread (by simp [isFresh])
    · exact tracks.unexpired other (same ▸ active)
  · intro other at_fresh key found stored
    rcases update_eq at_fresh with ⟨_, rfl⟩ | ⟨differs, otherFresh⟩
    · simp at moves
    · rcases update_eq stored with ⟨rfl, new⟩ | ⟨_, old⟩
      · cases new
        rcases origin with ⟨_, begun⟩ | ⟨_, old, present, begun⟩
        · exact begun ▸ Ne.symm differs
        · exact begun ▸ tracks.fresh other otherFresh _ old (live_some present)
      · exact tracks.fresh other otherFresh key found old
  · intro other at_expiring
    rcases update_eq at_expiring with ⟨rfl, rfl⟩ | ⟨differs, otherExpiring⟩
    · have absent : store.live (rateLimitKey (keys other)) = none := by simpa using moves
      rcases origin with ⟨_, begun⟩ | ⟨_, old, present, _⟩
      · exact ⟨counter, Function.update_self .., begun⟩
      · rw [absent] at present
        cases present
    -- Another call has still to set the expiry, perhaps of the very counter that goes up.
    · obtain ⟨old, present, starter⟩ := tracks.waiting otherExpiring
      by_cases shared : rateLimitKey (keys other) = rateLimitKey (keys thread)
      · rw [shared] at present ⊢
        rcases origin with ⟨absent, _⟩ | ⟨_, kept, found, begun⟩
        · rw [absent] at present
          cases present
        · rw [found] at present
          cases present
          exact ⟨counter, Function.update_self .., begun.trans starter⟩
      · exact ⟨old, (Function.update_of_ne shared _ _).trans (live_some present), starter⟩

/-- A call that sets an expiry does it to the counter that it began. -/
theorem Tracks.replace {next : Option (Counter ι)} (tracks : Tracks keys window phase store)
    (isExpiring : phase thread = .expiring)
    (own : ∀ counter, next = some counter → counter.starter = thread ∧
      Sound keys window store.now (thread :: store.expired) (rateLimitKey (keys thread)) counter) :
    Tracks keys window (Function.update phase thread .finished)
      { store.set (rateLimitKey (keys thread)) next with expired := thread :: store.expired } := by
  refine ⟨?_, ?_, ?_, ?_⟩
  · intro key found stored
    rcases update_eq stored with ⟨rfl, new⟩ | ⟨differs, old⟩
    · exact (own found new).2
    · have sound := tracks.sound key found old
      refine sound.expired fun mine => differs ?_
      rw [← sound.named, mine]
  · intro other active
    rcases @update_eq _ _ _ phase thread other .finished _ rfl with ⟨_, same⟩ | ⟨differs, same⟩
    · exact absurd same.symm active
    · intro member
      exact tracks.unexpired other (same ▸ active) ((List.mem_cons.mp member).resolve_left differs)
  · intro other isFresh key found stored
    rcases update_eq isFresh with ⟨_, impossible⟩ | ⟨differs, otherFresh⟩
    · cases impossible
    · rcases update_eq stored with ⟨rfl, new⟩ | ⟨_, old⟩
      · rw [(own found new).1]
        exact Ne.symm differs
      · exact tracks.fresh other otherFresh key found old
  · intro other isExpiring'
    rcases update_eq isExpiring' with ⟨_, impossible⟩ | ⟨differs, otherExpiring⟩
    · cases impossible
    · obtain ⟨old, stored, starter⟩ := tracks.expiring other otherExpiring
      have apart : rateLimitKey (keys other) ≠ rateLimitKey (keys thread) := by
        intro shared
        obtain ⟨mine, found, begun⟩ := tracks.expiring thread isExpiring
        rw [shared, found] at stored
        cases stored
        exact differs (starter.symm.trans begun)
      exact ⟨old, (Function.update_of_ne apart _ _).trans stored, starter⟩

private theorem Tracks.expire (tracks : Tracks keys window phase store) (isExpiring : phase thread = .expiring) :
    Tracks keys window (Function.update phase thread .finished)
      (store.expire thread (rateLimitKey (keys thread)) window) := by
  obtain ⟨counter, present, starter⟩ := tracks.waiting isExpiring
  have sound := tracks.sound _ counter (live_some present)
  unfold CounterStore.expire
  rw [present]
  dsimp only
  split
  · refine tracks.replace isExpiring fun new same => ?_
    cases same
    exact ⟨starter, sound.positive, le_rfl, sound.named,
      fun absent => absurd (starter ▸ List.mem_cons_self) absent, fun _ => ⟨_, rfl, le_rfl⟩⟩
  · refine tracks.replace isExpiring fun new same => ?_
    cases same

end Store

section Runs
variable {ι : Type} [DecidableEq ι] {service : AuthService} {keys : ι → String} {start : DateTime}
  {history : List (Served ι AuthCall (CounterStore ι))} {threads : ι → Program AuthCall (Except AuthError Unit)}
  {store : CounterStore ι}

private theorem tracks_moves {phase : ι → Phase} {before after : CounterStore ι} {thread : ι} {β : Type}
    {op : AuthCall β}
    {resume : β → Program AuthCall (Except AuthError Unit)} {reply : β}
    (stage : Stage service (keys thread) (phase thread) (.request op resume)) (served : serves thread before op reply after)
    (tracks : Tracks keys service.config.rateLimitWindow phase before) :
    ∃ next, Stage service (keys thread) next (resume reply) ∧
      Tracks keys service.config.rateLimitWindow (Function.update phase thread next) after := by
  obtain ⟨now, waits, served⟩ := served
  have tracks := tracks.wait waits
  generalize at_stage : phase thread = current at stage
  cases stage with
  | connects next =>
    obtain rfl := served
    refine ⟨.fresh, next reply, ?_⟩
    rw [← at_stage, Function.update_eq_self]
    exact tracks
  | counts first others =>
    cases served with
    | fails => exact ⟨.finished, others _ nofun, tracks.finish thread⟩
    | unanswered fits => exact ⟨.finished, others _ nofun, tracks.count at_stage (.inl rfl)⟩
    | answered fits =>
      rcases (tracks.counted at_stage).2 with ⟨absent, _⟩ | ⟨later, _⟩
      · have one : (CounterStore.counted { before with now } thread (rateLimitKey (keys thread))).count = 1 := by
          rw [CounterStore.counted, absent]
        rw [one]
        exact ⟨.expiring, first, tracks.count at_stage (.inr ⟨rfl, absent⟩)⟩
      · refine ⟨.finished, others _ fun same => later (Except.ok.inj same), tracks.count at_stage (.inl rfl)⟩
  | expires next =>
    refine ⟨.finished, next reply, ?_⟩
    cases served with
    | fails => exact tracks.finish thread
    | answered => exact tracks.expire at_stage
    | unanswered => exact tracks.expire at_stage

private theorem run_tracks (run : Interleaves serves (fun thread => service.checkRateLimit (keys thread)) { now := start }
    history threads store) : ∃ phase, Tracks keys service.config.rateLimitWindow phase store := by
  have phases := run.phases (fun thread => Stage service (keys thread))
    (fun _ phase store => Tracks keys service.config.rateLimitWindow phase store)
    (by
      intro _ _ _ thread _ _ _ reply _ stage served tracks
      exact tracks_moves stage served tracks)
    (fun _ => .fresh) (fun thread => .initial service (keys thread)) (.initial keys _ start)
  obtain ⟨phase, _, tracks⟩ := phases
  exact ⟨phase, tracks⟩

end Runs

/-- Every counter that is there has an expiry, which comes within a window of the last command on
the counter. -/
def Forgets {ι : Type} (window : Nat) (store : CounterStore ι) : Prop :=
  ∀ key counter, store.live key = some counter → ∃ expiresAt, counter.expiresAt = some expiresAt ∧
    store.now < expiresAt ∧ expiresAt ≤ counter.touchedAt + DateTime.seconds window

/-- In every state that any calls reach, with any failures: the counters expire exactly if every
call that began one of them has had its `EXPIRE` carried out. -/
theorem counters_expire_iff {ι : Type} [DecidableEq ι] {service : AuthService} {keys : ι → String} {start : DateTime}
    {history : List (Served ι AuthCall (CounterStore ι))} {threads : ι → Program AuthCall (Except AuthError Unit)}
    {store : CounterStore ι}
    (run : Interleaves serves (fun thread => service.checkRateLimit (keys thread)) { now := start } history threads store) :
    Forgets service.config.rateLimitWindow store ↔
      ∀ key counter, store.live key = some counter → counter.starter ∈ store.expired := by
  obtain ⟨phase, tracks⟩ := run_tracks run
  constructor
  · intro forgets key counter present
    obtain ⟨expiresAt, set, _⟩ := forgets key counter present
    by_contra missing
    rw [(tracks.sound key counter (live_some present)).unset missing] at set
    cases set
  · intro reached key counter present
    obtain ⟨expiresAt, set, bound⟩ := (tracks.sound key counter (live_some present)).expires (reached key counter present)
    have alive := (Option.filter_eq_some_iff.mp present).2
    rw [Counter.isLive, set] at alive
    exact ⟨expiresAt, set, of_decide_eq_true alive, bound⟩

def limiting : AuthService where
  libraries := Sample.libraries
  config := { jwtSecret := "", refreshTokenSecret := "", rateLimitRequests := 1, rateLimitWindow := 60 }

def checks (_ : Nat) : Program AuthCall (Except AuthError Unit) := limiting.checkRateLimit "client"

private theorem immediately {thread : Nat} {β : Type} {store after : CounterStore Nat} {op : AuthCall β} {reply : β}
    (served : step thread store op reply after) : serves thread store op reply after :=
  ⟨store.now, le_rfl, served⟩

/-- A call that comes through leaves a counter that expires. -/
theorem checked_counter_expires : ∃ history threads store,
    Interleaves serves checks ({ now := 0 } : CounterStore Nat) history threads store ∧ threads 0 = .pure (.ok ()) ∧
      (store.live (rateLimitKey "client")).isSome = true ∧ Forgets 60 store := by
  have run : Interleaves serves checks ({ now := 0 } : CounterStore Nat) [] checks _ := .start
  have run := Interleaves.serve 0 (.ok ()) run rfl (immediately rfl)
  have run := Interleaves.serve 0 _ run rfl (immediately (.answered (by decide)))
  have run := Interleaves.serve 0 _ run rfl (immediately .answered)
  refine ⟨_, _, _, run, rfl, rfl, (@counters_expire_iff _ _ limiting (fun _ => "client") 0 _ _ _ run).mpr ?_⟩
  intro key counter present
  have stored : Function.update (Function.update (fun _ => none) (rateLimitKey "client") (some ⟨1, none, 0, 0⟩))
      (rateLimitKey "client") (some ⟨1, some (DateTime.seconds 60), 0, 0⟩) key = some counter := live_some present
  rw [Function.update_idem, Function.update_apply] at stored
  split at stored
  · cases stored
    exact List.mem_cons_self
  · cases stored

/-- The `EXPIRE` of the first call fails. A year later the client has made no other request, and
is refused. -/
theorem failed_expiry_refuses : ∃ history threads store,
    Interleaves serves checks ({ now := 0 } : CounterStore Nat) history threads store ∧
      threads 0 = .pure (.error (.redisError "timeout")) ∧ threads 1 = .pure (.error .rateLimitExceeded) ∧
      store.now = DateTime.seconds 31536000 ∧
      (store.live (rateLimitKey "client")).map (fun counter => (counter.count, counter.expiresAt)) = some (2, none) := by
  have run : Interleaves serves checks ({ now := 0 } : CounterStore Nat) [] checks _ := .start
  have run := Interleaves.serve 0 (.ok ()) run rfl (immediately rfl)
  have run := Interleaves.serve 0 _ run rfl (immediately (.answered (by decide)))
  have run := Interleaves.serve 0 (.error "timeout" : Except RedisError Unit) run rfl (immediately .fails)
  have run := Interleaves.serve 1 (.ok ()) run rfl ⟨DateTime.seconds 31536000, by decide, rfl⟩
  have run := Interleaves.serve 1 _ run rfl (immediately (.answered (by decide)))
  exact ⟨_, _, _, run, rfl, rfl, rfl, rfl⟩

end BankingEs.Proofs.CounterExpiry
