import BankingEs.Async.Sequential
import BankingEs.Cache.Warming

/-! Whether the warm-up can be run again. Calls that find the flag set are skipped, so that
the first call which leaves it set decides: an `initialize` that reaches Redis, or a warm-up
that fails after it has begun. -/

namespace BankingEs.Proofs.WarmUp
open Async WarmingOperation Warming

variable {ι : Type} {batchSize : Nat} {calls : ι → WarmingOperation} {world before after : Warming ι} {thread : ι}

/-- Where a call is: not begun or returned, with the guard before and after its connection
was refused or made, or between the two sections of a warm-up. -/
inductive Phase where
  | out
  | checks
  | leaves
  | connected
  | works

inductive Fetches : Program WarmingCall (Except String Unit) → Prop where
  | finishes : Fetches finishProgram
  | queries {chunk : List Uuid} {resume : Except String (List WarmingData) → Program WarmingCall (Except String Unit)}
      (read : ∀ results, Fetches (resume (.ok results))) (failed : ∀ error, resume (.error error) = .pure (.error error)) :
      Fetches (.request (.query chunk) resume)
  | warms {accountId : Uuid} {data : WarmingData} {resume : Except String Unit → Program WarmingCall (Except String Unit)}
      (next : Fetches (resume (.ok ()))) (failed : ∀ error, resume (.error error) = .pure (.error error)) :
      Fetches (.request (.warm accountId data) resume)

private theorem fetches_each (entries : List (Uuid × WarmingData)) {next : Program WarmingCall (Except String Unit)}
    (rest : Fetches (next.andThen fun _ => finishProgram)) :
    Fetches (((warmEach entries).andThen fun _ => next).andThen fun _ => finishProgram) := by
  induction entries with
  | nil => exact rest
  | cons entry entries ih => exact .warms ih fun _ => rfl

private theorem fetches_chunks (chunks : List (List Uuid)) :
    Fetches ((warmChunksProgram chunks).andThen fun _ => finishProgram) := by
  induction chunks with
  | nil => exact .finishes
  | cons chunk chunks ih => exact .queries (fun results => fetches_each (chunk.zip results) ih) fun _ => rfl

def checked : Except String Unit → Program WarmingCall (Except String Unit)
  | .error error => .request .unlockState fun _ => .pure (.error error)
  | .ok () => .request .getTest fun _ => .request .markInitialized fun _ => .pure (.ok ())

def connected (batchSize : Nat) (accountIds : List Uuid) : Except String Unit → Program WarmingCall (Except String Unit)
  | .error error => .pure (.error error)
  | .ok () => fetchProgram batchSize accountIds

private theorem initializeProgram_eq : initializeProgram =
    .request .lockState fun warming => if warming then .pure (.ok ()) else .request .getConnection checked := by
  refine congrArg (Program.request _) (funext fun warming => ?_)
  cases warming with
  | true => rfl
  | false =>
    refine congrArg (Program.request _) (funext fun reply => ?_)
    cases reply <;> rfl

private theorem warmupCacheProgram_eq (accountIds : List Uuid) : warmupCacheProgram batchSize accountIds =
    .request (.startWarming accountIds) fun warming =>
      if warming then .pure (.ok ()) else .request .getConnection (connected batchSize accountIds) := by
  refine congrArg (Program.request _) (funext fun warming => ?_)
  cases warming with
  | true => rfl
  | false =>
    refine congrArg (Program.request _) (funext fun reply => ?_)
    cases reply <;> rfl

inductive Stage (batchSize : Nat) : WarmingOperation → Phase → Program WarmingCall (Except String Unit) → Prop where
  | starts (call : WarmingOperation) : Stage batchSize call .out (call.program batchSize)
  | returned (call : WarmingOperation) (result : Except String Unit) : Stage batchSize call .out (.pure result)
  | checks : Stage batchSize .initializeService .checks (.request .getConnection checked)
  | leaves (error : String) :
      Stage batchSize .initializeService .leaves (.request .unlockState fun _ => .pure (.error error))
  | tests : Stage batchSize .initializeService .connected
      (.request .getTest fun _ => .request .markInitialized fun _ => .pure (.ok ()))
  | marks : Stage batchSize .initializeService .connected (.request .markInitialized fun _ => .pure (.ok ()))
  | connects (accountIds : List Uuid) :
      Stage batchSize (.warmupCache accountIds) .works (.request .getConnection (connected batchSize accountIds))
  | fetches (accountIds : List Uuid) {program : Program WarmingCall (Except String Unit)} (fetches : Fetches program) :
      Stage batchSize (.warmupCache accountIds) .works program

/-- The call turns out such that the flag is cleared again: an `initialize` gets no connection, and a
warm-up gets all it asks for and has a shard for it. -/
def Harmless (batchSize : Nat) (calls : ι → WarmingOperation) : Served ι WarmingCall (Warming ι) → Prop
  | ⟨thread, .getConnection, reply, _⟩ =>
    match calls thread with
    | .initializeService => reply ≠ .ok ()
    | .warmupCache _ => reply = .ok () ∧ batchSize ≠ 0
  | ⟨_, .query _, reply, _⟩ => ∃ results, reply = .ok results
  | ⟨_, .warm _ data, _, world⟩ => world.cache.accounts.config.shardCount = 0 → data.isComplete = false
  | _ => True

inductive Move (thread : ι) (before after : Warming ι) (harmless : Prop) : Phase → Phase → Prop where
  | skips (phase : Phase) (state : after.cache.warmingState = before.cache.warmingState)
      (guard : after.holder = before.holder) (fine : harmless) : Move thread before after harmless phase phase
  | starts (free : before.holder = none) (idle : before.cache.warmingState.isWarming = false)
      (set : after.cache.warmingState.isWarming = true) (guard : after.holder = before.holder) (fine : harmless) :
      Move thread before after harmless .out .works
  | locks (free : before.holder = none) (idle : before.cache.warmingState.isWarming = false)
      (state : after.cache.warmingState = before.cache.warmingState) (guard : after.holder = some thread)
      (fine : harmless) : Move thread before after harmless .out .checks
  | refused (state : after.cache.warmingState = before.cache.warmingState) (guard : after.holder = before.holder)
      (fine : harmless) : Move thread before after harmless .checks .leaves
  | connects (state : after.cache.warmingState = before.cache.warmingState) (guard : after.holder = before.holder)
      (harm : ¬ harmless) : Move thread before after harmless .checks .connected
  | leaves (state : after.cache.warmingState = before.cache.warmingState) (guard : after.holder = none)
      (fine : harmless) : Move thread before after harmless .leaves .out
  | marks (set : after.cache.warmingState.isWarming = true) (guard : after.holder = none) (fine : harmless) :
      Move thread before after harmless .connected .out
  | fails (state : after.cache.warmingState = before.cache.warmingState) (guard : after.holder = before.holder)
      (harm : ¬ harmless) : Move thread before after harmless .works .out
  | finishes (cleared : after.cache.warmingState.isWarming = false) (none : after.cache.warmingState.accountsToWarm = [])
      (guard : after.holder = before.holder) (fine : harmless) : Move thread before after harmless .works .out

private theorem warm_warmingState (now : Instant) (accountId : Uuid) (account : Option RedisEntry)
    (events : Option EventsKey)
    (cache : Cache) : (cache.warm now accountId account events).warmingState = cache.warmingState := by
  unfold Cache.warm
  split <;> rfl

private theorem warm_config (now : Instant) (accountId : Uuid) (account : Option RedisEntry) (events : Option EventsKey)
    (cache : Cache) : (cache.warm now accountId account events).accounts.config = cache.accounts.config := by
  unfold Cache.warm
  split <;> rfl

private theorem warms_config (now : Instant) (data : Uuid → WarmingData) (chunk : List Uuid) (cache : Cache) :
    (chunk.foldl (fun warmed accountId =>
      warmed.warm now accountId (data accountId).account (data accountId).events) cache).accounts.config =
      cache.accounts.config := by
  induction chunk generalizing cache with
  | nil => rfl
  | cons accountId chunk ih => rw [List.foldl_cons, ih, warm_config]

section Moves
variable {β : Type} {op : WarmingCall β} {resume : β → Program WarmingCall (Except String Unit)} {reply : β}

private theorem initialize_moves (whole : initializeProgram = .request op resume)
    (served : Warming.serves thread before op reply after) :
    ∃ next, Stage batchSize .initializeService next (resume reply) ∧
      Move thread before after (Harmless batchSize calls ⟨thread, op, reply, after⟩) .out next := by
  rw [initializeProgram_eq] at whole
  cases whole
  obtain ⟨now, _, free, found, rfl⟩ := served
  cases reply with
  | true => exact ⟨.out, .returned _ _, .skips _ rfl rfl trivial⟩
  | false => exact ⟨.checks, .checks, .locks free found.symm rfl rfl trivial⟩

private theorem warmup_moves {accountIds : List Uuid}
    (whole : warmupCacheProgram batchSize accountIds = .request op resume)
    (served : Warming.serves thread before op reply after) :
    ∃ next, Stage batchSize (.warmupCache accountIds) next (resume reply) ∧
      Move thread before after (Harmless batchSize calls ⟨thread, op, reply, after⟩) .out next := by
  rw [warmupCacheProgram_eq] at whole
  cases whole
  obtain ⟨now, _, free, found, rfl⟩ := served
  cases reply with
  | true => exact ⟨.out, .returned _ _, .skips _ rfl rfl trivial⟩
  | false => exact ⟨.works, .connects _, .starts free found.symm rfl rfl trivial⟩

private theorem connect_moves {accountIds : List Uuid} {reply : Except String Unit}
    (warms : calls thread = .warmupCache accountIds)
    (served : Warming.serves thread before .getConnection reply after) :
    ∃ next, Stage batchSize (.warmupCache accountIds) next (connected batchSize accountIds reply) ∧
      Move thread before after (Harmless batchSize calls ⟨thread, .getConnection, reply, after⟩) .works next := by
  obtain ⟨now, _, rfl⟩ := served
  cases reply with
  | error error =>
    refine ⟨.out, .returned _ _, .fails rfl rfl ?_⟩
    simp [Harmless, warms]
  | ok _ =>
    by_cases empty : batchSize = 0
    · refine ⟨.out, ?_, .fails rfl rfl ?_⟩
      · rw [connected, fetchProgram, if_pos empty]
        exact .returned _ _
      · simp [Harmless, warms, empty]
    · refine ⟨.works, ?_, .skips _ rfl rfl ?_⟩
      · rw [connected, fetchProgram, if_neg empty]
        exact .fetches _ (fetches_chunks _)
      · simp [Harmless, warms, empty]

private theorem fetch_moves {accountIds : List Uuid} (fetches : Fetches (.request op resume))
    (served : Warming.serves thread before op reply after) :
    ∃ next, Stage batchSize (.warmupCache accountIds) next (resume reply) ∧
      Move thread before after (Harmless batchSize calls ⟨thread, op, reply, after⟩) .works next := by
  obtain ⟨now, _, served⟩ := served
  generalize whole : Program.request op resume = program at fetches
  cases fetches with
  | finishes =>
    cases whole
    obtain ⟨free, rfl⟩ := served
    exact ⟨.out, .returned _ _, .finishes rfl rfl rfl trivial⟩
  | queries read failed =>
    cases whole
    obtain ⟨rfl, _⟩ := served
    cases reply with
    | error error =>
      refine ⟨.out, ?_, .fails rfl rfl ?_⟩
      · rw [failed]
        exact .returned _ _
      · simp [Harmless]
    | ok results => exact ⟨.works, .fetches _ (read results), .skips _ rfl rfl ⟨results, rfl⟩⟩
  | warms next failed =>
    cases whole
    dsimp only [Warming.step] at served
    split at served
    next unsharded =>
      obtain ⟨rfl, rfl⟩ := served
      refine ⟨.out, ?_, .fails rfl rfl ?_⟩
      · rw [failed]
        exact .returned _ _
      · simp [Harmless, unsharded]
    next sharded =>
      obtain ⟨rfl, rfl⟩ := served
      refine ⟨.works, .fetches _ next, .skips _ (warm_warmingState ..) rfl ?_⟩
      intro none
      rw [warm_config] at none
      simpa using fun complete => sharded ⟨none, complete⟩

private theorem stage_moves {phase : Phase} (stage : Stage batchSize (calls thread) phase (.request op resume))
    (served : Warming.serves thread before op reply after) :
    ∃ next, Stage batchSize (calls thread) next (resume reply) ∧
      Move thread before after (Harmless batchSize calls ⟨thread, op, reply, after⟩) phase next := by
  generalize same : calls thread = call at stage
  generalize whole : Program.request op resume = program at stage
  cases stage with
  | starts call =>
    cases call with
    | initializeService => exact initialize_moves whole.symm served
    | warmupCache accountIds => exact warmup_moves whole.symm served
  | returned call result => cases whole
  | checks =>
    cases whole
    obtain ⟨now, _, rfl⟩ := served
    cases reply with
    | error error => exact ⟨.leaves, .leaves error, .refused rfl rfl (by simp [Harmless, same])⟩
    | ok _ => exact ⟨.connected, .tests, .connects rfl rfl (by simp [Harmless, same])⟩
  | leaves error =>
    cases whole
    obtain ⟨now, _, rfl⟩ := served
    exact ⟨.out, .returned _ _, .leaves rfl rfl trivial⟩
  | tests =>
    cases whole
    obtain ⟨now, _, rfl⟩ := served
    exact ⟨.connected, .marks, .skips _ rfl rfl trivial⟩
  | marks =>
    cases whole
    obtain ⟨now, _, rfl⟩ := served
    exact ⟨.out, .returned _ _, .marks rfl rfl trivial⟩
  | connects accountIds =>
    cases whole
    exact connect_moves same served
  | fetches accountIds fetches =>
    subst whole
    exact fetch_moves fetches served

end Moves

def Clean (batchSize : Nat) (calls : ι → WarmingOperation) (history : List (Served ι WarmingCall (Warming ι))) : Prop :=
  ∀ entry ∈ history, Harmless batchSize calls entry

private theorem clean_append {history : List (Served ι WarmingCall (Warming ι))}
    {entry : Served ι WarmingCall (Warming ι)} :
    Clean batchSize calls (history ++ [entry]) ↔ Clean batchSize calls history ∧ Harmless batchSize calls entry := by
  simp [Clean, or_imp, forall_and]

/-- What the phase of the one call that is under way says about the flag and its guard. -/
def Holds (thread : ι) (world : Warming ι) (clean : Prop) : Phase → Prop
  | .out => world.holder = none ∧ (world.cache.warmingState.isWarming = false ↔ clean)
  | .checks | .leaves => world.holder = some thread ∧ world.cache.warmingState.isWarming = false ∧ clean
  | .connected => world.holder = some thread ∧ world.cache.warmingState.isWarming = false ∧ ¬ clean
  | .works => world.holder = none ∧ world.cache.warmingState.isWarming = true ∧ clean

structure Governed (phase : ι → Phase) (clean : Prop) (world : Warming ι) : Prop where
  alone : ∀ thread other, phase thread ≠ .out → other ≠ thread → phase other = .out
  busy : ∀ thread, phase thread ≠ .out → Holds thread world clean (phase thread)
  quiet : (∀ thread, phase thread = .out) →
    world.holder = none ∧ (world.cache.warmingState.isWarming = false ↔ clean)
  empty : world.cache.warmingState.isWarming = false → world.cache.warmingState.accountsToWarm = []

variable {phase : ι → Phase} {clean harmless : Prop} {next : Phase}

private theorem Holds.congr {same : Prop} {current : Phase} (holds : Holds thread before clean current)
    (state : after.cache.warmingState = before.cache.warmingState) (guard : after.holder = before.holder)
    (iff : clean ↔ same) : Holds thread after same current := by
  cases current <;> simpa only [Holds, state, guard, ← iff] using holds

private theorem Governed.free (governed : Governed phase clean world) (free : world.holder = none)
    (idle : world.cache.warmingState.isWarming = false) (thread : ι) : phase thread = .out := by
  by_contra busy
  have holds := governed.busy thread busy
  cases here : phase thread with
  | out => exact busy here
  | checks | leaves | connected =>
    rw [here] at holds
    exact absurd (free.symm.trans holds.1) nofun
  | works =>
    rw [here] at holds
    exact absurd (idle.symm.trans holds.2.1) nofun

variable [DecidableEq ι]

private theorem Governed.of_alone (others : ∀ other ≠ thread, phase other = .out)
    (holds : Holds thread world clean next)
    (empty : world.cache.warmingState.isWarming = false → world.cache.warmingState.accountsToWarm = []) :
    Governed (Function.update phase thread next) clean world := by
  have elsewhere other (busy : Function.update phase thread next other ≠ .out) : other = thread := by
    by_contra different
    rw [Function.update_of_ne different] at busy
    exact busy (others other different)
  refine ⟨?_, ?_, ?_, empty⟩
  · intro active other busy different
    obtain rfl := elsewhere active busy
    rw [Function.update_of_ne different]
    exact others other different
  · intro active busy
    obtain rfl := elsewhere active busy
    rw [Function.update_self]
    exact holds
  · intro all
    have out := all thread
    rw [Function.update_self] at out
    rw [out] at holds
    exact holds

private theorem Governed.move (governed : Governed phase clean before)
    (move : Move thread before after harmless (phase thread) next) :
    Governed (Function.update phase thread next) (clean ∧ harmless) after := by
  generalize here : phase thread = current at move
  have holds (busy : current ≠ .out) : Holds thread before clean current := here ▸ governed.busy thread (here ▸ busy)
  have others (busy : current ≠ .out) : ∀ other ≠ thread, phase other = .out :=
    fun other different => governed.alone thread other (here ▸ busy) different
  cases move with
  | skips current state guard fine =>
    have same : clean ↔ clean ∧ harmless := (and_iff_left fine).symm
    rw [← here, Function.update_eq_self]
    refine ⟨governed.alone, ?_, ?_, ?_⟩
    · intro active busy
      exact (governed.busy active busy).congr state guard same
    · intro all
      rw [state, guard, ← same]
      exact governed.quiet all
    · rw [state]
      exact governed.empty
  | starts free idle set guard fine =>
    have out := governed.free free idle
    obtain ⟨_, settled⟩ := governed.quiet out
    refine .of_alone (fun other _ => out other) ⟨guard.trans free, set, settled.mp idle, fine⟩ ?_
    intro cleared
    exact absurd (set.symm.trans cleared) nofun
  | locks free idle state guard fine =>
    have out := governed.free free idle
    obtain ⟨_, settled⟩ := governed.quiet out
    refine .of_alone (fun other _ => out other) ⟨guard, ?_, settled.mp idle, fine⟩ ?_
    · rw [state, idle]
    · rw [state]
      exact governed.empty
  | refused state guard fine =>
    obtain ⟨held, idle, fineBefore⟩ := holds nofun
    refine .of_alone (others nofun) ⟨guard.trans held, ?_, fineBefore, fine⟩ ?_
    · rw [state, idle]
    · rw [state]
      exact governed.empty
  | connects state guard harm =>
    obtain ⟨held, idle, _⟩ := holds nofun
    refine .of_alone (others nofun) ⟨guard.trans held, ?_, fun both => harm both.2⟩ ?_
    · rw [state, idle]
    · rw [state]
      exact governed.empty
  | leaves state guard fine =>
    obtain ⟨_, idle, fineBefore⟩ := holds nofun
    refine .of_alone (others nofun) ⟨guard, ?_⟩ ?_
    · rw [state, idle]
      exact iff_of_true rfl ⟨fineBefore, fine⟩
    · rw [state]
      exact governed.empty
  | marks set guard fine =>
    obtain ⟨_, _, harm⟩ := holds nofun
    refine .of_alone (others nofun) ⟨guard, ?_⟩ ?_
    · rw [set]
      exact iff_of_false nofun fun both => harm both.1
    · intro cleared
      exact absurd (set.symm.trans cleared) nofun
  | fails state guard harm =>
    obtain ⟨free, set, _⟩ := holds nofun
    refine .of_alone (others nofun) ⟨guard.trans free, ?_⟩ ?_
    · rw [state, set]
      exact iff_of_false nofun fun both => harm both.2
    · rw [state]
      exact governed.empty
  | finishes cleared none guard fine =>
    obtain ⟨free, _, fineBefore⟩ := holds nofun
    refine .of_alone (others nofun) ⟨guard.trans free, ?_⟩ fun _ => none
    rw [cleared]
    exact iff_of_true rfl ⟨fineBefore, fine⟩

structure Fresh (world : Warming ι) : Prop where
  free : world.holder = none
  idle : world.cache.warmingState.isWarming = false
  empty : world.cache.warmingState.accountsToWarm = []

variable {first last : Warming ι} {history : List (Served ι WarmingCall (Warming ι))}
  {threads : ι → Program WarmingCall (Except String Unit)}

private theorem run_governed (fresh : Fresh first)
    (run : Interleaves Warming.serves (fun thread => (calls thread).program batchSize) first history threads last) :
    ∃ phase, (∀ thread, Stage batchSize (calls thread) (phase thread) (threads thread)) ∧
      Governed phase (Clean batchSize calls history) last := by
  refine run.phases (fun thread => Stage batchSize (calls thread))
    (fun history phase world => Governed phase (Clean batchSize calls history) world) ?_ (fun _ => .out)
    (fun thread => .starts (calls thread)) ?_
  · intro history phase before thread β op resume reply after stage served governed
    obtain ⟨next, resumed, move⟩ := stage_moves stage served
    refine ⟨next, resumed, ?_⟩
    rw [clean_append]
    exact governed.move move
  · refine ⟨?_, ?_, ?_, fun _ => fresh.empty⟩
    · intro thread other busy
      exact absurd rfl busy
    · intro thread busy
      exact absurd rfl busy
    · intro _
      refine ⟨fresh.free, iff_of_true fresh.idle ?_⟩
      intro entry impossible
      cases impossible

/-- The call has not begun, in that it has yet to look at the state, or it has returned. -/
def NotInProgress : Program WarmingCall (Except String Unit) → Prop
  | .pure _ => True
  | .request .lockState _ => True
  | .request (.startWarming _) _ => True
  | _ => False

private theorem phase_out {call : WarmingOperation} {current : Phase}
    {program : Program WarmingCall (Except String Unit)}
    (stage : Stage batchSize call current program) (outside : NotInProgress program) : current = .out := by
  cases stage with
  | starts call => rfl
  | returned call result => rfl
  | checks | leaves error | tests | marks | connects accountIds => exact outside.elim
  | fetches accountIds fetches => cases fetches <;> exact outside.elim

/-- While no call is under way the warm-up can be run again exactly if no `initialize` has
reached Redis and every warm-up that has begun got all it asked for. -/
theorem warm_up_again_iff (calls : ι → WarmingOperation) (fresh : Fresh first)
    (run : Interleaves Warming.serves (fun thread => (calls thread).program batchSize) first history threads last)
    (outside : ∀ thread, NotInProgress (threads thread)) :
    (last.cache.warmingState.isWarming = false ∧ last.cache.warmingState.accountsToWarm = []) ↔
      Clean batchSize calls history := by
  obtain ⟨phase, stages, governed⟩ := run_governed fresh run
  obtain ⟨_, settled⟩ := governed.quiet fun thread => phase_out (stages thread) (outside thread)
  rw [← settled]
  exact ⟨fun both => both.1, fun idle => ⟨idle, governed.empty idle⟩⟩

section Alone
variable {ι : Type} (thread : ι) {world before after : Warming ι} (redis : Cache.Redis)

private theorem serves_at_once {β : Type} {op : WarmingCall β} {reply : β}
    (served : Warming.step thread before op reply after) :
    Warming.serves thread before op reply after :=
  ⟨before.now, le_rfl, served⟩

/-- By itself each call does what the operation of the sequential cache does. -/
theorem initialize_alone (free : world.holder = none) :
    Runs (Warming.serves thread) world initializeProgram (world.cache.initializeService redis).1
      { world with cache := (world.cache.initializeService redis).2 } := by
  rw [initializeProgram_eq, Cache.initializeService]
  cases found : world.cache.warmingState.isWarming with
  | true =>
    exact .request true (serves_at_once thread ⟨free, found.symm, rfl⟩) .pure
  | false =>
    refine .request false (serves_at_once thread ⟨free, found.symm, rfl⟩) ?_
    cases outcome : redis 0 with
    | error error =>
      refine .request (.error error) (serves_at_once thread rfl) (.request () (serves_at_once thread rfl) ?_)
      rw [← free]
      exact .pure
    | ok _ =>
      refine .request (.ok ()) (serves_at_once thread rfl) (.request (.ok ()) (serves_at_once thread rfl)
        (.request () (serves_at_once thread rfl) ?_))
      rw [Warming.setState, ← free]
      exact .pure

private theorem warmEach_alone (sharded : world.cache.accounts.config.shardCount ≠ 0) (data : Uuid → WarmingData)
    (chunk : List Uuid) :
    Runs (Warming.serves thread) world (warmEach (chunk.zip (chunk.map data))) (.ok ())
      { world with cache := chunk.foldl (fun warmed accountId =>
          warmed.warm world.now accountId (data accountId).account (data accountId).events) world.cache } := by
  induction chunk generalizing world with
  | nil => exact .pure
  | cons accountId chunk ih =>
    have warmed : Warming.step thread world (.warm accountId (data accountId)) (.ok ()) { world with
        cache := world.cache.warm world.now accountId (data accountId).account (data accountId).events } := by
      rw [Warming.step, if_neg fun unsharded => sharded unsharded.1]
      exact ⟨rfl, rfl⟩
    exact .request (.ok ()) (serves_at_once thread warmed) (ih (by rwa [warm_config]))

private theorem warmChunks_alone (sharded : world.cache.accounts.config.shardCount ≠ 0) (call : Nat)
    (chunks : List (List Uuid)) :
    Runs (Warming.serves thread) world (warmChunksProgram chunks)
      (world.cache.warmChunks world.now redis call chunks).1
      { world with cache := (world.cache.warmChunks world.now redis call chunks).2 } := by
  induction chunks generalizing world call with
  | nil => exact .pure
  | cons chunk chunks ih =>
    rw [Cache.warmChunks]
    cases outcome : redis call with
    | error error => exact .request (.error error) (serves_at_once thread ⟨rfl, nofun⟩) .pure
    | ok _ =>
      have answered : Warming.step thread world (.query chunk) (.ok (chunk.map fun accountId =>
          (⟨world.cache.accounts.redisGet world.now accountId, world.cache.events.redisGet world.now accountId⟩ :
            WarmingData))) world := by
        refine ⟨rfl, ?_⟩
        intro results same
        exact (Except.ok.inj same).symm
      refine .request _ (serves_at_once thread answered) ?_
      refine (warmEach_alone thread sharded _ chunk).bind (ih ?_ (call + 1))
      rwa [warms_config]

theorem warmup_alone (sharded : world.cache.accounts.config.shardCount ≠ 0) (free : world.holder = none)
    (accountIds : List Uuid) :
    Runs (Warming.serves thread) world (warmupCacheProgram world.cache.warmupBatchSize accountIds)
      (world.cache.warmupCache world.now redis accountIds).1
      { world with cache := (world.cache.warmupCache world.now redis accountIds).2 } := by
  rw [warmupCacheProgram_eq, Cache.warmupCache]
  cases found : world.cache.warmingState.isWarming with
  | true => exact .request true (serves_at_once thread ⟨free, found.symm, rfl⟩) .pure
  | false =>
    refine .request false (serves_at_once thread ⟨free, found.symm, rfl⟩) ?_
    cases outcome : redis 0 with
    | error error => exact .request (.error error) (serves_at_once thread rfl) .pure
    | ok _ =>
      refine .request (.ok ()) (serves_at_once thread rfl) ?_
      by_cases empty : world.cache.warmupBatchSize = 0
      · rw [connected, fetchProgram, if_pos empty]
        simp only [if_pos empty]
        exact .pure
      · rw [connected, fetchProgram, if_neg empty]
        simp only [if_neg empty]
        have read := @warmChunks_alone ι thread (world.setState
          { world.cache.warmingState with isWarming := true, accountsToWarm := accountIds }) redis sharded 1
          (accountIds.toChunks world.cache.warmupBatchSize)
        unfold Warming.setState at read ⊢
        dsimp only at read ⊢
        generalize Cache.warmChunks world.now redis 1 _ _ = warmed at read ⊢
        obtain ⟨result, warmed⟩ := warmed
        cases result with
        | error error => exact read.bind .pure
        | ok _ => exact read.bind (.request () (serves_at_once thread ⟨free, rfl⟩) .pure)

end Alone

section Samples

private abbrev Sole (first : Warming Unit) (call : WarmingOperation) :=
  Interleaves (fun (thread : Unit) => Warming.serves thread) (fun _ => call.program 100) first

private def kept : Account := Sample.account ⟨7⟩ 5

private def stocked : Warming Unit :=
  { cache.accounts.redis := fun id => if id = ⟨7⟩ then some ⟨some kept, 1000000000⟩ else none
    cache.events.redis := fun id => if id = ⟨7⟩ then some ⟨some [(1, .accountCreated ⟨7⟩ "" 5)], 1000000000⟩ else none }

theorem warm_up_again_once : ∃ history threads last, Sole stocked (.warmupCache [⟨7⟩, ⟨8⟩]) history threads last ∧
    (last.cache.accounts.entry ⟨7⟩).map CacheEntry.value = some kept ∧ last.cache.accounts.entry ⟨8⟩ = none ∧
    last.cache.warmingState.isWarming = false ∧ last.cache.warmingState.accountsToWarm = [] := by
  have started : Sole stocked (.warmupCache [⟨7⟩, ⟨8⟩]) _ _ _ :=
    .serve () false .start (warmupCacheProgram_eq [⟨7⟩, ⟨8⟩]) (serves_at_once () ⟨rfl, rfl, rfl⟩)
  have reached := started.serve () (.ok ()) rfl (serves_at_once () rfl)
  have read := reached.serve () (.ok _) rfl (serves_at_once () ⟨rfl, fun _ same => (Except.ok.inj same).symm⟩)
  have warmed := read.serve () (.ok ()) rfl (serves_at_once () ⟨rfl, rfl⟩)
  have skipped := warmed.serve () (.ok ()) rfl (serves_at_once () ⟨rfl, rfl⟩)
  have finished := skipped.serve () () rfl (serves_at_once () ⟨rfl, rfl⟩)
  refine ⟨_, _, _, finished, rfl, rfl, (warm_up_again_iff _ ⟨rfl, rfl, rfl⟩ finished fun _ => trivial).mpr ?_⟩
  simp only [clean_append]
  refine ⟨⟨⟨⟨⟨⟨?_, trivial⟩, rfl, by decide⟩, _, rfl⟩, ?_⟩, ?_⟩, trivial⟩
  · intro entry impossible
    cases impossible
  · intro unsharded
    cases unsharded
  · intro unsharded
    cases unsharded

/-- One `initialize` that succeeds, and the flag stays set. -/
theorem initialize_leaves_warming : ∃ history threads last, Sole {} .initializeService history threads last ∧
    (∀ thread, NotInProgress (threads thread)) ∧ last.cache.warmingState.isWarming = true := by
  have locked : Sole {} .initializeService _ _ _ :=
    .serve () false .start initializeProgram_eq (serves_at_once () ⟨rfl, rfl, rfl⟩)
  have reached := locked.serve () (.ok ()) rfl (serves_at_once () rfl)
  have tested := reached.serve () (.ok ()) rfl (serves_at_once () rfl)
  have marked := tested.serve () () rfl (serves_at_once () rfl)
  exact ⟨_, _, _, marked, fun _ => trivial, rfl⟩

end Samples
end BankingEs.Proofs.WarmUp
