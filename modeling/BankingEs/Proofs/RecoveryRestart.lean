import BankingEs.Async.Failing
import BankingEs.Kafka.RecoveryState

/-! Whether recovery can be started again. A call that finds the flag set returns at once, so
that the first call which leaves it set decides: one through the trait, or one to which a
store, the queue or the last retry of a cache update gives an answer that it cannot handle. -/

namespace BankingEs.Proofs.RecoveryRestart
open Async KafkaRecovery RecoveryState

variable {Value : Type} {codec : Codec Value}

/-- The answers that `perform_recovery` returns as errors. -/
def Harmful (codec : Codec Value) : {β : Type} → RecoveryRequest Value β → β → Prop
  | _, .inl .getAllAccounts, reply => ∃ error, reply = .error error
  | _, .inl (.getEvents _), reply => ∀ stored, reply = .ok stored →
    ∃ event ∈ stored, ∃ error, codec.fromValue event.eventData = .error error
  | _, .inl (.sendToDlq _ _), reply => ∃ error, reply = .error error
  | _, .inl (.retryCacheUpdate remaining _), reply => remaining = 0 ∧ ∃ error, reply = .error error
  | _, _, _ => False

/-- The requests between the first section of a call and its last. -/
def Inner : {β : Type} → RecoveryRequest Value β → Prop
  | _, .inl .begin => False
  | _, .inl .finish => False
  | _, _ => True

section Programs
variable {accountId : Uuid} {account : Account} {stored : List (Event Value)}

private theorem applyStored_error_iff {ε : Type} {failed : String → ε} :
    (∃ error, account.applyStored codec failed stored = .error error) ↔
      ∃ event ∈ stored, ∃ error, codec.fromValue event.eventData = .error error := by
  induction stored generalizing account with
  | nil => simp [Account.applyStored, Account.applyStored?]
  | cons event stored ih =>
    rw [List.exists_mem_cons_iff]
    cases decoded : codec.fromValue event.eventData with
    | error error => exact iff_of_true ⟨_, Account.applyStored_error account decoded⟩ (.inl ⟨error, rfl⟩)
    | ok accountEvent =>
      rw [Account.applyStored_ok account decoded, ih]
      simp

private theorem reconstruct_error_iff : (∃ error, reconstruct codec accountId stored = .error error) ↔
    ∃ event ∈ stored, ∃ error, codec.fromValue event.eventData = .error error := by
  rw [reconstruct, applyStored_error_iff]

private theorem sendToDlq_fails (batch : EventBatch) (reason : String) :
    (Program.send (.inl (.sendToDlq batch reason)) : Program (RecoveryRequest Value) (Except String Unit)).FailsOn
      (Harmful codec) :=
  .send fun _ => Iff.rfl

private theorem retryCacheUpdates_fails (remaining : Nat) :
    (retryCacheUpdates account remaining).FailsOn (Harmful codec) := by
  induction remaining with
  | zero => exact ⟨(), rfl⟩
  | succ remaining ih =>
    intro reply
    cases reply with
    | ok _ => exact ⟨nofun, fun _ => ⟨(), rfl⟩⟩
    | error error =>
      by_cases last : remaining = 0
      · subst last
        exact ⟨fun _ => ⟨error, rfl⟩, fun fine => absurd ⟨rfl, error, rfl⟩ fine⟩
      · refine ⟨fun harm => absurd harm.1 last, fun _ => ?_⟩
        change Program.FailsOn _ (if remaining = 0 then _ else _)
        rw [if_neg last]
        exact fun _ => ⟨False.elim, fun _ => ih⟩

/-- The calls of the steps for one account are none of those that recovery fails at. -/
theorem embedded_harmless {α : Type} (program : Program (SystemCall Value) α) :
    (program.embed (.inr : {β : Type} → SystemCall Value β → RecoveryRequest Value β)).Uses
      fun op => ∀ reply, ¬ Harmful codec op reply :=
  .embed (fun _ _ => id) program

private theorem recoverSteps_fails : (recoverSteps codec account).FailsOn (Harmful codec) := by
  refine .after (embedded_harmless _) fun verified => ?_
  cases verified with
  | error error => exact sendToDlq_fails _ _
  | ok _ =>
    refine .after (embedded_harmless _) fun replayed => ?_
    cases replayed with
    | error error => exact sendToDlq_fails _ _
    | ok _ =>
      refine .after (embedded_harmless _) fun updated => ?_
      cases updated with
      | error error => exact retryCacheUpdates_fails maxRetries
      | ok _ => exact fun _ => ⟨False.elim, fun _ => ⟨(), rfl⟩⟩

private theorem recoverAccount_fails (projection : AccountProjection) :
    (recoverAccount codec projection).FailsOn (Harmful codec) := by
  refine fun _ => ⟨False.elim, fun _ => ?_⟩
  intro reply
  cases reply with
  | error error =>
    exact ⟨fun _ => ⟨error.display, rfl⟩, fun fine => absurd (fun _ => nofun) fine⟩
  | ok stored =>
    dsimp only [Program.bind]
    have harmful : Harmful codec (.inl (.getEvents projection.id)) (.ok stored) ↔
        ∃ error, reconstruct codec projection.id stored = .error error := by
      rw [reconstruct_error_iff]
      exact ⟨fun harm => harm stored rfl, fun undecodable other same => by cases same; exact undecodable⟩
    rw [harmful]
    cases reconstruct codec projection.id stored with
    | error error => exact ⟨fun _ => ⟨error, rfl⟩, fun fine => absurd ⟨error, rfl⟩ fine⟩
    | ok account => exact ⟨nofun, fun _ => recoverSteps_fails⟩

private theorem performRecovery_fails : (performRecovery codec).FailsOn (Harmful codec) :=
  .andThen (.send fun _ => Iff.rfl) (.forEach recoverAccount_fails)

private theorem retryCacheUpdates_inner (remaining : Nat) :
    (retryCacheUpdates account remaining : Program (RecoveryRequest Value) (Except String Unit)).Uses Inner := by
  induction remaining with
  | zero => trivial
  | succ remaining ih =>
    refine ⟨trivial, fun reply => ?_⟩
    cases reply with
    | ok _ => trivial
    | error error =>
      change Program.Uses _ (if remaining = 0 then _ else _)
      split
      next => trivial
      next => exact ⟨trivial, fun _ => ih⟩

private theorem recoverSteps_inner : (recoverSteps codec account).Uses Inner := by
  have embedded {α : Type} (program : Program (SystemCall Value) α) :
      (program.embed (.inr : {β : Type} → SystemCall Value β → RecoveryRequest Value β)).Uses Inner :=
    .embed (fun _ => trivial) program
  refine .bind (embedded _) fun verified => ?_
  cases verified with
  | error error => exact ⟨trivial, fun _ => trivial⟩
  | ok _ =>
    refine .bind (embedded _) fun replayed => ?_
    cases replayed with
    | error error => exact ⟨trivial, fun _ => trivial⟩
    | ok _ =>
      refine .bind (embedded _) fun updated => ?_
      cases updated with
      | error error => exact retryCacheUpdates_inner maxRetries
      | ok _ => exact ⟨trivial, fun _ => trivial⟩

private theorem performRecovery_inner : (performRecovery codec).Uses Inner := by
  refine .andThen ⟨trivial, fun _ => trivial⟩ (.forEach fun projection => ?_)
  refine ⟨trivial, fun _ => ⟨trivial, fun reply => ?_⟩⟩
  cases reply with
  | error error => trivial
  | ok stored =>
    dsimp only [Program.bind]
    cases reconstruct codec projection.id stored with
    | error error => trivial
    | ok account => exact recoverSteps_inner

end Programs

variable {ι : Type} {calls : ι → RecoveryStart} {before after state : RecoveryState} {thread : ι}

/-- Outside of a recovery, in one that will clear the state, or in one that will not. -/
inductive Phase where
  | out
  | works
  | stays

inductive Stage (codec : Codec Value) :
    RecoveryStart → Phase → Program (RecoveryRequest Value) (Except String Unit) → Prop where
  | starts (start : RecoveryStart) : Stage codec start .out (start.program codec)
  | returned (start : RecoveryStart) (result : Except String Unit) : Stage codec start .out (.pure result)
  | works {program : Program (RecoveryRequest Value) (Except String Unit)} (fails : program.FailsOn (Harmful codec))
      (inner : program.Uses Inner) : Stage codec .inherent .works (program.andThen fun _ => finishRecovery)
  | stays {program : Program (RecoveryRequest Value) (Except String Unit)} (inner : program.Uses Inner) :
      Stage codec .viaTrait .stays program

/-- The answer lets the state be cleared: recovery gets over it, and a recovery that begins
is not one of the trait. -/
def Harmless (codec : Codec Value) (calls : ι → RecoveryStart) : Served ι (RecoveryRequest Value) RecoveryState → Prop
  | ⟨thread, .inl .begin, recovering, _⟩ => recovering = false → calls thread = .inherent
  | ⟨_, op, reply, _⟩ => ¬ Harmful codec op reply

inductive Move (before after : RecoveryState) (harmless : Prop) : Phase → Phase → Prop where
  | skips (same : after = before) (fine : harmless) : Move before after harmless .out .out
  | begins (free : before.isRecovering = false) (set : after.isRecovering = true) (fine : harmless) :
      Move before after harmless .out .works
  | usurps (free : before.isRecovering = false) (set : after.isRecovering = true) (harm : ¬ harmless) :
      Move before after harmless .out .stays
  | works (kept : after.isRecovering = before.isRecovering) (fine : harmless) : Move before after harmless .works .works
  | fails (kept : after.isRecovering = before.isRecovering) (harm : ¬ harmless) : Move before after harmless .works .out
  | finishes (idle : after.Idle) (fine : harmless) : Move before after harmless .works .out
  | stays (kept : after.isRecovering = before.isRecovering) : Move before after harmless .stays .stays

private theorem inner_keeps {β : Type} {op : RecoveryRequest Value β} {reply : β} (inner : Inner op)
    (served : RecoveryState.serves before op reply after) : after.isRecovering = before.isRecovering := by
  rcases op with op | op
  · cases op with
    | begin | finish => exact inner.elim
    | push accountId | retain accountId | getAllAccounts | getEvents accountId | sendToDlq batch reason
    | retryCacheUpdate remaining account =>
      obtain rfl := served
      rfl
  · obtain rfl := served
    rfl

private theorem inner_harmless {β : Type} {op : RecoveryRequest Value β} {reply : β} (inner : Inner op) :
    Harmless codec calls ⟨thread, op, reply, after⟩ ↔ ¬ Harmful codec op reply := by
  rcases op with op | op
  · cases op with
    | begin => exact inner.elim
    | finish | push accountId | retain accountId | getAllAccounts | getEvents accountId | sendToDlq batch reason
    | retryCacheUpdate remaining account => rfl
  · rfl

section Moves
variable {β : Type} {op : RecoveryRequest Value β} {resume : β → Program (RecoveryRequest Value) (Except String Unit)}
  {reply : β}

def rest (codec : Codec Value) : RecoveryStart → Program (RecoveryRequest Value) (Except String Unit)
  | .inherent => (performRecovery codec).andThen fun _ => finishRecovery
  | .viaTrait => performRecovery codec

private theorem program_eq (start : RecoveryStart) : start.program codec = .request (.inl .begin) fun recovering =>
    if recovering then .pure (.ok ()) else rest codec start := by
  cases start <;> rfl

private theorem begin_moves {start : RecoveryStart} (same : calls thread = start)
    (whole : start.program codec = .request op resume)
    (served : RecoveryState.serves before op reply after) :
    ∃ next, Stage codec start next (resume reply) ∧
      Move before after (Harmless codec calls ⟨thread, op, reply, after⟩) .out next := by
  rw [program_eq] at whole
  cases whole
  obtain ⟨found, served⟩ := served
  cases reply with
  | true => exact ⟨.out, .returned _ _, .skips served nofun⟩
  | false =>
    obtain ⟨now, rfl⟩ := served
    cases start with
    | inherent =>
      exact ⟨.works, .works performRecovery_fails performRecovery_inner, .begins found.symm rfl fun _ => same⟩
    | viaTrait =>
      refine ⟨.stays, .stays performRecovery_inner, .usurps found.symm rfl fun fine => ?_⟩
      cases same.symm.trans (fine rfl)

private theorem work_moves {program : Program (RecoveryRequest Value) (Except String Unit)}
    (fails : program.FailsOn (Harmful codec)) (inner : program.Uses Inner)
    (whole : (program.andThen fun _ => finishRecovery) = .request op resume)
    (served : RecoveryState.serves before op reply after) :
    ∃ next, Stage codec .inherent next (resume reply) ∧
      Move before after (Harmless codec calls ⟨thread, op, reply, after⟩) .works next := by
  cases program with
  | pure result =>
    obtain ⟨value, rfl⟩ := fails
    cases whole
    obtain rfl := served
    exact ⟨.out, .returned _ _, .finishes ⟨rfl, rfl, rfl⟩ id⟩
  | request op resume =>
    cases whole
    have kept := inner_keeps inner.1 served
    by_cases harm : Harmful codec op reply
    · obtain ⟨error, stops⟩ := (fails reply).1 harm
      refine ⟨.out, ?_, .fails kept fun fine => (inner_harmless inner.1).mp fine harm⟩
      change Stage codec .inherent .out ((resume reply).andThen _)
      rw [stops]
      exact .returned _ _
    · exact ⟨.works, .works ((fails reply).2 harm) (inner.2 reply), .works kept ((inner_harmless inner.1).mpr harm)⟩

private theorem stage_moves {phase : Phase} (stage : Stage codec (calls thread) phase (.request op resume))
    (served : RecoveryState.serves before op reply after) :
    ∃ next, Stage codec (calls thread) next (resume reply) ∧
      Move before after (Harmless codec calls ⟨thread, op, reply, after⟩) phase next := by
  generalize same : calls thread = start at stage
  generalize whole : Program.request op resume = program at stage
  cases stage with
  | starts start => exact begin_moves same whole.symm served
  | returned start result => cases whole
  | works fails inner => exact work_moves fails inner whole.symm served
  | stays inner =>
    subst whole
    exact ⟨.stays, .stays (inner.2 reply), .stays (inner_keeps inner.1 served)⟩

end Moves

/-- At most one call works, and it has done no harm; if none does, the state is idle exactly
if no harm was done. -/
structure Governed (phase : ι → Phase) (clean : Prop) (state : RecoveryState) : Prop where
  alone : ∀ thread other, phase thread = .works → phase other = .works → other = thread
  works : ∀ thread, phase thread = .works → state.isRecovering = true ∧ clean
  stays : ∀ thread, phase thread = .stays → state.isRecovering = true ∧ ¬ clean
  quiet : (∀ thread, phase thread ≠ .works) → (clean → state.Idle) ∧ (¬ clean → state.isRecovering = true)

variable {phase : ι → Phase} {clean harmless : Prop} {next : Phase}

private theorem Governed.free (governed : Governed phase clean state) (free : state.isRecovering = false) :
    (∀ thread, phase thread = .out) ∧ clean := by
  have out : ∀ thread, phase thread = .out := by
    intro thread
    cases here : phase thread with
    | out => rfl
    | works => cases free.symm.trans (governed.works thread here).1
    | stays => cases free.symm.trans (governed.stays thread here).1
  refine ⟨out, ?_⟩
  by_contra harmed
  have busy := (governed.quiet fun thread works => by cases (out thread).symm.trans works).2 harmed
  cases free.symm.trans busy

private theorem Governed.idle (out : ∀ thread, phase thread = .out) (idle : state.Idle) (fine : clean) :
    Governed phase clean state := by
  refine ⟨?_, ?_, ?_, fun _ => ⟨fun _ => idle, fun harmed => absurd fine harmed⟩⟩
  · intro thread other works
    cases (out thread).symm.trans works
  · intro thread works
    cases (out thread).symm.trans works
  · intro thread stays
    cases (out thread).symm.trans stays

private theorem Governed.working (here : phase thread = .works) (others : ∀ other ≠ thread, phase other = .out)
    (set : state.isRecovering = true) (fine : clean) : Governed phase clean state := by
  have only {other : ι} (busy : phase other ≠ .out) : other = thread := by
    by_contra different
    exact busy (others other different)
  refine ⟨?_, fun _ _ => ⟨set, fine⟩, ?_, fun none_ => absurd here (none_ thread)⟩
  · intro first second one two
    rw [only (by simp [one] : phase first ≠ .out), only (by simp [two] : phase second ≠ .out)]
  · intro other stays
    obtain rfl := only (by simp [stays] : phase other ≠ .out)
    cases here.symm.trans stays

private theorem Governed.stuck (none_ : ∀ thread, phase thread ≠ .works) (set : state.isRecovering = true)
    (harmed : ¬ clean) :
    Governed phase clean state :=
  ⟨fun thread _ works => absurd works (none_ thread), fun thread works => absurd works (none_ thread),
    fun _ _ => ⟨set, harmed⟩, fun _ => ⟨fun fine => absurd fine harmed, fun _ => set⟩⟩

private theorem Governed.others (governed : Governed phase clean state) (here : phase thread = .works) (other : ι)
    (different : other ≠ thread) : phase other = .out := by
  cases there : phase other with
  | out => rfl
  | works => exact absurd (governed.alone thread other here there) different
  | stays => exact absurd (governed.works thread here).2 (governed.stays other there).2

variable [DecidableEq ι]

private theorem Governed.move (governed : Governed phase clean before)
    (move : Move before after harmless (phase thread) next) :
    Governed (Function.update phase thread next) (clean ∧ harmless) after := by
  generalize here : phase thread = current at move
  have others {next : Phase} (out : ∀ other ≠ thread, phase other = .out) :
      ∀ other ≠ thread, Function.update phase thread next other = .out := by
    intro other different
    rw [Function.update_of_ne different]
    exact out other different
  have none_ {next : Phase} (out : ∀ other ≠ thread, phase other = .out) (rests : next ≠ .works) (other : ι) :
      Function.update phase thread next other ≠ .works := by
    by_cases same : other = thread
    · rw [same, Function.update_self]
      exact rests
    · rw [others out other same]
      nofun
  cases move with
  | skips same fine =>
    subst same
    rw [← here, Function.update_eq_self, and_iff_left fine]
    exact governed
  | begins free set fine =>
    obtain ⟨out, clean⟩ := governed.free free
    exact .working (Function.update_self ..) (others fun other _ => out other) set ⟨clean, fine⟩
  | usurps free set harm =>
    obtain ⟨out, clean⟩ := governed.free free
    exact .stuck (none_ (fun other _ => out other) nofun) set fun fine => harm fine.2
  | works kept fine =>
    obtain ⟨set, clean⟩ := governed.works thread here
    exact .working (Function.update_self ..) (others (governed.others here)) (kept.trans set) ⟨clean, fine⟩
  | fails kept harm =>
    obtain ⟨set, clean⟩ := governed.works thread here
    exact .stuck (none_ (governed.others here) nofun) (kept.trans set) fun fine => harm fine.2
  | finishes idle fine =>
    refine .idle ?_ idle ⟨(governed.works thread here).2, fine⟩
    intro other
    by_cases same : other = thread
    · rw [same, Function.update_self]
    · exact others (governed.others here) other same
  | stays kept =>
    obtain ⟨set, harmed⟩ := governed.stays thread here
    rw [← here, Function.update_eq_self]
    refine .stuck ?_ (kept.trans set) fun fine => harmed fine.1
    intro other works
    exact harmed (governed.works other works).2

/-- Every answer so far lets the state be cleared. -/
def Clean (codec : Codec Value) (calls : ι → RecoveryStart)
    (history : List (Served ι (RecoveryRequest Value) RecoveryState)) : Prop :=
  ∀ entry ∈ history, Harmless codec calls entry

def NotInProgress : Program (RecoveryRequest Value) (Except String Unit) → Prop
  | .pure _ => True
  | .request (.inl .begin) _ => True
  | _ => False

variable {history : List (Served ι (RecoveryRequest Value) RecoveryState)}
  {threads : ι → Program (RecoveryRequest Value) (Except String Unit)} {last : RecoveryState}

private theorem run_governed (run : Interleaves (fun _ => RecoveryState.serves) (fun thread => (calls thread).program codec) {}
      history threads last) :
    ∃ phase, (∀ thread, Stage codec (calls thread) (phase thread) (threads thread)) ∧
      Governed phase (Clean codec calls history) last := by
  refine run.phases (fun thread => Stage codec (calls thread))
    (fun history phase state => Governed phase (Clean codec calls history) state) ?_ (fun _ => .out)
    (fun thread => .starts (calls thread)) (.idle (fun _ => rfl) ⟨rfl, rfl, rfl⟩ fun _ => nofun)
  intro history phase before thread β op resume reply after stage served governed
  obtain ⟨next, resumed, move⟩ := stage_moves stage served
  refine ⟨next, resumed, ?_⟩
  have grown : Clean codec calls (history ++ [⟨thread, op, reply, after⟩]) ↔
      Clean codec calls history ∧ Harmless codec calls ⟨thread, op, reply, after⟩ := by
    simp [Clean, or_imp, forall_and]
  rw [grown]
  exact governed.move move

private theorem working_in_progress {program : Program (RecoveryRequest Value) (Except String Unit)}
    {start : RecoveryStart}
    (stage : Stage codec start .works program) : ¬ NotInProgress program := by
  cases stage with
  | @works program fails inner =>
    cases program with
    | pure result =>
      obtain ⟨value, rfl⟩ := fails
      exact id
    | request op resume =>
      rcases op with op | op
      · cases op with
        | begin | finish => exact inner.1.elim
        | push accountId | retain accountId | getAllAccounts | getEvents accountId | sendToDlq batch reason
        | retryCacheUpdate remaining account => exact id
      · exact id

/-- When no call is in progress, the state is idle exactly if every call that began was the
function itself and was given no answer that it returns as an error. -/
theorem recovery_restart_iff (calls : ι → RecoveryStart)
    (run : Interleaves (fun _ => RecoveryState.serves) (fun thread => (calls thread).program codec) {}
      history threads last) (ended : ∀ thread, NotInProgress (threads thread)) :
    last.Idle ↔ Clean codec calls history := by
  obtain ⟨phase, stages, governed⟩ := run_governed run
  have none_ : ∀ thread, phase thread ≠ .works := by
    intro thread works
    exact working_in_progress (works ▸ stages thread) (ended thread)
  obtain ⟨cleared, set⟩ := governed.quiet none_
  refine ⟨fun idle => ?_, cleared⟩
  by_contra harmed
  cases idle.stopped.symm.trans (set harmed)

section Samples

private abbrev One (start : RecoveryStart) :=
  Interleaves (fun (_ : Unit) => RecoveryState.serves) (fun _ => start.program Codec.plain) {}

private def founded (id : Uuid) : List (Event AccountEvent) := [plainRow id 1 (.accountCreated id "" 5)]

private def founding (id : Uuid) : AccountProjection := Sample.row id 5

/-- The events of the first account are gone when it is checked, and it goes to the dead letter
queue; the copy of the second is updated at the second retry. -/
theorem recovery_restart_once : ∃ history threads last, One .inherent history threads last ∧
    threads () = .pure (.ok ()) ∧ history.length = 17 ∧ last.Idle := by
  have begun : One .inherent _ _ _ := .serve () false .start (program_eq _) ⟨rfl, 0, rfl⟩
  have listed := begun.serve () (.ok [founding ⟨1⟩, founding ⟨2⟩]) rfl rfl
  have pushed := listed.serve () () rfl rfl
  have read := pushed.serve () (.ok (founded ⟨1⟩)) rfl rfl
  have mismatched := read.serve () (.ok []) rfl rfl
  have queued := mismatched.serve () (.ok ()) rfl rfl
  have pushed := queued.serve () () rfl rfl
  have read := pushed.serve () (.ok (founded ⟨2⟩)) rfl rfl
  have verified := read.serve () (.ok (founded ⟨2⟩)) rfl rfl
  have read := verified.serve () (.ok (founded ⟨2⟩)) rfl rfl
  have published := read.serve () (.ok ()) rfl rfl
  have slept := published.serve () () rfl rfl
  have unsent := slept.serve () (.error "down") rfl rfl
  have failed := unsent.serve () (.error "down") rfl rfl
  have slept := failed.serve () () rfl rfl
  have retried := slept.serve () (.ok ()) rfl rfl
  have finished := retried.serve () () rfl rfl
  refine ⟨_, _, _, finished, rfl, rfl, (recovery_restart_iff _ finished fun _ => trivial).mpr ?_⟩
  simp [Clean, Harmless, Harmful, founded, plainRow, Codec.plain]

/-- The trait's function succeeds for no accounts, or the function itself cannot list the
accounts: either call has returned, and recovery is still in progress. -/
theorem recovery_left_in_progress :
    (∃ history threads last, One .viaTrait history threads last ∧ threads () = .pure (.ok ()) ∧
      last.isRecovering = true) ∧
    ∃ history threads last, One .inherent history threads last ∧ threads () = .pure (.error "down") ∧
      last.isRecovering = true := by
  constructor
  · have begun : One .viaTrait _ _ _ := .serve () false .start (program_eq _) ⟨rfl, 0, rfl⟩
    exact ⟨_, _, _, begun.serve () (.ok []) rfl rfl, rfl, rfl⟩
  · have begun : One .inherent _ _ _ := .serve () false .start (program_eq _) ⟨rfl, 0, rfl⟩
    exact ⟨_, _, _, begun.serve () (.error "down") rfl rfl, rfl, rfl⟩

end Samples
end BankingEs.Proofs.RecoveryRestart
