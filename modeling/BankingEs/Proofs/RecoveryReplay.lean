import Mathlib.Data.List.Dedup
import Mathlib.Data.List.SplitBy
import BankingEs.Kafka.Recovery
import BankingEs.Proofs.AccountLog
import BankingEs.Proofs.Pipeline

/-! Recovery and the event processor take the version of a batch for different things.
A batch that recovery tags with the committed version is stored once more. -/

namespace BankingEs.Proofs.RecoveryReplay
open Async AccountRepository BankingEs.Pipeline KafkaEventProcessor KafkaRecoveryStrategies Pipeline

variable {ι Value : Type} {codec : Codec Value} {store : Store ι Value} {env : Environment Value} {caller : ι}
  {before after : BankingEs.Pipeline ι Value} {id : Uuid} {log : List AccountEvent}

section Consuming

/-- What the processor makes of the log of an account when it consumes a batch. -/
def consume (id : Uuid) (log : List AccountEvent) (batch : EventBatch) : List AccountEvent :=
  if batch.accountId = id ∧ batch.version = log.length then log ++ batch.events else log

private theorem length_le_consumed (id : Uuid) (log : List AccountEvent) (batches : List EventBatch) :
    log.length ≤ (batches.foldl (consume id) log).length := by
  induction batches generalizing log with
  | nil => exact le_rfl
  | cons batch batches ih =>
    refine le_trans ?_ (ih _)
    rw [consume]
    split
    next => simp
    next => exact le_rfl

/-- Only a batch under the committed version of the log changes it. -/
theorem consumed_eq_iff (batches : List EventBatch) :
    batches.foldl (consume id) log = log ↔
      ∀ batch ∈ batches, batch.accountId = id → batch.version = log.length → batch.events = [] := by
  induction batches with
  | nil => simp
  | cons batch batches ih =>
    rw [List.foldl_cons, List.forall_mem_cons]
    by_cases accepted : batch.accountId = id ∧ batch.version = log.length
    · rw [consume, if_pos accepted]
      by_cases empty : batch.events = []
      · rw [empty, List.append_nil, ih]
        exact ⟨fun rest => ⟨fun _ _ => rfl, rest⟩, And.right⟩
      · have longer := List.length_pos_of_ne_nil empty
        have bound := length_le_consumed id (log ++ batch.events) batches
        rw [List.length_append] at bound
        refine ⟨fun same => ?_, fun kept => absurd (kept.1 accepted.1 accepted.2) empty⟩
        rw [same] at bound
        omega
    · rw [consume, if_neg accepted, ih]
      exact ⟨fun rest => ⟨fun mine current => absurd ⟨mine, current⟩ accepted, rest⟩, And.right⟩

private theorem exactStore_consumes {before after : World ι Value} {batch : EventBatch}
    {reply : Except EventStoreError Unit}
    (saved : exactStore codec before batch.saveRequest reply after) (logs : Logs codec before.events id log) :
    Logs codec after.events id (consume id log batch) := by
  rw [consume]
  cases saved with
  | stored current holds =>
    by_cases mine : batch.accountId = id
    · subst mine
      have version : batch.version = log.length := current.trans logs.currentVersion
      rw [if_pos ⟨rfl, version⟩]
      rw [EventBatch.saveRequest, version] at holds
      exact logs.append holds
    · rw [if_neg fun accepted => mine accepted.1]
      exact logs.append_other holds mine
  | refused stale =>
    have differs : ¬ (batch.accountId = id ∧ batch.version = log.length) := by
      intro current
      obtain ⟨rfl, version⟩ := current
      exact stale (version.trans logs.currentVersion.symm)
    rwa [if_neg differs]
  | nothing empty =>
    split
    next =>
      have empty : batch.events = [] := empty
      rwa [empty, List.append_nil]
    next => exact logs

/-- The save alone decides, wherever the processor fails after it. -/
theorem processBatch_consumes (batch : EventBatch) (logs : Logs codec before.world.events id log) :
    Returns (serves (exactStore codec) env caller) (fun _ after => Logs codec after.world.events id (consume id log batch))
      (processBatch batch) before := by
  intro reply after served
  obtain ⟨ready, waited, saved⟩ := serves_save served
  have logs : Logs codec ready.events id log := by rwa [waited.events]
  have consumed := exactStore_consumes saved logs
  cases reply with
  | error error => exact consumed
  | ok done =>
    refine Returns.of_uses (fun now : BankingEs.Pipeline ι Value => Logs codec now.world.events id (consume id log batch))
      (cacheBatch_unsaved batch) ?_ consumed
    intro β op before reply after unsaved served logs
    rwa [(serves_unsaved unsaved served).1]

private theorem batches_consumed {batches : List EventBatch} {results : List (Except String Unit)}
    (run : RunsEach (serves (exactStore codec) env caller) before (batches.map processBatch) results after)
    (logs : Logs codec before.world.events id log) : Logs codec after.world.events id (batches.foldl (consume id) log) :=
  run.foldl (fun log now => Logs codec now.world.events id log) (consume id)
    (fun batch _ _ logs => processBatch_consumes batch logs) log logs

end Consuming

/-- Nothing happens but that `batches` are published. -/
structure Publishes (batches : List EventBatch) (before after : BankingEs.Pipeline ι Value) : Prop where
  events : after.world.events = before.world.events
  topic : after.eventsTopic = before.eventsTopic ++ batches
  lastProcessed : after.lastProcessed = before.lastProcessed

namespace Publishes

private theorem of_same (events : after.world.events = before.world.events)
    (topic : after.eventsTopic = before.eventsTopic)
    (lastProcessed : after.lastProcessed = before.lastProcessed) : Publishes [] before after :=
  ⟨events, by rw [topic, List.append_nil], lastProcessed⟩

private theorem trans {first second : List EventBatch} {last : BankingEs.Pipeline ι Value}
    (one : Publishes first before after)
    (two : Publishes second after last) : Publishes (first ++ second) before last :=
  ⟨two.events.trans one.events, by rw [two.topic, one.topic, List.append_assoc],
    two.lastProcessed.trans one.lastProcessed⟩

end Publishes

/-- The program returns `value`, and all that happens is that `batches` are published. -/
def Yields {ε α : Type} (serving : Serves (SystemCall Value) (BankingEs.Pipeline ι Value)) (value : α)
    (batches : List EventBatch) (program : Program (SystemCall Value) (Except ε α))
    (before : BankingEs.Pipeline ι Value) : Prop :=
  Returns serving (fun reply after => reply = .ok value ∧ Publishes batches before after) program before

namespace Yields
variable {ε α β : Type} {serving : Serves (SystemCall Value) (BankingEs.Pipeline ι Value)} {value : α}
  {batches first second : List EventBatch} {program : Program (SystemCall Value) (Except ε α)}

private theorem ok : Yields serving value [] (.pure (.ok value) : Program (SystemCall Value) (Except ε α)) before :=
  ⟨rfl, .of_same rfl rfl rfl⟩

private theorem since (one : Publishes first before after) (yields : Yields serving value second program after) :
    Returns serving (fun reply last => reply = .ok value ∧ Publishes (first ++ second) before last) program after := by
  refine yields.mono ?_
  intro reply last yielded
  obtain ⟨done, two⟩ := yielded
  exact ⟨done, one.trans two⟩

private theorem andThen {result : β} {next : α → Program (SystemCall Value) (Except ε β)}
    (yields : Yields serving value first program before)
    (rest : ∀ middle, Publishes first before middle → Yields serving result second (next value) middle) :
    Yields serving result (first ++ second) (program.andThen next) before :=
  Returns.andThen_ok yields fun middle one => since one (rest middle one)

private theorem send {op : SystemCall Value (Except ε α)}
    (step : ∀ reply after, serving before op reply after → reply = .ok value ∧ Publishes batches before after) :
    Yields serving value batches (.send op) before := step

private theorem awaitCall {display : ε → String} {op : SystemCall Value (Except ε α)}
    (step : ∀ reply after, serving before op reply after → reply = .ok value ∧ Publishes batches before after) :
    Yields serving value batches (awaitCall display op) before := by
  intro reply after served
  obtain ⟨rfl, published⟩ := step reply after served
  exact ⟨rfl, published⟩

private theorem reportStoreError {program : Program (SystemCall Value) (Except EventStoreError α)}
    (yields : Yields serving value batches program before) :
    Yields serving value batches (reportStoreError program) before := by
  refine Returns.bind yields ?_
  intro reply after yielded
  obtain ⟨rfl, published⟩ := yielded
  exact ⟨rfl, published⟩

end Yields

section Publishing
variable (reliable : ¬ env.fails)
include reliable

private theorem reliable_ok {ε α : Type} {reply : Except ε α} {value : α}
    (answer : reply = .ok value ∨ World.Fails env reply) : reply = .ok value :=
  answer.resolve_right fun fails => reliable fails.1

private theorem serves_getEvents {fromVersion : Option Int} {reply : Except EventStoreError (List (Event Value))}
    (served : serves store env caller before (.inl (.getEvents id fromVersion)) reply after) :
    reply = .ok (before.world.events.getEvents id fromVersion) ∧ Publishes [] before after := by
  obtain ⟨ready, passes, world, ⟨answer, rfl⟩, rfl⟩ := served
  have waited := (Footprint.passes_unsaved caller passes).1
  refine ⟨?_, .of_same waited.events rfl rfl⟩
  rw [← waited.events]
  exact reliable_ok reliable answer

private theorem serves_aggregateIds {reply : Except EventStoreError (List Uuid)}
    (served : serves store env caller before (.inr .aggregateIds) reply after) :
    reply = .ok ((before.world.events.map Event.aggregateId).dedup.insertionSort fun first second =>
      first.bits ≤ second.bits) ∧ Publishes [] before after := by
  obtain ⟨ready, passes, answer, rfl⟩ := served
  have waited := (Footprint.passes_unsaved caller passes).1
  refine ⟨?_, .of_same waited.events rfl rfl⟩
  rw [← waited.events]
  exact reliable_ok reliable answer

private theorem serves_lastProcessed {reply : Except String Int}
    (served : serves store env caller before (.inr (.getLastProcessedVersion id)) reply after) :
    reply = .ok (before.lastProcessed id) ∧ Publishes [] before after := by
  obtain ⟨ready, passes, answer, rfl⟩ := served
  exact ⟨reliable_ok reliable answer, .of_same (Footprint.passes_unsaved caller passes).1.events rfl rfl⟩

private theorem serves_sendEventBatch {batch : EventBatch} {reply : Except String Unit}
    (served : serves store env caller before (.inr (.sendEventBatch batch)) reply after) :
    reply = .ok () ∧ Publishes [batch] before after := by
  obtain ⟨ready, passes, ⟨rfl, rfl⟩ | ⟨fails, _⟩⟩ := served
  · exact ⟨rfl, (Footprint.passes_unsaved caller passes).1.events, rfl, rfl⟩
  · exact absurd fails.1 reliable

end Publishing

private theorem serves_sleep {duration : Duration} {reply : Unit}
    (served : serves store env caller before (.inr (.sleep duration)) reply after) : Publishes [] before after := by
  obtain ⟨ready, passes, rfl⟩ := served
  exact .of_same (Footprint.passes_unsaved caller passes).1.events rfl rfl

def single (id : Uuid) (entry : Int × AccountEvent) : EventBatch := ⟨id, [entry.2], entry.1⟩

def collected (id : Uuid) (version : Int) (events : List AccountEvent) : List EventBatch :=
  if events = [] then [] else [⟨id, events, version⟩]

def follows (first second : Int × AccountEvent) : Bool := second.1 = first.1 + 1

def batchOf (id : Uuid) (entries : List (Int × AccountEvent)) : EventBatch :=
  ⟨id, entries.map Prod.snd, (entries.getLast?.map Prod.fst).getD 0⟩

private theorem splitBy_collected {version : Int} {entries : List (Int × AccountEvent)}
    (consecutive : entries.IsChain fun first second => follows first second)
    (last : ∀ entry ∈ entries.getLast?, entry.1 = version) :
    (entries.splitBy follows).map (batchOf id) = collected id version (entries.map Prod.snd) := by
  by_cases empty : entries = []
  · subst empty
    rfl
  · have tag : batchOf id entries = ⟨id, entries.map Prod.snd, version⟩ := by
      have found := List.getLast?_eq_some_getLast empty
      rw [batchOf, found, ← last _ found]
      rfl
    rw [List.splitBy_of_isChain empty consecutive, List.map_singleton, tag, collected,
      if_neg (List.map_eq_nil_iff.not.mpr empty)]

private theorem numbered_snd (log : List AccountEvent) : (numbered log).map Prod.snd = log := by
  simp [numbered, List.mapIdx_eq_zipIdx_map, Function.comp_def]

private theorem numbered_concat (log : List AccountEvent) (event : AccountEvent) :
    numbered (log ++ [event]) = numbered log ++ [((log.length : Int) + 1, event)] := by
  simp [numbered]

private theorem numbered_last (log : List AccountEvent) : ∀ entry ∈ (numbered log).getLast?, entry.1 = log.length := by
  induction log using List.reverseRecOn with
  | nil => simp [numbered]
  | append_singleton log event ih =>
    rw [numbered_concat]
    simp

private theorem numbered_consecutive (log : List AccountEvent) :
    (numbered log).IsChain fun first second => follows first second := by
  induction log using List.reverseRecOn with
  | nil => exact List.isChain_nil
  | append_singleton log event ih =>
    rw [numbered_concat]
    apply List.isChain_append.mpr
    refine ⟨ih, List.isChain_singleton _, ?_⟩
    intro last found head same
    cases same
    rw [follows, numbered_last log last found]
    exact decide_eq_true rfl

private theorem splitBy_numbered (log : List AccountEvent) :
    ((numbered log).splitBy follows).map (batchOf id) = collected id log.length log := by
  rw [splitBy_collected (numbered_consecutive log) (numbered_last log), numbered_snd]

/-- The loop over the accounts publishes what its body publishes for each. -/
theorem forEach_publishes {body : Account → Program (SystemCall Value) (Except String Unit)}
    {batches : Uuid → List EventBatch} {table : Table Value} {lastProcessed : Uuid → Int}
    (each : ∀ (account : Account) (before : BankingEs.Pipeline ι Value), before.world.events = table →
      before.lastProcessed = lastProcessed →
      Yields (serves store env caller) () (batches account.id) (body account) before)
    (accounts : List Account) (events : before.world.events = table) (processed : before.lastProcessed = lastProcessed) :
    Yields (serves store env caller) () (accounts.flatMap fun account => batches account.id)
      (Program.forEach body accounts) before := by
  induction accounts generalizing before with
  | nil => exact .ok
  | cons account accounts ih =>
    refine (each account before events processed).andThen ?_
    intro middle one
    exact ih (one.events.trans events) (one.lastProcessed.trans processed)

section Programs
variable (reliable : ¬ env.fails)
include reliable

private theorem replayEvents_publishes {rows : Table Value} {entries : List (Int × AccountEvent)}
    (decodes : Decodes codec rows entries) :
    Yields (serves store env caller) () (entries.map (single id)) (replayEvents codec id rows) before := by
  induction rows generalizing entries before with
  | nil =>
    obtain rfl := List.map_eq_nil_iff.mp decodes.symm
    exact .ok
  | cons row rows ih =>
    cases entries with
    | nil => cases decodes
    | cons entry entries =>
      obtain ⟨first, rest⟩ := List.cons.inj decodes
      obtain ⟨version, decoded⟩ := Prod.mk.inj first
      simp only [replayEvents, decoded, version]
      refine Yields.andThen (.awaitCall fun _ _ served => serves_sendEventBatch reliable served) ?_
      intro sent _ _ slept served
      exact (ih rest).since (serves_sleep served)

private theorem sendCollected_publishes (version : Int) (events : List AccountEvent) :
    Yields (serves store env caller) () (collected id version events) (sendCollected id events version) before := by
  rw [sendCollected, collected]
  split
  next => exact .ok
  next => exact .awaitCall fun _ _ served => serves_sendEventBatch reliable served

/-- What is collected is sent at each gap and at the end: the events are cut into the longest
stretches of consecutive versions. -/
theorem selectEvents_publishes {rows : Table Value} {run entries : List (Int × AccountEvent)} {version : Int}
    (decodes : Decodes codec rows entries) (consecutive : run.IsChain fun first second => follows first second)
    (last : ∀ entry ∈ run.getLast?, entry.1 = version) :
    Yields (serves store env caller) () (((run ++ entries).splitBy follows).map (batchOf id))
      (selectEvents codec id version (run.map Prod.snd) rows) before := by
  induction rows generalizing run entries version before with
  | nil =>
    obtain rfl := List.map_eq_nil_iff.mp decodes.symm
    rw [List.append_nil, splitBy_collected consecutive last]
    exact sendCollected_publishes reliable version (run.map Prod.snd)
  | cons row rows ih =>
    cases entries with
    | nil => cases decodes
    | cons entry entries =>
      obtain ⟨first, rest⟩ := List.cons.inj decodes
      obtain ⟨number, decoded⟩ := Prod.mk.inj first
      simp only [selectEvents, decoded, number]
      split
      next gap =>
        have apart : ∀ entry' ∈ run.getLast?, follows entry' entry = false := by
          intro entry' found
          rw [follows, last entry' found]
          exact decide_eq_false gap
        rw [List.splitBy_append_cons entries apart, List.map_append, splitBy_collected consecutive last]
        refine (sendCollected_publishes reliable version (run.map Prod.snd)).andThen ?_
        intro middle _
        exact @ih middle [entry] entries entry.1 rest (List.isChain_singleton _) (by simp)
      next joined =>
        have joined : entry.1 = version + 1 := not_not.mp joined
        have longer : (run ++ [entry]).IsChain fun first second => follows first second := by
          apply List.isChain_append.mpr
          refine ⟨consecutive, List.isChain_singleton _, ?_⟩
          intro entry' found head same
          cases same
          rw [follows, last entry' found]
          exact decide_eq_true joined
        have tail := @ih before (run ++ [entry]) entries entry.1 rest longer (by simp)
        rwa [List.map_append, List.append_assoc] at tail

private theorem getAccount_returns (reads : Lists codec before.world.events id log) :
    Yields (serves store env caller) (known id log) [] (EventStore.getAccount codec id) before := by
  refine Yields.andThen (.send fun _ _ served => serves_getEvents reliable served) ?_
  intro middle _
  unfold Lists at reads
  cases rows : before.world.events.getEvents id none with
  | nil =>
    rw [rows] at reads
    obtain rfl := List.map_eq_nil_iff.mp reads.symm
    exact .ok
  | cons row stored =>
    rw [rows] at reads
    have nonempty : log ≠ [] := by
      rintro rfl
      cases reads
    dsimp only
    rw [Account.applyStored_decoded _ reads, known, if_neg nonempty]
    exact .ok

/-- The accounts that are read back for these ids. -/
def replayed (logs : Uuid → List AccountEvent) (ids : List Uuid) : List Account :=
  ids.flatMap fun id => (known id (logs id)).toList

variable {table : Table Value} {logs : Uuid → List AccountEvent} (reads : ∀ id, Lists codec table id (logs id))
include reads

private theorem getAccounts_returns (ids : List Uuid) (events : before.world.events = table) :
    Yields (serves store env caller) (replayed logs ids) [] (EventStore.getAccounts codec ids) before := by
  induction ids generalizing before with
  | nil => exact .ok
  | cons id ids ih =>
    subst events
    refine (getAccount_returns reliable (reads id)).andThen ?_
    intro middle one
    exact (ih one.events).andThen fun _ _ => .ok

def targets (table : Table Value) : Option Uuid → List Uuid
  | some id => [id]
  | none => (table.map Event.aggregateId).dedup.insertionSort fun first second => first.bits ≤ second.bits

private theorem accountsToReplay_returns (accountId : Option Uuid) (events : before.world.events = table) :
    Returns (serves store env caller)
      (fun reply after => (reply = .ok (replayed logs (targets table accountId)) ∨
        replayed logs (targets table accountId) = [] ∧ ∃ error, reply = .error error) ∧ Publishes [] before after)
      (accountsToReplay codec accountId) before := by
  subst events
  cases accountId with
  | none =>
    have read : Yields (serves store env caller) (replayed logs (targets before.world.events none)) []
        (EventStore.getAllAccounts codec) before := by
      refine Yields.andThen (.send fun _ _ served => serves_aggregateIds reliable served) ?_
      intro middle one
      exact getAccounts_returns reliable reads _ one.events
    exact read.reportStoreError.mono fun _ _ ⟨accounts, published⟩ => ⟨.inl accounts, published⟩
  | some id =>
    refine Returns.andThen_ok (getAccount_returns reliable (reads id)).reportStoreError ?_
    intro after published
    cases found : known id (logs id) with
    | none => exact ⟨.inr ⟨by simp [replayed, targets, found], _, rfl⟩, published⟩
    | some account => exact ⟨.inl (by simp [replayed, targets, found]), published⟩

private theorem strategy_publishes {body : Account → Program (SystemCall Value) (Except String Unit)}
    {lastProcessed : Uuid → Int} (batches : Uuid → List EventBatch) (accountId : Option Uuid)
    (each : ∀ (account : Account) (before : BankingEs.Pipeline ι Value), before.world.events = table →
      before.lastProcessed = lastProcessed →
      Yields (serves store env caller) () (batches account.id) (body account) before)
    (events : before.world.events = table) (processed : before.lastProcessed = lastProcessed) :
    Returns (serves store env caller)
      (fun reply after => (replayed logs (targets table accountId) ≠ [] → reply = .ok ()) ∧
        Publishes ((replayed logs (targets table accountId)).flatMap fun account => batches account.id) before after)
      ((accountsToReplay codec accountId).andThen (Program.forEach body)) before := by
  refine (accountsToReplay_returns reliable reads accountId events).andThen ?_ ?_
  · intro error after read
    obtain ⟨found | ⟨none, _⟩, published⟩ := read
    · cases found
    · rw [none]
      exact ⟨fun impossible => absurd rfl impossible, published⟩
  · intro accounts middle read
    obtain ⟨found | ⟨_, _, failed⟩, one⟩ := read
    · cases found
      have all := forEach_publishes each (replayed logs (targets table accountId)) (one.events.trans events)
        (one.lastProcessed.trans processed)
      exact (all.since one).mono fun _ _ ⟨done, published⟩ => ⟨fun _ => done, published⟩
    · cases failed

omit reads in
private theorem queried_publishes {next : List (Event Value) → Program (SystemCall Value) (Except String Unit)}
    {batches : List EventBatch} {fromVersion : Option Int}
    (publishes : ∀ middle : BankingEs.Pipeline ι Value,
      Yields (serves store env caller) () batches (next (before.world.events.getEvents id fromVersion)) middle) :
    Yields (serves store env caller) () batches
      ((awaitCall EventStoreError.display (.inl (.getEvents id fromVersion))).andThen next) before :=
  Yields.andThen (.awaitCall fun _ _ served => serves_getEvents reliable served) fun middle _ => publishes middle

omit reads in
theorem selectiveReplay_cuts {entries : Uuid → List (Int × AccountEvent)}
    (decodes : ∀ id, Decodes codec (before.world.events.getEvents id none) (entries id)) (accountId : Option Uuid) :
    Returns (serves store env caller)
      (fun reply after =>
        (replayed (fun id => (entries id).map Prod.snd) (targets before.world.events accountId) ≠ [] → reply = .ok ()) ∧
        Publishes ((replayed (fun id => (entries id).map Prod.snd) (targets before.world.events accountId)).flatMap
          fun account => ((entries account.id).splitBy follows).map (batchOf account.id)) before after)
      (selectiveReplay codec accountId) before := by
  refine strategy_publishes reliable (fun id => (decodes id).reads)
    (fun id => ((entries id).splitBy follows).map (batchOf id)) accountId ?_ rfl rfl
  intro account middle events _
  refine queried_publishes reliable fun _ => ?_
  rw [events]
  exact selectEvents_publishes reliable (decodes account.id) List.isChain_nil (by simp)

end Programs

/-- The ways in which recovery publishes events again. -/
inductive Replay where
  | fullReplay (accountId : Option Uuid)
  | incrementalReplay (accountId : Option Uuid)
  | selectiveReplay (accountId : Option Uuid)
  | replayAccountEvents (account : Account)

namespace Replay

def program (codec : Codec Value) : Replay → Program (SystemCall Value) (Except String Unit)
  | fullReplay accountId => KafkaRecoveryStrategies.fullReplay codec accountId
  | incrementalReplay accountId => KafkaRecoveryStrategies.incrementalReplay codec accountId
  | selectiveReplay accountId => KafkaRecoveryStrategies.selectiveReplay codec accountId
  | replayAccountEvents account => KafkaRecovery.replayAccountEvents codec account

/-- The account is one of those to be replayed. -/
def Covers (id : Uuid) : Replay → Prop
  | fullReplay accountId => accountId = none ∨ accountId = some id
  | incrementalReplay accountId => accountId = none ∨ accountId = some id
  | selectiveReplay accountId => accountId = none ∨ accountId = some id
  | replayAccountEvents account => account.id = id

def targets (table : Table Value) : Replay → List Uuid
  | fullReplay accountId => RecoveryReplay.targets table accountId
  | incrementalReplay accountId => RecoveryReplay.targets table accountId
  | selectiveReplay accountId => RecoveryReplay.targets table accountId
  | replayAccountEvents account => [account.id]

def batches (lastProcessed : Uuid → Int) (logs : Uuid → List AccountEvent) (id : Uuid) : Replay → List EventBatch
  | incrementalReplay _ => ((numbered (logs id)).filter fun entry => lastProcessed id < entry.1).map (single id)
  | selectiveReplay _ => collected id (logs id).length (logs id)
  | _ => (numbered (logs id)).map (single id)

end Replay

section Strategies
variable (reliable : ¬ env.fails) {table : Table Value} {logs : Uuid → List AccountEvent}
  (stored : ∀ id, Logs codec table id (logs id)) {lastProcessed : Uuid → Int}
include reliable stored

private theorem all_publishes (events : before.world.events = table) :
    Yields (serves store env caller) () ((numbered (logs id)).map (single id))
      ((awaitCall EventStoreError.display (.inl (.getEvents id none))).andThen (replayEvents codec id)) before := by
  refine queried_publishes reliable fun _ => replayEvents_publishes reliable ?_
  rw [events]
  exact (stored id).getEvents_all

private theorem fullReplay_publishes (accountId : Option Uuid) (events : before.world.events = table)
    (processed : before.lastProcessed = lastProcessed) :
    Returns (serves store env caller)
      (fun _ after => Publishes ((replayed logs (targets table accountId)).flatMap fun account =>
        (numbered (logs account.id)).map (single account.id)) before after)
      (fullReplay codec accountId) before := by
  refine (strategy_publishes reliable (fun id => (stored id).getEvents) (fun id => (numbered (logs id)).map (single id))
    accountId ?_ events processed).mono fun _ _ => And.right
  intro account before events _
  exact all_publishes reliable stored events

private theorem incrementalReplay_publishes (accountId : Option Uuid) (events : before.world.events = table)
    (processed : before.lastProcessed = lastProcessed) :
    Returns (serves store env caller)
      (fun _ after => Publishes ((replayed logs (targets table accountId)).flatMap fun account =>
        ((numbered (logs account.id)).filter fun entry => lastProcessed account.id < entry.1).map (single account.id))
          before after)
      (incrementalReplay codec accountId) before := by
  refine (strategy_publishes reliable (fun id => (stored id).getEvents)
    (fun id => ((numbered (logs id)).filter fun entry => lastProcessed id < entry.1).map (single id)) accountId ?_
    events processed).mono fun _ _ => And.right
  intro account before events processed
  refine Yields.andThen (.awaitCall fun _ _ served => serves_lastProcessed reliable served) ?_
  intro middle one
  have decodes := (stored account.id).getEvents_from (some (lastProcessed account.id))
  rw [← events, ← one.events] at decodes
  rw [processed]
  exact queried_publishes reliable fun _ => replayEvents_publishes reliable decodes

private theorem selectiveReplay_publishes (accountId : Option Uuid) (events : before.world.events = table) :
    Returns (serves store env caller)
      (fun _ after => Publishes ((replayed logs (targets table accountId)).flatMap fun account =>
        collected account.id (logs account.id).length (logs account.id)) before after)
      (selectiveReplay codec accountId) before := by
  refine (selectiveReplay_cuts reliable (fun id => events ▸ (stored id).getEvents_all) accountId).mono ?_
  intro reply after ⟨_, published⟩
  simpa only [numbered_snd, splitBy_numbered, events] using published

private theorem replay_publishes (replay : Replay) (events : before.world.events = table)
    (processed : before.lastProcessed = lastProcessed) :
    Returns (serves store env caller)
      (fun _ after => Publishes ((replayed logs (replay.targets table)).flatMap fun account =>
        replay.batches lastProcessed logs account.id) before after)
      (replay.program codec) before := by
  cases replay with
  | fullReplay accountId => exact fullReplay_publishes reliable stored accountId events processed
  | incrementalReplay accountId => exact incrementalReplay_publishes reliable stored accountId events processed
  | selectiveReplay accountId => exact selectiveReplay_publishes reliable stored accountId events
  | replayAccountEvents account =>
    refine (all_publishes reliable stored events).mono ?_
    intro reply after replied
    obtain ⟨_, published⟩ := replied
    by_cases empty : logs account.id = []
    · simpa [replayed, Replay.targets, Replay.batches, known, empty, numbered] using published
    · simpa [replayed, Replay.targets, Replay.batches, known, empty, blank] using published

end Strategies

section Published
variable {logs : Uuid → List AccountEvent} {table : Table Value} {lastProcessed : Uuid → Int}

private theorem mem_replayed {ids : List Uuid} {account : Account} (member : account ∈ replayed logs ids) :
    account.id ∈ ids ∧ logs account.id ≠ [] := by
  obtain ⟨id, inside, found⟩ := List.mem_flatMap.mp member
  by_cases empty : logs id = []
  · simp [known, empty] at found
  · simp only [known, empty, ↓reduceIte, Option.toList_some, List.mem_singleton] at found
    subst found
    simpa [blank] using ⟨inside, empty⟩

theorem exists_replayed {ids : List Uuid} (inside : id ∈ ids) (nonempty : logs id ≠ []) :
    ∃ account ∈ replayed logs ids, account.id = id :=
  ⟨(blank id).replay (logs id), List.mem_flatMap.mpr ⟨id, inside, by simp [known, nonempty]⟩, by simp [blank]⟩

theorem mem_targets (present : table.ordered id ≠ []) (accountId : Option Uuid) :
    id ∈ targets table accountId ↔ accountId = none ∨ accountId = some id := by
  obtain ⟨row, member⟩ := List.exists_mem_of_ne_nil _ present
  obtain ⟨stored, owner⟩ := List.mem_filter.mp (Logs.mem_ordered.mp member)
  have present : id ∈ table.map Event.aggregateId := List.mem_map.mpr ⟨row, stored, by simpa using owner⟩
  cases accountId with
  | none => exact iff_of_true ((List.mem_insertionSort _).mpr (List.mem_dedup.mpr present)) (.inl rfl)
  | some other => simp [targets, eq_comm]

/-- Among the accounts with events the targets are those that are covered. -/
theorem mem_targets_iff (stored : Logs codec table id (logs id)) (nonempty : logs id ≠ []) (replay : Replay) :
    id ∈ replay.targets table ↔ replay.Covers id := by
  have present : table.ordered id ≠ [] := by
    apply List.ne_nil_of_length_pos
    rw [Holds.length stored]
    exact List.length_pos_of_ne_nil nonempty
  have covered := mem_targets present
  cases replay with
  | fullReplay accountId => exact covered accountId
  | incrementalReplay accountId => exact covered accountId
  | selectiveReplay accountId => exact covered accountId
  | replayAccountEvents account => simp [Replay.targets, Replay.Covers, eq_comm]

private theorem mem_batches {replay : Replay} {batch : EventBatch}
    (member : batch ∈ replay.batches lastProcessed logs id) :
    batch.accountId = id ∧ batch.events ≠ [] := by
  have singles {entries : List (Int × AccountEvent)} (member : batch ∈ entries.map (single id)) :
      batch.accountId = id ∧ batch.events ≠ [] := by
    obtain ⟨entry, _, rfl⟩ := List.mem_map.mp member
    exact ⟨rfl, List.cons_ne_nil _ _⟩
  cases replay with
  | fullReplay accountId => exact singles member
  | incrementalReplay accountId => exact singles member
  | selectiveReplay accountId =>
    simp only [Replay.batches, collected] at member
    split at member
    next => cases member
    next nonempty =>
      obtain rfl := List.mem_singleton.mp member
      exact ⟨rfl, nonempty⟩
  | replayAccountEvents account => exact singles member

def Replay.isIncremental : Replay → Bool
  | incrementalReplay _ => true
  | _ => false

private theorem exists_last_numbered (nonempty : log ≠ []) : ∃ event, ((log.length : Int), event) ∈ numbered log := by
  have inside : log.length - 1 < log.length := Nat.sub_one_lt (List.length_pos_of_ne_nil nonempty).ne'
  refine ⟨log[log.length - 1], List.mem_mapIdx.mpr ⟨log.length - 1, inside, ?_⟩⟩
  rw [Prod.mk.injEq]
  exact ⟨by omega, rfl⟩

/-- A batch carries the committed version unless incremental replay leaves out the last event. -/
theorem tagged_iff (replay : Replay) (nonempty : logs id ≠ []) :
    (∃ batch ∈ replay.batches lastProcessed logs id, batch.version = (logs id).length) ↔
      ¬ (replay.isIncremental ∧ (logs id).length ≤ lastProcessed id) := by
  obtain ⟨event, member⟩ := exists_last_numbered nonempty
  have all : ∃ batch ∈ (numbered (logs id)).map (single id), batch.version = (logs id).length :=
    ⟨_, List.mem_map_of_mem member, rfl⟩
  cases replay with
  | fullReplay accountId => exact iff_of_true all (by simp [Replay.isIncremental])
  | replayAccountEvents account => exact iff_of_true all (by simp [Replay.isIncremental])
  | selectiveReplay accountId =>
    refine iff_of_true ⟨⟨id, logs id, (logs id).length⟩, ?_, rfl⟩ (by simp [Replay.isIncremental])
    simp [Replay.batches, collected, nonempty]
  | incrementalReplay accountId =>
    simp only [Replay.isIncremental, true_and, not_le]
    refine ⟨?_, ?_⟩
    · intro tagged
      obtain ⟨batch, published, version⟩ := tagged
      obtain ⟨entry, kept, rfl⟩ := List.mem_map.mp published
      have above := (List.mem_filter.mp kept).2
      rw [← version]
      simpa [single] using above
    · intro above
      exact ⟨_, List.mem_map_of_mem (List.mem_filter.mpr ⟨member, by simpa using above⟩), rfl⟩

private theorem untagged_iff (stored : Logs codec table id (logs id)) {replay : Replay} (covers : replay.Covers id) :
    (∀ batch ∈ (replayed logs (replay.targets table)).flatMap fun account => replay.batches lastProcessed logs account.id,
        batch.accountId = id → batch.version = (logs id).length → batch.events = []) ↔
      logs id = [] ∨ (replay.isIncremental ∧ (logs id).length ≤ lastProcessed id) := by
  refine ⟨?_, ?_⟩
  · intro untagged
    by_contra neither
    obtain ⟨nonempty, last⟩ := not_or.mp neither
    obtain ⟨batch, published, version⟩ := (tagged_iff replay nonempty).mpr last
    obtain ⟨account, member, rfl⟩ := exists_replayed ((mem_targets_iff stored nonempty replay).mpr covers) nonempty
    obtain ⟨owner, events⟩ := mem_batches published
    exact events (untagged batch (List.mem_flatMap.mpr ⟨account, member, published⟩) owner version)
  · intro kept batch member owner version
    obtain ⟨account, read, published⟩ := List.mem_flatMap.mp member
    obtain rfl := (mem_batches published).1.symm.trans owner
    have nonempty := (mem_replayed read).2
    have tagged := (tagged_iff replay nonempty).mp ⟨batch, published, version⟩
    exact absurd (kept.resolve_left nonempty) tagged

end Published

/-- Publishing a log again and consuming what was published leaves the log as it was
only if the last event is not among what was published. -/
theorem replay_keeps_log_iff (reliable : ¬ env.fails) {consumer : Environment Value} {logs : Uuid → List AccountEvent}
    {first published last : BankingEs.Pipeline ι Value} (stored : ∀ id, Logs codec first.world.events id (logs id))
    (unpublished : first.eventsTopic = []) (replay : Replay) {result : Except String Unit}
    (publish : Runs (serves store env caller) first (replay.program codec) result published)
    {results : List (Except String Unit)}
    (consume : RunsEach (serves (exactStore codec) consumer caller) published
      (published.eventsTopic.map processBatch) results last) (id : Uuid) (covers : replay.Covers id) :
    Logs codec last.world.events id (logs id) ↔
      logs id = [] ∨ (replay.isIncremental ∧ (logs id).length ≤ first.lastProcessed id) := by
  have step := (replay_publishes reliable stored replay rfl rfl).runs publish
  have kept : Logs codec published.world.events id (logs id) := by
    rw [step.events]
    exact stored id
  have consumed := batches_consumed consume kept
  rw [step.topic, unpublished, List.nil_append] at consumed
  rw [← untagged_iff (stored id) covers, ← consumed_eq_iff]
  refine ⟨consumed.unique, fun same => ?_⟩
  rwa [same] at consumed

section Sample
open Sample

private def opened : BankingEs.Pipeline Unit AccountEvent := { world := { events := [plainRow ⟨1⟩ 1 opening] } }

private def openedLogs (id : Uuid) : List AccountEvent := if id = ⟨1⟩ then [opening] else []

private theorem opened_logs (id : Uuid) : Logs .plain opened.world.events id (openedLogs id) := by
  have empty (id : Uuid) : Logs .plain ([] : Table AccountEvent) id [] := rfl
  have holds : Holds .plain ⟨1⟩ 0 [opening] [plainRow ⟨1⟩ 1 opening] := rfl
  by_cases mine : id = ⟨1⟩
  · subst mine
    exact (empty ⟨1⟩).append holds
  · rw [openedLogs, if_neg mine]
    exact (empty id).append_other holds (Ne.symm mine)

private def republished : BankingEs.Pipeline Unit AccountEvent := { opened with eventsTopic := [⟨⟨1⟩, [opening], 1⟩] }

private theorem opened_publishes :
    Runs (serves (exactStore .plain) .accepting ()) opened (fullReplay .plain (some ⟨1⟩)) (.ok ()) republished := by
  have rows : opened.world.events.getEvents ⟨1⟩ none = [plainRow ⟨1⟩ 1 opening] := by decide
  have read : serves (exactStore .plain) .accepting () opened (.inl (.getEvents ⟨1⟩ none))
      (.ok [plainRow ⟨1⟩ 1 opening]) opened :=
    ⟨_, .waits le_rfl, _, ⟨.inl (congrArg _ rows.symm), rfl⟩, rfl⟩
  refine .request _ read (.request _ read ?_)
  exact .request (.ok ()) ⟨_, .waits le_rfl, .inl ⟨rfl, rfl⟩⟩ (.request () ⟨_, .waits le_rfl, rfl⟩ .pure)

private theorem republished_consumed : ∃ last,
    RunsEach (serves (exactStore .plain) .accepting ()) republished (republished.eventsTopic.map processBatch)
      [.ok ()] last ∧
    Logs .plain last.world.events ⟨1⟩ [opening, opening] := by
  have holds : Holds .plain ⟨1⟩ 1 [opening] [plainRow ⟨1⟩ 2 opening] := rfl
  have again : ∃ last, Runs (serves (exactStore .plain) .accepting ()) republished
      (processBatch ⟨⟨1⟩, [opening], 1⟩) (.ok ()) last ∧
        last.world.events = [plainRow ⟨1⟩ 1 opening] ++ [plainRow ⟨1⟩ 2 opening] :=
    ⟨_, .request (.ok ()) ⟨_, .waits le_rfl, _, .stored rfl holds, rfl⟩
      (.request (.ok ()) ⟨_, .waits le_rfl, .ok (), .inl rfl, _, rfl, rfl⟩
        (.request (.ok none) ⟨_, .waits le_rfl, .ok none, .inl rfl, _, rfl, rfl⟩ .pure)), rfl⟩
  obtain ⟨last, run, events⟩ := again
  refine ⟨last, .cons run .nil, ?_⟩
  rw [events]
  exact Logs.append (opened_logs ⟨1⟩) holds

/-- A full replay of an account with one event stores that event a second time. -/
theorem full_replay_duplicates : ∃ published last results,
    Logs .plain opened.world.events ⟨1⟩ [opening] ∧
    Runs (serves (exactStore .plain) .accepting ()) opened (fullReplay .plain (some ⟨1⟩)) (.ok ()) published ∧
    RunsEach (serves (exactStore .plain) .accepting ()) published (published.eventsTopic.map processBatch) results last ∧
    Logs .plain last.world.events ⟨1⟩ [opening, opening] := by
  obtain ⟨last, run, logs⟩ := republished_consumed
  exact ⟨_, last, _, opened_logs ⟨1⟩, opened_publishes, run, logs⟩

theorem replay_changes_log_sample : ∃ published last results,
    Runs (serves (exactStore .plain) .accepting ()) opened (fullReplay .plain (some ⟨1⟩)) (.ok ()) published ∧
    RunsEach (serves (exactStore .plain) .accepting ()) published (published.eventsTopic.map processBatch) results last ∧
    ¬ Logs .plain last.world.events ⟨1⟩ [opening] := by
  obtain ⟨last, run, _⟩ := republished_consumed
  have unchanged := replay_keeps_log_iff not_false opened_logs rfl (.fullReplay (some ⟨1⟩)) opened_publishes run ⟨1⟩
    (.inr rfl)
  refine ⟨_, last, _, opened_publishes, run, fun same => ?_⟩
  simpa [openedLogs, Replay.isIncremental] using unchanged.mp same

end Sample

end BankingEs.Proofs.RecoveryReplay
