import BankingEs.Async.Interference
import BankingEs.EventStore.SnapshotWorker
import BankingEs.Proofs.AccountLog
import BankingEs.Proofs.Snapshots

/-! Whole runs of the snapshot workers of any number of instances, beside the writers. Whatever
the workers overtake and whatever fails, a snapshot in the table or in a cache is the account at
its version, and with the events after it leads to the account that all events lead to. -/

namespace BankingEs.Proofs.SnapshotFleet
open Async Relation AccountRepository BankingEs.SnapshotFleet

variable {ι Value Document : Type} [DecidableEq ι] {codec : Codec Value} {accountCodec : AccountCodec Document}
  {config : SnapshotConfig} {fails : Prop} {id : Uuid} {data : Document} {version : Int} {ttl : Nat}

section Programs

def caching (id : Uuid) (snapshot : CachedSnapshot Document) :
    Program (SnapshotCall Value Document) (Except String Unit) :=
  .request (.cacheInsert id snapshot) fun _ => .pure (.ok ())

def stamping (ttl : Nat) (id : Uuid) (data : Document) (version : Int) :
    Program (SnapshotCall Value Document) (Except String Unit) :=
  .request .instantNow fun createdAt =>
    caching id { aggregateId := id, data, version, createdAt, ttl := Duration.fromSecs ttl }

def afterSave (ttl : Nat) (id : Uuid) (data : Document) (version : Int) :
    Except String Unit → Program (SnapshotCall Value Document) (Except String Unit)
  | .error _ => .pure (.error "Failed to save snapshot to database")
  | .ok () => stamping ttl id data version

def saving (ttl : Nat) (id : Uuid) (data : Document) (version : Int) :
    Program (SnapshotCall Value Document) (Except String Unit) :=
  .request (.saveSnapshot id ⟨data, version⟩) (afterSave ttl id data version)

private theorem saving_eq (ttl : Nat) (id : Uuid) (data : Document) (version : Int) :
    ((EventStore.awaitContext "Failed to save snapshot to database" (.saveSnapshot id ⟨data, version⟩)).andThen
      fun _ => do
        let createdAt ← Program.send .instantNow
        Program.send (.cacheInsert id
          { aggregateId := id, data, version, createdAt, ttl := Duration.fromSecs ttl })
        return .ok ()) = (saving ttl id data version : Program (SnapshotCall Value Document) (Except String Unit)) := by
  refine congrArg (Program.request _) (funext fun reply => ?_)
  cases reply with
  | error error => rfl
  | ok _ => rfl

def afterRows (codec : Codec Value) (accountCodec : AccountCodec Document) (ttl : Nat) (id : Uuid)
    (rows : List (Event Value)) : Program (SnapshotCall Value Document) (Except String Unit) :=
  match rows.getLast? with
  | none => .pure (.ok ())
  | some last => match EventStore.snapshotData codec accountCodec id rows with
    | .error error => .pure (.error error)
    | .ok data => saving ttl id data last.version

def afterFetch (codec : Codec Value) (accountCodec : AccountCodec Document) (ttl : Nat) (id : Uuid) :
    Except String (List (Event Value)) → Program (SnapshotCall Value Document) (Except String Unit)
  | .error _ => .pure (.error "Failed to fetch events for snapshot")
  | .ok rows => afterRows codec accountCodec ttl id rows

theorem createSnapshot_eq (codec : Codec Value) (accountCodec : AccountCodec Document) (ttl : Nat) (id : Uuid) :
    EventStore.createSnapshot codec accountCodec ttl id =
      .request (.fetchEvents id) (afterFetch codec accountCodec ttl id) := by
  simp only [EventStore.createSnapshot, saving_eq]
  refine congrArg (Program.request _) (funext fun reply => ?_)
  cases reply with
  | error error => rfl
  | ok rows => rfl

inductive Phase (Document : Type) where
  | fetching
  | saving (data : Document) (version : Int)
  | stamping (data : Document) (version : Int)
  | caching (snapshot : CachedSnapshot Document)
  | done

def At (codec : Codec Value) (accountCodec : AccountCodec Document) (ttl : Nat) (id : Uuid)
    (program : Program (SnapshotCall Value Document) (Except String Unit)) : Phase Document → Prop
  | .fetching => program = EventStore.createSnapshot codec accountCodec ttl id
  | .saving data version => program = saving ttl id data version
  | .stamping data version => program = stamping ttl id data version
  | .caching snapshot => program = caching id snapshot
  | .done => ∃ result, program = .pure result

/-- All that a call of a task can do. -/
inductive Moved (codec : Codec Value) (accountCodec : AccountCodec Document) (ttl : Nat) (fails : Prop) (id : Uuid)
    (before after : SnapshotStore Value Document) : Phase Document → Phase Document → Prop where
  | fetched {last : Event Value} {data : Document} (found : (before.events.ordered id).getLast? = some last)
      (encoded : EventStore.snapshotData codec accountCodec id (before.events.ordered id) = .ok data)
      (same : after = before) : Moved codec accountCodec ttl fails id before after .fetching (.saving data last.version)
  | gaveUp (reason : fails ∨ before.events.ordered id = [] ∨
        ∃ error, EventStore.snapshotData codec accountCodec id (before.events.ordered id) = .error error)
      (same : after = before) : Moved codec accountCodec ttl fails id before after .fetching .done
  | saved {data : Document} {version : Int}
      (written : after = { before with snapshots := Function.update before.snapshots id (some ⟨data, version⟩) }) :
      Moved codec accountCodec ttl fails id before after (.saving data version) (.stamping data version)
  | unsaved {data : Document} {version : Int} (failed : fails) (same : after = before) :
      Moved codec accountCodec ttl fails id before after (.saving data version) .done
  | stamped {data : Document} {version : Int} {createdAt : Instant} (same : after = before) :
      Moved codec accountCodec ttl fails id before after (.stamping data version)
        (.caching { aggregateId := id, data, version, createdAt, ttl := Duration.fromSecs ttl })
  | cached {snapshot : CachedSnapshot Document}
      (written : after = { before with cache := Function.update before.cache id (some snapshot) }) :
      Moved codec accountCodec ttl fails id before after (.caching snapshot) .done

/-- No task touches the events. -/
theorem Moved.events {phase next : Phase Document} {before after : SnapshotStore Value Document}
    (moved : Moved codec accountCodec ttl fails id before after phase next) : after.events = before.events := by
  cases moved <;> simp_all

theorem Moved.apart {phase next : Phase Document} {before after : SnapshotStore Value Document}
    (moved : Moved codec accountCodec ttl fails id before after phase next) (other : Uuid) (different : other ≠ id) :
    after.snapshots other = before.snapshots other := by
  cases moved with
  | saved written =>
    subst written
    exact Function.update_of_ne different _ _
  | _ => simp_all

private theorem afterRows_moved {before : SnapshotStore Value Document} :
    ∃ next, Moved codec accountCodec ttl fails id before before .fetching next ∧
      At codec accountCodec ttl id (afterRows codec accountCodec ttl id (before.events.ordered id)) next := by
  cases found : (before.events.ordered id).getLast? with
  | none =>
    refine ⟨.done, .gaveUp (.inr (.inl (List.getLast?_eq_none_iff.mp found))) rfl, .ok (), ?_⟩
    simp only [afterRows, found]
  | some last =>
    cases encoded : EventStore.snapshotData codec accountCodec id (before.events.ordered id) with
    | error error =>
      refine ⟨.done, .gaveUp (.inr (.inr ⟨error, encoded⟩)) rfl, .error error, ?_⟩
      simp only [afterRows, found, encoded]
    | ok data =>
      refine ⟨.saving data last.version, .fetched found encoded rfl, ?_⟩
      simp only [At, afterRows, found, encoded]

theorem served_moved {β : Type} {op : SnapshotCall Value Document β} {reply : β} {phase : Phase Document}
    {resume : β → Program (SnapshotCall Value Document) (Except String Unit)} {before after : SnapshotStore Value Document}
    (here : At codec accountCodec ttl id (.request op resume) phase)
    (served : SnapshotStore.step fails before op reply after) :
    ∃ next, Moved codec accountCodec ttl fails id before after phase next ∧
      At codec accountCodec ttl id (resume reply) next := by
  cases phase with
  | fetching =>
    rw [At, createSnapshot_eq] at here
    cases here
    rcases served with ⟨rfl, rfl⟩ | ⟨failed, ⟨error, rfl⟩, rfl⟩
    · exact afterRows_moved
    · exact ⟨.done, .gaveUp (.inl failed) rfl, _, rfl⟩
  | saving data version =>
    cases here
    rcases served with ⟨rfl, rfl⟩ | ⟨failed, ⟨error, rfl⟩, rfl⟩
    · exact ⟨.stamping data version, .saved rfl, rfl⟩
    · exact ⟨.done, .unsaved failed rfl, _, rfl⟩
  | stamping data version =>
    cases here
    obtain ⟨rfl, rfl⟩ := served
    exact ⟨_, .stamped rfl, rfl⟩
  | caching snapshot =>
    cases here
    exact ⟨.done, .cached served, _, rfl⟩
  | done =>
    obtain ⟨result, impossible⟩ := here
    cases impossible

end Programs

section Faithful
variable {events later : Table Value}

/-- The document is the account that a first part of the log leads to, under its length. -/
def Faithful (codec : Codec Value) (accountCodec : AccountCodec Document) (events : Table Value) (id : Uuid)
    (data : Document) (version : Int) : Prop :=
  ∃ log more, Logs codec events id (log ++ more) ∧ log ≠ [] ∧ version = log.length ∧
    accountCodec.toValue ((blank id).replay log) = .ok data

private theorem Faithful.grown (faithful : Faithful codec accountCodec events id data version)
    (grown : Table.Grows codec events later) :
    Faithful codec accountCodec later id data version := by
  obtain ⟨log, more, logs, filled, length, encoded⟩ := faithful
  obtain ⟨rest, logs⟩ := grown id _ logs
  exact ⟨log, more ++ rest, by rwa [← List.append_assoc], filled, length, encoded⟩

theorem appended_grown {added : List AccountEvent} {rows : Table Value}
    (holds : Holds codec id (events.currentVersion id) added rows) (log : List AccountEvent)
    (logs : Logs codec events id log) : Table.Grows codec events (events ++ rows) := by
  rw [logs.currentVersion] at holds
  exact .append logs holds

private theorem fetched_filled {log : List AccountEvent} {last : Event Value} (logs : Logs codec events id log)
    (found : (events.ordered id).getLast? = some last) : log ≠ [] := by
  rintro rfl
  have empty : events.ordered id = [] := List.length_eq_zero_iff.mp (Holds.length logs)
  rw [empty] at found
  cases found

theorem fetched_version {log : List AccountEvent} {last : Event Value} (logs : Logs codec events id log)
    (found : (events.ordered id).getLast? = some last) : last.version = log.length := by
  have positive := List.length_pos_iff.mpr (fetched_filled logs found)
  have at_last : (events.ordered id)[(events.ordered id).length - 1]? = some last := by
    rw [← List.getLast?_eq_getElem?, found]
  obtain ⟨_, _, _, number, _⟩ := Holds.at_index logs at_last
  have count := Holds.length logs
  rw [number]
  omega

private theorem fetched_faithful {log : List AccountEvent} {last : Event Value} (logs : Logs codec events id log)
    (found : (events.ordered id).getLast? = some last)
    (encoded : EventStore.snapshotData codec accountCodec id (events.ordered id) = .ok data) :
    Faithful codec accountCodec events id data last.version := by
  refine ⟨log, [], by rwa [List.append_nil], fetched_filled logs found, fetched_version logs found, ?_⟩
  rw [EventStore.snapshotData, Account.applyStored_decoded _ (Holds.decoded logs)] at encoded
  dsimp only at encoded
  cases value : accountCodec.toValue ((blank id).replay log) with
  | error error =>
    rw [value] at encoded
    cases encoded
  | ok document =>
    rw [value] at encoded
    exact encoded

private theorem numbered_after (log more : List AccountEvent) :
    ((numbered (log ++ more)).filter fun entry => (log.length : Int) < entry.1).map Prod.snd = more := by
  have split : numbered (log ++ more) =
      numbered log ++ more.mapIdx fun index event => (((index + log.length : Nat) : Int) + 1, event) :=
    List.mapIdx_append
  have before : (numbered log).filter (fun entry => decide ((log.length : Int) < entry.1)) = [] := by
    apply List.filter_eq_nil_iff.mpr
    intro entry member
    obtain ⟨index, inside, rfl⟩ := List.mem_mapIdx.mp member
    simp only [decide_eq_true_eq]
    omega
  have after : (more.mapIdx fun index event => (((index + log.length : Nat) : Int) + 1, event)).filter
      (fun entry => decide ((log.length : Int) < entry.1)) =
      more.mapIdx fun index event => (((index + log.length : Nat) : Int) + 1, event) := by
    apply List.filter_eq_self.mpr
    intro entry member
    obtain ⟨index, inside, rfl⟩ := List.mem_mapIdx.mp member
    simp only [decide_eq_true_eq]
    omega
  rw [split, List.filter_append, before, after, List.nil_append]
  apply List.ext_getElem?
  intro index
  rw [List.getElem?_map, List.getElem?_mapIdx, Option.map_map]
  exact Option.map_id'

def Rehydrates (codec : Codec Value) (accountCodec : AccountCodec Document) (events : Table Value) (id : Uuid)
    (data : Document) (version : Int) : Prop :=
  ∃ account result, accountCodec.fromValue data = .ok account ∧
    account.applyStored codec EventStoreError.serializationError (events.getEvents id (some version)) = .ok result ∧
    rehydrate codec id (.ok (events.getEvents id none)) = .ok (some result)

private theorem Faithful.rehydrates (faithful : Faithful codec accountCodec events id data version) :
    Rehydrates codec accountCodec events id data version := by
  obtain ⟨log, more, logs, filled, rfl, encoded⟩ := faithful
  refine ⟨(blank id).replay log, ((blank id).replay log).replay more, accountCodec.decodes _ _ encoded, ?_, ?_⟩
  · have rest := congrArg (List.map Prod.snd) (logs.getEvents_from (some (log.length : Int)))
    have tail := congrArg (List.map fun event => (Except.ok event : Except String AccountEvent)) (numbered_after log more)
    apply Account.applyStored_decoded
    rw [List.map_map, List.map_map] at rest
    rw [List.map_map] at tail
    exact rest.trans tail
  · rw [logs.rehydrate, known, if_neg (by simp [filled]), Account.replay_append]

end Faithful

section Fleet
variable {fleet before after : SnapshotFleet ι Value Document} {owner : ι}

def Carries (codec : Codec Value) (accountCodec : AccountCodec Document) (events : Table Value) (id : Uuid) :
    Phase Document → Prop
  | .saving data version => Faithful codec accountCodec events id data version
  | .stamping data version => Faithful codec accountCodec events id data version
  | .caching snapshot => Faithful codec accountCodec events id snapshot.data snapshot.version
  | _ => True

def Sound (codec : Codec Value) (accountCodec : AccountCodec Document) (ttl : Nat) (events : Table Value)
    (task : SnapshotTask Value Document) : Prop :=
  ∃ phase, At codec accountCodec ttl task.aggregateId task.program phase ∧
    Carries codec accountCodec events task.aggregateId phase

/-- Every account has a log, and every snapshot in the table, in a cache or in a task is faithful. -/
structure Consistent (codec : Codec Value) (accountCodec : AccountCodec Document) (ttl : Nat)
    (fleet : SnapshotFleet ι Value Document) : Prop where
  logged : ∀ id, ∃ log, Logs codec fleet.events id log
  rows : ∀ id snapshot, fleet.snapshots id = some snapshot →
    Faithful codec accountCodec fleet.events id snapshot.snapshotData snapshot.version
  caches : ∀ owner id snapshot, (fleet.instances owner).cache id = some snapshot →
    Faithful codec accountCodec fleet.events id snapshot.data snapshot.version
  tasks : ∀ owner, ∀ task ∈ (fleet.instances owner).tasks, Sound codec accountCodec ttl fleet.events task

private theorem Carries.grown {events later : Table Value} {phase : Phase Document}
    (carries : Carries codec accountCodec events id phase) (grown : Table.Grows codec events later) :
    Carries codec accountCodec later id phase := by
  cases phase with
  | saving data version => exact Faithful.grown carries grown
  | stamping data version => exact Faithful.grown carries grown
  | caching snapshot => exact Faithful.grown carries grown
  | _ => trivial

omit [DecidableEq ι] in
private theorem Consistent.appends (consistent : Consistent codec accountCodec ttl before)
    (appends : Appends codec before after) :
    Consistent codec accountCodec ttl after := by
  obtain ⟨holds⟩ := appends
  obtain ⟨log, logs⟩ := consistent.logged _
  have grown := appended_grown holds log logs
  refine ⟨?_, ?_, ?_, ?_⟩
  · intro id
    obtain ⟨old, kept⟩ := consistent.logged id
    obtain ⟨more, grows⟩ := grown id old kept
    exact ⟨_, grows⟩
  · exact fun id snapshot found => (consistent.rows id snapshot found).grown grown
  · exact fun owner id snapshot found => (consistent.caches owner id snapshot found).grown grown
  · intro owner task member
    obtain ⟨phase, here, carries⟩ := consistent.tasks owner task member
    exact ⟨phase, here, carries.grown grown⟩

private theorem moved_faithful {phase next : Phase Document} {store later : SnapshotStore Value Document}
    {log : List AccountEvent}
    (moved : Moved codec accountCodec ttl fails id store later phase next)
    (carries : Carries codec accountCodec store.events id phase) (logs : Logs codec store.events id log) :
    Carries codec accountCodec store.events id next ∧
      (∀ other snapshot, later.snapshots other = some snapshot → store.snapshots other = some snapshot ∨
        Faithful codec accountCodec store.events other snapshot.snapshotData snapshot.version) ∧
      ∀ other snapshot, later.cache other = some snapshot → store.cache other = some snapshot ∨
        Faithful codec accountCodec store.events other snapshot.data snapshot.version := by
  have kept : (∀ other snapshot, store.snapshots other = some snapshot → store.snapshots other = some snapshot ∨
        Faithful codec accountCodec store.events other snapshot.snapshotData snapshot.version) ∧
      ∀ other snapshot, store.cache other = some snapshot → store.cache other = some snapshot ∨
        Faithful codec accountCodec store.events other snapshot.data snapshot.version :=
    ⟨fun _ _ found => .inl found, fun _ _ found => .inl found⟩
  cases moved with
  | fetched found encoded same =>
    subst same
    exact ⟨fetched_faithful logs found encoded, kept⟩
  | gaveUp _ same =>
    subst same
    exact ⟨trivial, kept⟩
  | saved written =>
    subst written
    refine ⟨carries, ?_, kept.2⟩
    intro other snapshot found
    dsimp only at found
    by_cases mine : other = id
    · subst mine
      rw [Function.update_self] at found
      cases found
      exact .inr carries
    · rw [Function.update_of_ne mine] at found
      exact .inl found
  | unsaved _ same =>
    subst same
    exact ⟨trivial, kept⟩
  | stamped same =>
    subst same
    exact ⟨carries, kept⟩
  | cached written =>
    subst written
    refine ⟨trivial, kept.1, ?_⟩
    intro other snapshot found
    dsimp only at found
    by_cases mine : other = id
    · subst mine
      rw [Function.update_self] at found
      cases found
      exact .inr carries
    · rw [Function.update_of_ne mine] at found
      exact .inl found

private theorem Consistent.putInstance (consistent : Consistent codec accountCodec ttl fleet)
    {changed : SnapshotInstance Value Document}
    (cache : ∀ id snapshot, changed.cache id = some snapshot →
      Faithful codec accountCodec fleet.events id snapshot.data snapshot.version)
    (tasks : ∀ task ∈ changed.tasks, Sound codec accountCodec ttl fleet.events task) :
    Consistent codec accountCodec ttl (fleet.putInstance owner changed) := by
  refine ⟨consistent.logged, consistent.rows, ?_, ?_⟩
  · intro other
    by_cases mine : other = owner
    · subst mine
      simpa only [BankingEs.SnapshotFleet.putInstance, Function.update_self] using cache
    · simpa only [BankingEs.SnapshotFleet.putInstance, Function.update_of_ne mine] using consistent.caches other
  · intro other
    by_cases mine : other = owner
    · subst mine
      simpa only [BankingEs.SnapshotFleet.putInstance, Function.update_self] using tasks
    · simpa only [BankingEs.SnapshotFleet.putInstance, Function.update_of_ne mine] using consistent.tasks other

theorem Consistent.serves (consistent : Consistent codec accountCodec ttl fleet)
    {front back : List (SnapshotTask Value Document)} {β : Type} {op : SnapshotCall Value Document β}
    {resume : β → Program (SnapshotCall Value Document) (Except String Unit)} {reply : β}
    {store : SnapshotStore Value Document}
    (running : (fleet.instances owner).tasks = front ++ ⟨id, .request op resume⟩ :: back)
    (served : SnapshotStore.step fails (fleet.store owner) op reply store) :
    Consistent codec accountCodec ttl (fleet.putStore owner store (front ++ ⟨id, resume reply⟩ :: back)) := by
  have runs : ⟨id, .request op resume⟩ ∈ (fleet.instances owner).tasks := by
    rw [running]
    simp
  obtain ⟨phase, here, carries⟩ := consistent.tasks owner _ runs
  obtain ⟨next, moved, there⟩ := served_moved here served
  obtain ⟨log, logs⟩ := consistent.logged id
  obtain ⟨carried, rows, cache⟩ := moved_faithful moved carries logs
  have events : store.events = fleet.events := moved.events
  refine ⟨?_, ?_, ?_, ?_⟩
  · simpa only [putStore, events] using consistent.logged
  · intro other snapshot found
    simp only [putStore, events]
    rcases rows other snapshot found with old | faithful
    · exact consistent.rows other snapshot old
    · exact faithful
  · intro other key snapshot found
    simp only [putStore, events] at found ⊢
    by_cases mine : other = owner
    · subst mine
      rw [Function.update_self] at found
      rcases cache key snapshot found with old | faithful
      · exact consistent.caches other key snapshot old
      · exact faithful
    · rw [Function.update_of_ne mine] at found
      exact consistent.caches other key snapshot found
  · intro other task member
    simp only [putStore, events] at member ⊢
    by_cases mine : other = owner
    · subst mine
      rw [Function.update_self] at member
      rcases List.mem_append.mp member with old | member
      · exact consistent.tasks other task (by rw [running]; exact List.mem_append_left _ old)
      · rcases List.mem_cons.mp member with rfl | old
        · exact ⟨next, there, carried⟩
        · refine consistent.tasks other task ?_
          rw [running]
          exact List.mem_append_right _ (List.mem_cons_of_mem _ old)
    · rw [Function.update_of_ne mine] at member
      exact consistent.tasks other task member

theorem moves_consistent (moves : Moves codec accountCodec config fails before after)
    (consistent : Consistent codec accountCodec config.snapshotCacheTtlSecs before) :
    Consistent codec accountCodec config.snapshotCacheTtlSecs after := by
  rcases moves with ticks | works | appends
  · obtain ⟨_, _⟩ := ticks
    refine consistent.putInstance (consistent.caches _) ?_
    intro task member
    obtain ⟨row, _, rfl⟩ := List.mem_map.mp member
    exact ⟨.fetching, rfl, trivial⟩
  · cases works with
    | waits => exact ⟨consistent.logged, consistent.rows, consistent.caches, consistent.tasks⟩
    | serves running served => exact consistent.serves running served
    | @collects owner expired found => exact consistent.putInstance (consistent.caches owner) (consistent.tasks owner)
    | @removes owner =>
      refine consistent.putInstance ?_ (consistent.tasks owner)
      intro id snapshot found
      dsimp only at found
      split at found
      · cases found
      · exact consistent.caches owner id snapshot found
  · exact consistent.appends appends

theorem run_consistent (run : ReflTransGen (Moves codec accountCodec config fails) before after)
    (consistent : Consistent codec accountCodec config.snapshotCacheTtlSecs before) :
    Consistent codec accountCodec config.snapshotCacheTtlSecs after := by
  induction run with
  | refl => exact consistent
  | tail _ moves ih => exact moves_consistent moves ih

def started (events : Table Value) : SnapshotFleet ι Value Document := { events }

omit [DecidableEq ι] in
theorem Consistent.started {events : Table Value} (logged : ∀ id, ∃ log, Logs codec events id log) :
    Consistent codec accountCodec ttl (started events : SnapshotFleet ι Value Document) :=
  ⟨logged, fun _ _ found => (by cases found), fun _ _ _ found => (by cases found), fun _ _ member => (by cases member)⟩

/-- At any time of any run, with any number of instances whose workers overtake one another and
any failures, every snapshot in the table and in the caches leads with the events stored after
its version to the very account that all events lead to. -/
theorem snapshots_stay_faithful {events : Table Value} (logged : ∀ id, ∃ log, Logs codec events id log)
    (run : ReflTransGen (Moves codec accountCodec config fails) (started events) fleet) :
    (∀ id snapshot, fleet.snapshots id = some snapshot →
      Rehydrates codec accountCodec fleet.events id snapshot.snapshotData snapshot.version) ∧
    ∀ owner id snapshot, (fleet.instances owner).cache id = some snapshot →
      Rehydrates codec accountCodec fleet.events id snapshot.data snapshot.version := by
  have consistent := run_consistent run (.started logged)
  exact ⟨fun id snapshot found => (consistent.rows id snapshot found).rehydrates,
    fun owner id snapshot found => (consistent.caches owner id snapshot found).rehydrates⟩

def opened : Table AccountEvent := [plainRow ⟨7⟩ 1 (.accountCreated ⟨7⟩ "Ann" 10)]

theorem opened_logged (id : Uuid) : ∃ log, Logs Codec.plain opened id log := by
  have first : Logs Codec.plain [] ⟨7⟩ [] := rfl
  have row : Holds Codec.plain ⟨7⟩ (Table.currentVersion ([] : Table AccountEvent) ⟨7⟩)
      [.accountCreated ⟨7⟩ "Ann" 10] opened := rfl
  obtain ⟨more, logs⟩ := appended_grown row [] first id [] rfl
  exact ⟨_, logs⟩

private theorem opened_candidates : Candidates { snapshotThreshold := 0 } opened
    (fun _ => none : Uuid → Option (Snapshot Account)) [⟨⟨7⟩, 1, 1, 0⟩] :=
  ⟨[⟨⟨7⟩, 1, 1, 0⟩], .refl _, List.pairwise_singleton _ _, rfl⟩

theorem opened_run : ∃ fleet : SnapshotFleet Unit AccountEvent Account,
    ReflTransGen (Moves .plain .plain { snapshotThreshold := 0 } False) (started opened) fleet ∧
      fleet.snapshots ⟨7⟩ = some ⟨⟨⟨7⟩, "Ann", 10, true, 1⟩, 1⟩ := by
  have ticked : ReflTransGen (Moves .plain .plain { snapshotThreshold := 0 } False)
      (started opened : SnapshotFleet Unit AccountEvent Account) _ :=
    .single (.inl (@Ticks.ticks _ _ _ _ _ _ _ _ () _ (fun _ member => by cases member) opened_candidates))
  have fetched := ticked.tail (.inr (.inl (@Works.serves _ _ _ _ _ _ () [] [] ⟨7⟩ _ _ _ _ _ rfl (.inl ⟨rfl, rfl⟩))))
  have saved := fetched.tail (.inr (.inl (@Works.serves _ _ _ _ _ _ () [] [] ⟨7⟩ _ _ _ _ _ rfl (.inl ⟨rfl, rfl⟩))))
  exact ⟨_, saved, rfl⟩

theorem first_snapshot_faithful : ∃ (fleet : SnapshotFleet Unit AccountEvent Account) (snapshot : Snapshot Account),
    ReflTransGen (Moves .plain .plain { snapshotThreshold := 0 } False) (started opened) fleet ∧
      fleet.snapshots ⟨7⟩ = some snapshot ∧
      Rehydrates .plain .plain fleet.events ⟨7⟩ snapshot.snapshotData snapshot.version := by
  obtain ⟨fleet, run, found⟩ := opened_run
  exact ⟨fleet, _, run, found, (snapshots_stay_faithful opened_logged run).1 _ _ found⟩

end Fleet
end BankingEs.Proofs.SnapshotFleet
