import Mathlib.Data.Finset.Card
import Mathlib.Data.List.Dedup
import BankingEs.Proofs.SnapshotFleet

/-! The rounds of a single snapshot worker. Its tasks never meet, so the version of a snapshot
only grows; and its rounds work off the aggregates that need a snapshot. -/

namespace BankingEs.Proofs.SnapshotRounds
open Async Relation AccountRepository BankingEs.SnapshotFleet Proofs.SnapshotFleet

variable {Value Document : Type} {codec : Codec Value} {accountCodec : AccountCodec Document}
  {config : SnapshotConfig} {fails : Prop} {id : Uuid} {events : Table Value}
  {snapshots : Uuid → Option (Snapshot Document)} {fleet before after : SnapshotFleet Unit Value Document}

def versionOf (snapshots : Uuid → Option (Snapshot Document)) (id : Uuid) : Int :=
  (snapshots id).elim 0 Snapshot.version

section Query

/-- The aggregates that the query wants a snapshot of. -/
def stale (config : SnapshotConfig) (events : Table Value) (snapshots : Uuid → Option (Snapshot Document)) :
    List Uuid :=
  ((events.map Event.aggregateId).dedup).filter fun id => (SnapshotCandidate.group events snapshots id).wanted config

private theorem stale_nodup : (stale config events snapshots).Nodup := (List.nodup_dedup _).filter _

private theorem mem_stale : id ∈ stale config events snapshots ↔
    config.snapshotThreshold < (events.rowsOf id).length ∧ versionOf snapshots id < events.currentVersion id := by
  simp only [stale, List.mem_filter, List.mem_dedup, SnapshotCandidate.wanted, Bool.and_eq_true]
  constructor
  · exact fun member => ⟨of_decide_eq_true member.2.1, of_decide_eq_true member.2.2⟩
  · intro wanted
    refine ⟨?_, decide_eq_true wanted.1, decide_eq_true wanted.2⟩
    obtain ⟨row, member⟩ := List.exists_mem_of_length_pos (Nat.zero_lt_of_lt wanted.1)
    obtain ⟨stored, owner⟩ := List.mem_filter.mp member
    exact List.mem_map.mpr ⟨row, stored, by simpa using owner⟩

private theorem groups_eq : SnapshotCandidate.groups config events snapshots =
    (stale config events snapshots).map (SnapshotCandidate.group events snapshots) := by
  rw [SnapshotCandidate.groups, List.filter_map, stale]
  rfl

private theorem spawned_ids {rows : List SnapshotCandidate} (selects : Candidates config events snapshots rows) :
    ∃ ids, spawned codec accountCodec config rows = ids.map (fun id =>
        ⟨id, EventStore.createSnapshot codec accountCodec config.snapshotCacheTtlSecs id⟩) ∧
      ids.Nodup ∧ ids ⊆ stale config events snapshots ∧
      ids.length = min config.maxSnapshotsPerRun (stale config events snapshots).length := by
  obtain ⟨sorted, perm, _, rfl⟩ := selects
  rw [groups_eq] at perm
  have ids : (sorted.map SnapshotCandidate.aggregateId).Perm (stale config events snapshots) := by
    have named := perm.map SnapshotCandidate.aggregateId
    rwa [List.map_map, show SnapshotCandidate.aggregateId ∘ SnapshotCandidate.group events snapshots = id from rfl,
      List.map_id] at named
  have all : (sorted.take config.maxSnapshotsPerRun).filter (fun row => row.lastSnapshotVersion < row.maxVersion) =
      sorted.take config.maxSnapshotsPerRun := by
    apply List.filter_eq_self.mpr
    intro row member
    obtain ⟨owner, wanted, rfl⟩ := List.mem_map.mp (perm.subset (List.mem_of_mem_take member))
    exact decide_eq_true (mem_stale.mp wanted).2
  refine ⟨(sorted.map SnapshotCandidate.aggregateId).take config.maxSnapshotsPerRun, ?_, ?_, ?_, ?_⟩
  · rw [spawned, all, ← List.map_take, List.map_map]
    rfl
  · exact (ids.nodup_iff.mpr stale_nodup).sublist (List.take_sublist _ _)
  · exact fun id member => ids.subset (List.mem_of_mem_take member)
  · rw [List.length_take, ids.length_eq]

end Query

private theorem others_apart {front back : List (SnapshotTask Value Document)}
    {task other : SnapshotTask Value Document}
    (distinct : ((front ++ task :: back).map SnapshotTask.aggregateId).Nodup) (member : other ∈ front ++ back) :
    other.aggregateId ≠ task.aggregateId := by
  rw [List.map_append, List.map_cons] at distinct
  have apart := (List.nodup_middle.mp distinct).notMem
  rw [← List.map_append] at apart
  intro same
  exact apart (same ▸ List.mem_map_of_mem member)

section Rising

/-- No snapshot was removed or replaced by one of a lower version. -/
def Rises (before after : Uuid → Option (Snapshot Document)) : Prop :=
  ∀ id row, before id = some row → ∃ later, after id = some later ∧ row.version ≤ later.version

private theorem Rises.refl : Rises snapshots snapshots := fun _ row found => ⟨row, found, le_rfl⟩

private theorem Rises.trans {first second third : Uuid → Option (Snapshot Document)} (one : Rises first second)
    (two : Rises second third) : Rises first third := by
  intro id row found
  obtain ⟨later, found, above⟩ := one id row found
  obtain ⟨last, found, higher⟩ := two id later found
  exact ⟨last, found, above.trans higher⟩

private theorem rises_update {row : Snapshot Document} (above : versionOf snapshots id < row.version) :
    Rises snapshots (Function.update snapshots id (some row)) := by
  intro other old found
  by_cases mine : other = id
  · subst mine
    rw [versionOf, found] at above
    exact ⟨row, Function.update_self .., le_of_lt above⟩
  · exact ⟨old, by rw [Function.update_of_ne mine, found], le_rfl⟩

def Reached (snapshots : Uuid → Option (Snapshot Document)) (id : Uuid) (version : Int) : Prop :=
  ∃ row, snapshots id = some row ∧ version ≤ row.version

private theorem Reached.rises {later : Uuid → Option (Snapshot Document)} {version : Int}
    (reached : Reached snapshots id version)
    (rises : Rises snapshots later) : Reached later id version := by
  obtain ⟨row, found, above⟩ := reached
  obtain ⟨last, found, higher⟩ := rises id row found
  exact ⟨last, found, above.trans higher⟩

/-- What a task is going to write is newer than the table, and what it has written is there. -/
def Ahead (events : Table Value) (snapshots : Uuid → Option (Snapshot Document)) (id : Uuid) : Phase Document → Prop
  | .fetching => versionOf snapshots id < events.currentVersion id
  | .saving _ version => versionOf snapshots id < version
  | .stamping _ version => Reached snapshots id version
  | .caching snapshot => Reached snapshots id snapshot.version
  | .done => True

private theorem moved_ahead {ttl : Nat} {phase next : Phase Document} {store later : SnapshotStore Value Document}
    {log : List AccountEvent} (moved : Moved codec accountCodec ttl fails id store later phase next)
    (logs : Logs codec store.events id log) (ahead : Ahead store.events store.snapshots id phase) :
    Ahead store.events later.snapshots id next ∧ Rises store.snapshots later.snapshots ∧
      ∀ other snapshot, later.cache other = some snapshot → store.cache other = some snapshot ∨
        Reached store.snapshots other snapshot.version := by
  cases moved with
  | @fetched last data found encoded same =>
    subst same
    refine ⟨?_, .refl, fun _ _ cached => .inl cached⟩
    rw [Ahead, fetched_version logs found, ← logs.currentVersion]
    exact ahead
  | gaveUp _ same =>
    subst same
    exact ⟨trivial, .refl, fun _ _ cached => .inl cached⟩
  | saved written =>
    subst written
    exact ⟨⟨_, Function.update_self .., le_rfl⟩, rises_update ahead, fun _ _ cached => .inl cached⟩
  | unsaved _ same =>
    subst same
    exact ⟨trivial, .refl, fun _ _ cached => .inl cached⟩
  | stamped same =>
    subst same
    exact ⟨ahead, .refl, fun _ _ cached => .inl cached⟩
  | cached written =>
    subst written
    refine ⟨trivial, .refl, ?_⟩
    intro other snapshot cached
    dsimp only at cached
    by_cases mine : other = id
    · subst mine
      rw [Function.update_self] at cached
      cases cached
      exact .inr ahead
    · rw [Function.update_of_ne mine] at cached
      exact .inl cached

/-- The tasks of a worker are for distinct aggregates and are ahead of the table, and its cache
is not. -/
structure Ascending (codec : Codec Value) (accountCodec : AccountCodec Document) (ttl : Nat)
    (fleet : SnapshotFleet Unit Value Document) : Prop where
  consistent : Consistent codec accountCodec ttl fleet
  distinct : ((fleet.instances ()).tasks.map SnapshotTask.aggregateId).Nodup
  tasks : ∀ task ∈ (fleet.instances ()).tasks, ∃ phase, At codec accountCodec ttl task.aggregateId task.program phase ∧
    Ahead fleet.events fleet.snapshots task.aggregateId phase
  cache : ∀ id snapshot, (fleet.instances ()).cache id = some snapshot → Reached fleet.snapshots id snapshot.version

private theorem ahead_appended {later : Table Value} {phase : Phase Document} (ahead : Ahead events snapshots id phase)
    (grows : events.currentVersion id ≤ later.currentVersion id) : Ahead later snapshots id phase := by
  cases phase with
  | fetching => exact lt_of_lt_of_le ahead grows
  | _ => exact ahead

private theorem ahead_apart {later : Uuid → Option (Snapshot Document)} {phase : Phase Document}
    (ahead : Ahead events snapshots id phase) (same : later id = snapshots id) : Ahead events later id phase := by
  cases phase with
  | fetching => rwa [Ahead, versionOf, same]
  | saving data version => rwa [Ahead, versionOf, same]
  | stamping data version => rwa [Ahead, Reached, same]
  | caching snapshot => rwa [Ahead, Reached, same]
  | done => trivial

private theorem grown_version {later : Table Value} {log : List AccountEvent} (grown : Table.Grows codec events later)
    (logs : Logs codec events id log) : events.currentVersion id ≤ later.currentVersion id := by
  obtain ⟨more, grows⟩ := grown id log logs
  rw [logs.currentVersion, grows.currentVersion, List.length_append]
  omega

private theorem Ascending.serves {ttl : Nat} (ascending : Ascending codec accountCodec ttl fleet)
    {front back : List (SnapshotTask Value Document)} {β : Type} {op : SnapshotCall Value Document β}
    {resume : β → Program (SnapshotCall Value Document) (Except String Unit)} {reply : β}
    {store : SnapshotStore Value Document}
    (running : (fleet.instances ()).tasks = front ++ ⟨id, .request op resume⟩ :: back)
    (served : SnapshotStore.step fails (fleet.store ()) op reply store) :
    Ascending codec accountCodec ttl (fleet.putStore () store (front ++ ⟨id, resume reply⟩ :: back)) ∧
      Rises fleet.snapshots store.snapshots := by
  have runs : ⟨id, .request op resume⟩ ∈ (fleet.instances ()).tasks := by
    rw [running]
    simp
  obtain ⟨phase, here, ahead⟩ := ascending.tasks _ runs
  obtain ⟨next, moved, there⟩ := served_moved here served
  obtain ⟨log, logs⟩ := ascending.consistent.logged id
  obtain ⟨onward, rises, cache⟩ := moved_ahead moved logs ahead
  have events : store.events = fleet.events := moved.events
  have distinct := ascending.distinct
  rw [running] at distinct
  refine ⟨⟨ascending.consistent.serves running served, ?_, ?_, ?_⟩, rises⟩
  · simpa only [putStore, Function.update_self, List.map_append, List.map_cons] using distinct
  · intro task member
    simp only [putStore, Function.update_self, events] at member ⊢
    have others (other : task ∈ front ++ back) : ∃ phase,
        At codec accountCodec ttl task.aggregateId task.program phase ∧
          Ahead fleet.events store.snapshots task.aggregateId phase := by
      have old : task ∈ (fleet.instances ()).tasks := by
        rw [running]
        exact (List.Sublist.append_left (List.sublist_cons_self _ _) front).subset other
      obtain ⟨phase, here, ahead⟩ := ascending.tasks task old
      exact ⟨phase, here, ahead_apart ahead (moved.apart _ (others_apart distinct other))⟩
    rcases List.mem_append.mp member with old | member
    · exact others (List.mem_append_left _ old)
    · rcases List.mem_cons.mp member with rfl | old
      · exact ⟨next, there, onward⟩
      · exact others (List.mem_append_right _ old)
  · intro key snapshot found
    simp only [putStore, Function.update_self] at found ⊢
    rcases cache key snapshot found with old | reached
    · exact (ascending.cache key snapshot old).rises rises
    · exact reached.rises rises

private theorem moves_ascending (moves : Moves codec accountCodec config fails before after)
    (ascending : Ascending codec accountCodec config.snapshotCacheTtlSecs before) :
    Ascending codec accountCodec config.snapshotCacheTtlSecs after ∧ Rises before.snapshots after.snapshots := by
  have consistent := moves_consistent moves ascending.consistent
  rcases moves with ticks | works | appends
  · obtain ⟨_, selects⟩ := ticks
    refine ⟨⟨consistent, ?_, ?_, ascending.cache⟩, .refl⟩
    · obtain ⟨ids, tasks, distinct, _, _⟩ := spawned_ids selects
      simp only [putInstance, Function.update_self]
      rw [tasks, List.map_map]
      simpa [Function.comp_def] using distinct
    · intro task member
      obtain ⟨ids, tasks, _, wanted, _⟩ := spawned_ids selects
      simp only [putInstance, Function.update_self] at member ⊢
      rw [tasks] at member
      obtain ⟨id, chosen, rfl⟩ := List.mem_map.mp member
      exact ⟨.fetching, rfl, (mem_stale.mp (wanted chosen)).2⟩
  · cases works with
    | waits => exact ⟨⟨consistent, ascending.distinct, ascending.tasks, ascending.cache⟩, .refl⟩
    | serves running served => exact ascending.serves running served
    | collects found => exact ⟨⟨consistent, ascending.distinct, ascending.tasks, ascending.cache⟩, .refl⟩
    | removes =>
      refine ⟨⟨consistent, ascending.distinct, ascending.tasks, ?_⟩, .refl⟩
      intro key snapshot found
      simp only [putInstance, Function.update_self] at found
      split at found
      · cases found
      · exact ascending.cache key snapshot found
  · obtain ⟨holds⟩ := appends
    refine ⟨⟨consistent, ascending.distinct, ?_, ascending.cache⟩, .refl⟩
    intro task member
    obtain ⟨phase, here, ahead⟩ := ascending.tasks task member
    obtain ⟨log, logs⟩ := ascending.consistent.logged _
    obtain ⟨old, kept⟩ := ascending.consistent.logged task.aggregateId
    exact ⟨phase, here, ahead_appended ahead (grown_version (appended_grown holds log logs) kept)⟩

private theorem run_ascending (run : ReflTransGen (Moves codec accountCodec config fails) before after)
    (ascending : Ascending codec accountCodec config.snapshotCacheTtlSecs before) :
    Ascending codec accountCodec config.snapshotCacheTtlSecs after ∧ Rises before.snapshots after.snapshots := by
  induction run with
  | refl => exact ⟨ascending, .refl⟩
  | tail _ moves ih =>
    obtain ⟨ascending, rises⟩ := ih
    obtain ⟨ascending, higher⟩ := moves_ascending moves ascending
    exact ⟨ascending, rises.trans higher⟩

/-- With one instance of the event store, the version of a snapshot never goes down and its row
never disappears, and a cached snapshot is never newer than the row. Of two instances, the one that
has read less may write last. -/
theorem single_worker_ascends {middle last : SnapshotFleet Unit Value Document}
    (logged : ∀ id, ∃ log, Logs codec events id log)
    (earlier : ReflTransGen (Moves codec accountCodec config fails) (started events) middle)
    (later : ReflTransGen (Moves codec accountCodec config fails) middle last) :
    (∀ id row, middle.snapshots id = some row →
      ∃ newer, last.snapshots id = some newer ∧ row.version ≤ newer.version) ∧
    ∀ id snapshot, (last.instances ()).cache id = some snapshot →
      ∃ row, last.snapshots id = some row ∧ snapshot.version ≤ row.version := by
  have start : Ascending codec accountCodec config.snapshotCacheTtlSecs
      (started events : SnapshotFleet Unit Value Document) :=
    ⟨.started logged, List.nodup_nil, fun _ member => (by cases member), fun _ _ found => (by cases found)⟩
  obtain ⟨ascending, _⟩ := run_ascending earlier start
  obtain ⟨final, rises⟩ := run_ascending later ascending
  exact ⟨rises, final.cache⟩

theorem opened_ascends : ∃ last : SnapshotFleet Unit AccountEvent Account,
    ReflTransGen (Moves .plain .plain { snapshotThreshold := 0 } False) (started opened) last ∧
      ∃ row, last.snapshots ⟨7⟩ = some row ∧ 1 ≤ row.version := by
  obtain ⟨last, run, found⟩ := opened_run
  exact ⟨last, run, (single_worker_ascends opened_logged run .refl).1 ⟨7⟩ _ found⟩

end Rising

section Rounds

/-- A number of rounds of a worker that nothing disturbs. A round is over when its tasks are
joined. -/
inductive Rounds (codec : Codec Value) (accountCodec : AccountCodec Document) (config : SnapshotConfig)
    (first : SnapshotFleet Unit Value Document) : Nat → SnapshotFleet Unit Value Document → Prop where
  | none : Rounds codec accountCodec config first 0 first
  | next {count : Nat} {before between after : SnapshotFleet Unit Value Document}
      (rounds : Rounds codec accountCodec config first count before)
      (ticks : Ticks codec accountCodec config before between)
      (works : ReflTransGen (Works False) between after) (joined : after.Idle ()) :
      Rounds codec accountCodec config first (count + 1) after

/-- The snapshot of an aggregate is up to date. -/
def Current (events : Table Value) (snapshots : Uuid → Option (Snapshot Document)) (id : Uuid) : Prop :=
  ∃ row, snapshots id = some row ∧ row.version = events.currentVersion id

def Catches (events : Table Value) (snapshots : Uuid → Option (Snapshot Document)) (id : Uuid) : Phase Document → Prop
  | .fetching => True
  | .saving _ version => version = events.currentVersion id
  | .stamping _ _ => Current events snapshots id
  | .caching _ => Current events snapshots id
  | .done => Current events snapshots id

private theorem Catches.apart {later : Uuid → Option (Snapshot Document)} {phase : Phase Document}
    (catches : Catches events snapshots id phase) (same : later id = snapshots id) : Catches events later id phase := by
  cases phase with
  | fetching => trivial
  | saving data version => exact catches
  | _ => rwa [Catches, Current, same]

private theorem moved_catches {ttl : Nat} {phase next : Phase Document} {store later : SnapshotStore Value Document}
    {log : List AccountEvent} {document : Document}
    (moved : Moved codec accountCodec ttl False id store later phase next) (logs : Logs codec store.events id log)
    (filled : log ≠ []) (encodes : accountCodec.toValue ((blank id).replay log) = .ok document)
    (catches : Catches store.events store.snapshots id phase) : Catches store.events later.snapshots id next := by
  cases moved with
  | fetched found _ same => exact (fetched_version logs found).trans logs.currentVersion.symm
  | gaveUp reason _ =>
    -- the rows are there and decode, so there is a document
    rcases reason with impossible | empty | ⟨error, failed⟩
    · exact impossible.elim
    · have length := Holds.length logs
      rw [show store.events.ordered id = [] from empty] at length
      exact absurd (List.length_eq_zero_iff.mp length.symm) filled
    · rw [EventStore.snapshotData, Account.applyStored_decoded _ (Holds.decoded logs)] at failed
      dsimp only at failed
      rw [encodes] at failed
      cases failed
  | saved written =>
    subst written
    exact ⟨_, Function.update_self .., catches⟩
  | unsaved impossible _ => exact impossible.elim
  | stamped same =>
    subst same
    exact catches
  | cached written =>
    subst written
    exact catches

structure Rounding (codec : Codec Value) (accountCodec : AccountCodec Document) (ttl : Nat) (ids : List Uuid)
    (start fleet : SnapshotFleet Unit Value Document) : Prop where
  events : fleet.events = start.events
  names : (fleet.instances ()).tasks.map SnapshotTask.aggregateId = ids
  apart : ∀ id, id ∉ ids → fleet.snapshots id = start.snapshots id
  tasks : ∀ task ∈ (fleet.instances ()).tasks, ∃ phase, At codec accountCodec ttl task.aggregateId task.program phase ∧
    Catches fleet.events fleet.snapshots task.aggregateId phase

def Writable (codec : Codec Value) (accountCodec : AccountCodec Document) (events : Table Value) (ids : List Uuid) :
    Prop :=
  ∀ id ∈ ids, ∃ log document, Logs codec events id log ∧ log ≠ [] ∧
    accountCodec.toValue ((blank id).replay log) = .ok document

variable {ttl : Nat} {ids : List Uuid} {start first last : SnapshotFleet Unit Value Document}

private theorem Rounding.serves (rounding : Rounding codec accountCodec ttl ids start fleet) (distinct : ids.Nodup)
    (writable : Writable codec accountCodec start.events ids)
    {front back : List (SnapshotTask Value Document)} {β : Type} {op : SnapshotCall Value Document β}
    {resume : β → Program (SnapshotCall Value Document) (Except String Unit)} {reply : β}
    {store : SnapshotStore Value Document}
    (running : (fleet.instances ()).tasks = front ++ ⟨id, .request op resume⟩ :: back)
    (served : SnapshotStore.step False (fleet.store ()) op reply store) :
    Rounding codec accountCodec ttl ids start (fleet.putStore () store (front ++ ⟨id, resume reply⟩ :: back)) := by
  obtain ⟨events, names, apart, tasks⟩ := rounding
  rw [running] at names tasks
  have mine : id ∈ ids := by
    rw [← names]
    simp
  obtain ⟨phase, here, catches⟩ := tasks ⟨id, .request op resume⟩ (by simp)
  obtain ⟨next, moved, there⟩ := served_moved here served
  obtain ⟨log, document, logs, filled, encodes⟩ := writable id mine
  rw [← events] at logs
  have caught := moved_catches moved logs filled encodes catches
  have same : store.events = fleet.events := moved.events
  refine ⟨same.trans events, ?_, ?_, ?_⟩
  · simpa only [putStore, Function.update_self, List.map_append, List.map_cons] using names
  · intro other outside
    have different : other ≠ id := fun same => outside (same ▸ mine)
    exact (moved.apart other different).trans (apart other outside)
  · rw [← names] at distinct
    intro task member
    simp only [putStore, Function.update_self, same] at member ⊢
    have others (other : task ∈ front ++ back) : ∃ phase,
        At codec accountCodec ttl task.aggregateId task.program phase ∧
          Catches fleet.events store.snapshots task.aggregateId phase := by
      obtain ⟨phase, here, catches⟩ := tasks task
        ((List.Sublist.append_left (List.sublist_cons_self _ _) front).subset other)
      exact ⟨phase, here, catches.apart (moved.apart _ (others_apart distinct other))⟩
    rcases List.mem_append.mp member with old | member
    · exact others (List.mem_append_left _ old)
    · rcases List.mem_cons.mp member with rfl | old
      · exact ⟨next, there, caught⟩
      · exact others (List.mem_append_right _ old)

private theorem works_rounding (works : Works False before after)
    (rounding : Rounding codec accountCodec ttl ids start before)
    (distinct : ids.Nodup) (writable : Writable codec accountCodec start.events ids) :
    Rounding codec accountCodec ttl ids start after := by
  cases works with
  | serves running served => exact rounding.serves distinct writable running served
  | _ => exact ⟨rounding.events, rounding.names, rounding.apart, rounding.tasks⟩

private theorem run_rounding (works : ReflTransGen (Works False) before after)
    (rounding : Rounding codec accountCodec ttl ids start before)
    (distinct : ids.Nodup) (writable : Writable codec accountCodec start.events ids) :
    Rounding codec accountCodec ttl ids start after := by
  induction works with
  | refl => exact rounding
  | tail _ step ih => exact works_rounding step ih distinct writable

private theorem At.joined {result : Except String Unit} {phase : Phase Document}
    (here : At codec accountCodec ttl id (.pure result) phase) : phase = .done := by
  cases phase with
  | fetching =>
    rw [At, createSnapshot_eq] at here
    cases here
  | done => rfl
  | _ => cases here

private theorem Rounding.current (rounding : Rounding codec accountCodec ttl ids start fleet) (joined : fleet.Idle ())
    (chosen : id ∈ ids) : Current fleet.events fleet.snapshots id := by
  rw [← rounding.names] at chosen
  obtain ⟨task, member, rfl⟩ := List.mem_map.mp chosen
  obtain ⟨phase, here, catches⟩ := rounding.tasks task member
  obtain ⟨result, pure⟩ := joined task member
  rw [pure] at here
  rw [At.joined here] at catches
  exact catches

private theorem ticks_rounding (ticks : Ticks codec accountCodec config before after) :
    ∃ ids, Rounding codec accountCodec config.snapshotCacheTtlSecs ids before after ∧ ids.Nodup ∧
      ids ⊆ stale config before.events before.snapshots ∧
      ids.length = min config.maxSnapshotsPerRun (stale config before.events before.snapshots).length := by
  obtain ⟨_, selects⟩ := ticks
  obtain ⟨ids, tasks, chosen⟩ := spawned_ids selects
  refine ⟨ids, ⟨rfl, ?_, fun _ _ => rfl, ?_⟩, chosen⟩
  · simp only [putInstance, Function.update_self]
    rw [tasks, List.map_map]
    exact List.map_id ids
  · intro task member
    simp only [putInstance, Function.update_self] at member
    rw [tasks] at member
    obtain ⟨id, _, rfl⟩ := List.mem_map.mp member
    exact ⟨.fetching, rfl, trivial⟩

private theorem rows_filled {log : List AccountEvent} (logs : Logs codec events id log)
    (rows : 0 < (events.rowsOf id).length) :
    log ≠ [] := by
  rintro rfl
  obtain ⟨row, member⟩ := List.exists_mem_of_length_pos rows
  have ordered : row ∈ events.ordered id := (List.mem_insertionSort _).mpr member
  rw [show events.ordered id = [] from List.length_eq_zero_iff.mp (Holds.length logs)] at ordered
  cases ordered

private theorem stale_writable (encodes : ∀ account, ∃ document, accountCodec.toValue account = .ok document)
    (logged : ∀ id, ∃ log, Logs codec events id log) (wanted : ids ⊆ stale config events snapshots) :
    Writable codec accountCodec events ids := by
  intro id member
  obtain ⟨log, logs⟩ := logged id
  obtain ⟨document, encoded⟩ := encodes ((blank id).replay log)
  exact ⟨log, document, logs, rows_filled logs (Nat.zero_lt_of_lt (mem_stale.mp (wanted member)).1), encoded⟩

/-- A round leaves fewer stale aggregates, by as many as it may take. -/
theorem round_works_off (encodes : ∀ account, ∃ document, accountCodec.toValue account = .ok document)
    (logged : ∀ id, ∃ log, Logs codec before.events id log) {between : SnapshotFleet Unit Value Document}
    (ticks : Ticks codec accountCodec config before between) (works : ReflTransGen (Works False) between after)
    (joined : after.Idle ()) : after.events = before.events ∧
      (stale config after.events after.snapshots).length ≤
        (stale config before.events before.snapshots).length - config.maxSnapshotsPerRun := by
  obtain ⟨ids, ticked, distinct, wanted, count⟩ := ticks_rounding ticks
  have rounding := run_rounding works ticked distinct (stale_writable encodes logged wanted)
  have fresh (id : Uuid) (chosen : id ∈ ids) : id ∉ stale config after.events after.snapshots := by
    intro remaining
    obtain ⟨row, found, version⟩ := rounding.current joined chosen
    have behind := (mem_stale.mp remaining).2
    rw [versionOf, found, ← version] at behind
    exact lt_irrefl _ behind
  have smaller : stale config after.events after.snapshots ++ ids ⊆ stale config before.events before.snapshots := by
    apply List.append_subset_of_subset_of_subset _ wanted
    intro id remaining
    have same := rounding.apart id fun chosen => fresh id chosen remaining
    rw [mem_stale, versionOf, same, rounding.events] at remaining
    exact mem_stale.mpr remaining
  have apart : (stale config after.events after.snapshots ++ ids).Nodup :=
    List.nodup_append'.mpr ⟨stale_nodup, distinct, fun id remaining chosen => fresh id chosen remaining⟩
  have size := (List.subperm_of_subset apart smaller).length_le
  rw [List.length_append, count] at size
  exact ⟨rounding.events, by omega⟩

private theorem rounds_work_off (encodes : ∀ account, ∃ document, accountCodec.toValue account = .ok document)
    (logged : ∀ id, ∃ log, Logs codec first.events id log) {count : Nat}
    (rounds : Rounds codec accountCodec config first count last) : last.events = first.events ∧
      (stale config last.events last.snapshots).length ≤
        (stale config first.events first.snapshots).length - count * config.maxSnapshotsPerRun := by
  induction rounds with
  | none => exact ⟨rfl, by omega⟩
  | next rounds ticks works joined ih =>
    obtain ⟨same, fewer⟩ := ih
    obtain ⟨kept, less⟩ := round_works_off encodes (by rwa [same]) ticks works joined
    refine ⟨kept.trans same, ?_⟩
    rw [Nat.succ_mul]
    omega

private theorem candidates_exist (config : SnapshotConfig) (events : Table Value)
    (snapshots : Uuid → Option (Snapshot Document)) : ∃ rows, Candidates config events snapshots rows := by
  let more (first second : SnapshotCandidate) : Bool := second.eventCount ≤ first.eventCount
  have sorted := @List.pairwise_mergeSort _ more
    (fun first second third above higher => decide_eq_true
      ((of_decide_eq_true higher).trans (of_decide_eq_true above)))
    (fun first second => by simp only [more, Bool.or_eq_true, decide_eq_true_eq]; exact le_total _ _)
    (SnapshotCandidate.groups config events snapshots)
  exact ⟨_, _, List.mergeSort_perm _ more, sorted.imp of_decide_eq_true, rfl⟩

private theorem step_serves {β : Type} (store : SnapshotStore Value Document) (op : SnapshotCall Value Document β) :
    ∃ reply later, SnapshotStore.step fails store op reply later := by
  cases op with
  | fetchEvents id => exact ⟨_, _, .inl ⟨rfl, rfl⟩⟩
  | saveSnapshot id snapshot => exact ⟨_, _, .inl ⟨rfl, rfl⟩⟩
  | instantNow => exact ⟨_, _, rfl, rfl⟩
  | cacheInsert id snapshot => exact ⟨(), _, rfl⟩

private theorem task_ends (program : Program (SnapshotCall Value Document) (Except String Unit))
    (front back : List (SnapshotTask Value Document)) (fleet : SnapshotFleet Unit Value Document)
    (running : (fleet.instances ()).tasks = front ++ ⟨id, program⟩ :: back) :
    ∃ result later, ReflTransGen (Works fails) fleet later ∧
      (later.instances ()).tasks = front ++ ⟨id, .pure result⟩ :: back := by
  induction program generalizing fleet with
  | pure result => exact ⟨result, fleet, .refl, running⟩
  | request op resume ih =>
    obtain ⟨reply, store, served⟩ := step_serves (fleet.store ()) op
    obtain ⟨result, later, works, ended⟩ := ih reply (fleet.putStore () store (front ++ ⟨id, resume reply⟩ :: back))
      (by simp only [putStore, Function.update_self])
    exact ⟨result, later, .head (.serves running served) works, ended⟩

private theorem round_ends (front back : List (SnapshotTask Value Document)) (fleet : SnapshotFleet Unit Value Document)
    (running : (fleet.instances ()).tasks = front ++ back) (joined : ∀ task ∈ front, ∃ result, task.program = .pure result) :
    ∃ later, ReflTransGen (Works fails) fleet later ∧ later.Idle () := by
  induction back generalizing front fleet with
  | nil =>
    refine ⟨fleet, .refl, ?_⟩
    rw [List.append_nil] at running
    rwa [Idle, running]
  | cons task back ih =>
    obtain ⟨result, middle, works, ended⟩ := task_ends task.program front back fleet running
    obtain ⟨later, more, idle⟩ := ih (front ++ [⟨task.aggregateId, .pure result⟩]) middle (by simp [ended]) (by
      intro other member
      rcases List.mem_append.mp member with old | new
      · exact joined other old
      · rw [List.mem_singleton.mp new]
        exact ⟨result, rfl⟩)
    exact ⟨later, works.trans more, idle⟩

private theorem rounds_exist (idle : first.Idle ()) (count : Nat) :
    ∃ last, Rounds codec accountCodec config first count last ∧ last.Idle () := by
  induction count with
  | zero => exact ⟨first, .none, idle⟩
  | succ count ih =>
    obtain ⟨before, rounds, idle⟩ := ih
    obtain ⟨rows, selects⟩ := candidates_exist config before.events before.snapshots
    have ticks : Ticks codec accountCodec config before _ := .ticks idle selects
    obtain ⟨after, works, joined⟩ := round_ends [] _ _ rfl (fun _ member => by cases member)
    exact ⟨after, .next rounds ticks works joined, joined⟩

private theorem rounds_run {count : Nat} (rounds : Rounds codec accountCodec config first count last) :
    ReflTransGen (Moves codec accountCodec config False) first last := by
  induction rounds with
  | none => exact .refl
  | next _ ticks works _ ih =>
    exact (ih.tail (.inl ticks)).trans (ReflTransGen.mono (fun _ _ step => .inr (.inl step)) _ _ works)

private theorem faithful_version {data : Document} {version : Int}
    (faithful : Faithful codec accountCodec events id data version) :
    version ≤ events.currentVersion id := by
  obtain ⟨log, more, logs, _, rfl, _⟩ := faithful
  rw [logs.currentVersion, List.length_append]
  omega

/-- From any time on at which a worker is between two rounds, rounds can follow one another, and
however they go, as many as it takes at a hundred aggregates each bring the snapshot of every
aggregate above the threshold up to date. -/
theorem rounds_catch_up {count : Nat} (logged : ∀ id, ∃ log, Logs codec events id log)
    (encodes : ∀ account, ∃ document, accountCodec.toValue account = .ok document)
    (run : ReflTransGen (Moves codec accountCodec config fails) (started events) first) (idle : first.Idle ())
    (enough : (stale config first.events first.snapshots).length ≤ count * config.maxSnapshotsPerRun) :
    (∃ last, Rounds codec accountCodec config first count last) ∧
    ∀ last, Rounds codec accountCodec config first count last →
      ∀ id, config.snapshotThreshold < (last.events.rowsOf id).length → Current last.events last.snapshots id := by
  have consistent := run_consistent run (.started logged)
  obtain ⟨last, rounds, _⟩ := rounds_exist idle count
  refine ⟨⟨last, rounds⟩, ?_⟩
  intro last rounds id many
  have later := run_consistent (rounds_run rounds) consistent
  obtain ⟨_, fewer⟩ := rounds_work_off encodes consistent.logged rounds
  have none_left : stale config last.events last.snapshots = [] := List.length_eq_zero_iff.mp (by omega)
  have reached : last.events.currentVersion id ≤ versionOf last.snapshots id := by
    by_contra behind
    have wanted := mem_stale.mpr ⟨many, not_le.mp behind⟩
    rw [none_left] at wanted
    cases wanted
  cases found : last.snapshots id with
  | none =>
    -- the aggregate has rows, so its version is above zero
    obtain ⟨log, logs⟩ := later.logged id
    have filled := rows_filled logs (Nat.zero_lt_of_lt many)
    rw [versionOf, found, logs.currentVersion] at reached
    exact absurd reached (by simpa using filled)
  | some row =>
    rw [versionOf, found] at reached
    exact ⟨row, found, le_antisymm (faithful_version (later.rows id row found)) reached⟩

theorem opened_catches_up : ∃ last : SnapshotFleet Unit AccountEvent Account,
    Rounds .plain .plain { snapshotThreshold := 0 } (started opened) 1 last ∧
      Current last.events last.snapshots ⟨7⟩ := by
  have caught := @rounds_catch_up _ _ Codec.plain AccountCodec.plain { snapshotThreshold := 0 } False opened _ 1
    opened_logged (fun account => ⟨account, rfl⟩) .refl (fun _ member => by cases member) (by decide)
  obtain ⟨last, rounds⟩ := caught.1
  have same := (rounds_work_off (fun account => ⟨account, rfl⟩) opened_logged rounds).1
  refine ⟨last, rounds, caught.2 last rounds ⟨7⟩ ?_⟩
  rw [same]
  decide

end Rounds
end BankingEs.Proofs.SnapshotRounds
