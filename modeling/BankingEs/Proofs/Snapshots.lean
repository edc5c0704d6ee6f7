import BankingEs.EventStore.Snapshot
import BankingEs.Proofs.AccountLog

/-! A snapshot and the events after it lead to the account that all events lead to. The version
of the snapshot cuts the log, in version order, where the snapshot was taken. -/

namespace BankingEs.Proofs.Snapshots
open Async AccountRepository

variable {Value Document : Type} {codec : Codec Value} {accountCodec : AccountCodec Document}
  {table earlier extended more : Table Value} {id : Uuid}

/-- The stored events of an account, in any order, under distinct versions from one on. -/
structure Recorded (codec : Codec Value) (table : Table Value) (id : Uuid) : Prop where
  encoded : ∀ row ∈ table.rowsOf id, ∃ event, codec.toValue event = .ok row.eventData
  distinct : ((table.rowsOf id).map Event.version).Nodup
  positive : ∀ row ∈ table.rowsOf id, 1 ≤ row.version

/-- The rows of an account are the earlier ones and some of higher versions, in any order. -/
structure Extended (earlier extended more : Table Value) (id : Uuid) : Prop where
  rows : (extended.rowsOf id).Perm (earlier.rowsOf id ++ more)
  higher : ∀ old ∈ earlier.rowsOf id, ∀ row ∈ more, old.version < row.version

def tail (more : Table Value) : Table Value := more.insertionSort fun first second => first.version ≤ second.version

private theorem mem_tail {row : Event Value} : row ∈ tail more ↔ row ∈ more := List.mem_insertionSort _

private theorem ordered_extended (distinct : ((extended.rowsOf id).map Event.version).Nodup)
    (grows : Extended earlier extended more id) : extended.ordered id = earlier.ordered id ++ tail more := by
  have sorted : (earlier.ordered id ++ tail more).Pairwise fun first second => first.version ≤ second.version := by
    refine List.pairwise_append.mpr ⟨List.pairwise_insertionSort .., List.pairwise_insertionSort .., ?_⟩
    intro old oldMember row member
    exact (grows.higher old (Logs.mem_ordered.mp oldMember) row (mem_tail.mp member)).le
  have same : (extended.ordered id).Perm (earlier.ordered id ++ tail more) :=
    ((List.perm_insertionSort _ _).trans grows.rows).trans
      ((List.perm_insertionSort _ _).append (List.perm_insertionSort _ _)).symm
  apply List.Perm.eq_of_pairwise ?_ (List.pairwise_insertionSort ..) sorted same
  -- Two rows of one version are one row.
  intro first second member memberToo below above
  have memberToo : second ∈ extended.ordered id := same.mem_iff.mpr memberToo
  exact List.inj_on_of_nodup_map distinct (Logs.mem_ordered.mp member) (Logs.mem_ordered.mp memberToo)
    (le_antisymm below above)

/-- A row as the query returns it. -/
def returned (row : Event Value) : Event Value := { row with metadata := .default }

private theorem getEvents_eq (fromVersion : Option Int) : table.getEvents id fromVersion =
    ((table.ordered id).filter fun row => fromVersion.getD (-1) < row.version).map returned := by
  rw [Table.getEvents, filter_insertionSort]
  rfl

private theorem getEvents_all (positive : ∀ row ∈ table.rowsOf id, 1 ≤ row.version) :
    table.getEvents id none = (table.ordered id).map returned := by
  rw [getEvents_eq, List.filter_eq_self.mpr]
  intro row member
  have low := positive row (Logs.mem_ordered.mp member)
  simp only [Option.getD_none, decide_eq_true_eq]
  omega

private theorem getEvents_tail {last : Event Value} (distinct : ((extended.rowsOf id).map Event.version).Nodup)
    (grows : Extended earlier extended more id) (found : (earlier.ordered id).getLast? = some last) :
    extended.getEvents id (some last.version) = (tail more).map returned := by
  have member : last ∈ earlier.rowsOf id := Logs.mem_ordered.mp (List.mem_of_getLast? found)
  have old : (earlier.ordered id).filter (fun row => (some last.version).getD (-1) < row.version) = [] := by
    apply List.filter_eq_nil_iff.mpr
    intro row earlierMember
    obtain ⟨first, split⟩ := List.getLast?_eq_some_iff.mp found
    have sorted : (earlier.ordered id).Pairwise fun first second => first.version ≤ second.version :=
      List.pairwise_insertionSort ..
    rw [split] at earlierMember sorted
    have below : row.version ≤ last.version := by
      rcases List.mem_append.mp earlierMember with before | here
      · exact (List.pairwise_append.mp sorted).2.2 row before last (List.mem_singleton_self last)
      · exact (congrArg Event.version (List.mem_singleton.mp here)).le
    simpa using below
  have new : (tail more).filter (fun row => (some last.version).getD (-1) < row.version) = tail more := by
    apply List.filter_eq_self.mpr
    intro row added
    exact decide_eq_true (grows.higher last member row (mem_tail.mp added))
  rw [getEvents_eq, ordered_extended distinct grows, List.filter_append, old, new, List.nil_append]

private theorem exists_events {rows : Table Value}
    (encoded : ∀ row ∈ rows, ∃ event, codec.toValue event = .ok row.eventData) :
    ∃ events : List AccountEvent, rows.map (fun row => codec.fromValue row.eventData) = events.map .ok := by
  induction rows with
  | nil => exact ⟨[], rfl⟩
  | cons row rows ih =>
    obtain ⟨⟨event, encodes⟩, encoded⟩ := List.forall_mem_cons.mp encoded
    obtain ⟨events, decoded⟩ := ih encoded
    refine ⟨event :: events, ?_⟩
    rw [List.map_cons, List.map_cons, decoded, codec.decodes event _ encodes]

/-- What is written: the account that the rows in version order lead to, under the last version. -/
theorem createSnapshot_succeeds {fails : Prop} {ttl : Nat} {events : List AccountEvent}
    {store : SnapshotStore Value Document}
    (decoded : (store.events.ordered id).map (fun row => codec.fromValue row.eventData) = events.map .ok) :
    Succeeds (SnapshotStore.serves fails)
      (fun _ after => (store.events.ordered id = [] ∧ after.snapshots = store.snapshots) ∨
        ∃ last data, (store.events.ordered id).getLast? = some last ∧
          accountCodec.toValue ((blank id).replay events) = .ok data ∧ after.snapshots id = some ⟨data, last.version⟩)
      (EventStore.createSnapshot codec accountCodec ttl id) store := by
  have fetched : Succeeds (SnapshotStore.serves fails)
      (fun rows after => rows = store.events.ordered id ∧ after.snapshots = store.snapshots)
      (EventStore.awaitContext "Failed to fetch events for snapshot" (.fetchEvents id)) store := by
    apply Succeeds.mapError
    rintro rows after ⟨now, _, ⟨same, rfl⟩ | ⟨_, ⟨_, impossible⟩, _⟩⟩
    · exact ⟨Except.ok.inj same, rfl⟩
    · cases impossible
  apply fetched.andThen
  rintro rows middle ⟨rfl, unchanged⟩
  split
  next empty => exact Succeeds.ok (.inl ⟨List.getLast?_eq_none_iff.mp empty, unchanged⟩)
  next last found =>
    rw [EventStore.snapshotData, Account.applyStored_decoded _ decoded]
    dsimp only
    cases encoded : accountCodec.toValue ((blank id).replay events) with
    | error error => exact Succeeds.error
    | ok data =>
      have saved : Succeeds (SnapshotStore.serves fails) (fun _ after => after.snapshots id = some ⟨data, last.version⟩)
          (EventStore.awaitContext "Failed to save snapshot to database" (.saveSnapshot id ⟨data, last.version⟩)) middle := by
        apply Succeeds.mapError
        rintro reply after ⟨now, _, ⟨_, rfl⟩ | ⟨_, ⟨_, impossible⟩, _⟩⟩
        · exact Function.update_self ..
        · cases impossible
      apply saved.andThen
      rintro _ written stored createdAt read ⟨now, _, _, rfl⟩ _ after ⟨later, _, rfl⟩ _ _
      exact .inr ⟨last, data, found, rfl, stored⟩

def answers (table : Table Value) : {β : Type} → Call Value β → Option β
  | _, .getEvents aggregateId fromVersion => some (.ok (table.getEvents aggregateId fromVersion))
  | _, _ => none

def systemAnswers (table : Table Value) : {β : Type} → SystemCall Value β → Option β
  | _, .inl call => answers table call
  | _, .inr _ => none

private theorem getAccount_answered {events : List AccountEvent}
    (decoded : (table.getEvents id none).map (fun row => codec.fromValue row.eventData) = events.map .ok) :
    (EventStore.getAccount codec id).runUntil (systemAnswers table) = .inl (.ok (known id events)) := by
  have asked : (EventStore.getAccount codec id).runUntil (systemAnswers table) =
      match table.getEvents id none with
      | [] => .inl (.ok none)
      | event :: stored => .inl (((blank id).applyStored codec EventStoreError.serializationError (event :: stored)).map some) := by
    rw [EventStore.getAccount, Program.runUntil_andThen]
    change (match table.getEvents id none with | [] => _ | event :: stored => _ : Program _ _).runUntil _ = _
    cases table.getEvents id none with
    | nil => rfl
    | cons row rows => rfl
  rw [asked]
  cases rows : table.getEvents id none with
  | nil =>
    rw [rows] at decoded
    obtain rfl := List.map_eq_nil_iff.mp decoded.symm
    rfl
  | cons row stored =>
    rw [rows] at decoded
    cases events with
    | nil => cases decoded
    | cons event events =>
      dsimp only
      rw [Account.applyStored_decoded _ decoded]
      rfl

private theorem getById_answered {events : List AccountEvent}
    (decoded : (table.getEvents id none).map (fun row => codec.fromValue row.eventData) = events.map .ok) :
    (getById codec id).runUntil (answers table) = .inl (.ok (known id events)) := by
  have asked : (getById codec id).runUntil (answers table) = .inl (rehydrate codec id (.ok (table.getEvents id none))) := rfl
  rw [asked, rehydrate_decoded id decoded]

private theorem decoded_returned {rows : Table Value} :
    (rows.map returned).map (fun row => codec.fromValue row.eventData) =
    rows.map fun row => codec.fromValue row.eventData := List.map_map

/-- The account of a snapshot, with the events after the version of the snapshot applied in the
order in which they are read, is the account that both replays of the whole log return. -/
theorem snapshot_tail_replays {fails : Prop} {ttl : Nat} {store after : SnapshotStore Value Document}
    (recorded : Recorded codec extended id) (grows : Extended store.events extended more id)
    (runs : Runs (SnapshotStore.serves fails) store (EventStore.createSnapshot codec accountCodec ttl id) (.ok ()) after) :
    (store.events.rowsOf id = [] ∧ after.snapshots = store.snapshots) ∨
      ∃ snapshot account result, after.snapshots id = some snapshot ∧
        accountCodec.fromValue snapshot.snapshotData = .ok account ∧
        account.applyStored codec EventStoreError.serializationError (extended.getEvents id (some snapshot.version)) = .ok result ∧
        (EventStore.getAccount codec id).runUntil (systemAnswers extended) = .inl (.ok (some result)) ∧
        (getById codec id).runUntil (answers extended) = .inl (.ok (some result)) := by
  obtain ⟨events, decoded⟩ : ∃ events : List AccountEvent, (store.events.ordered id).map _ = events.map _ :=
    exists_events fun row member =>
      recorded.encoded row (grows.rows.mem_iff.mpr (List.mem_append_left more (Logs.mem_ordered.mp member)))
  obtain ⟨added, decodedTail⟩ : ∃ added : List AccountEvent, (tail more).map _ = added.map _ :=
    exists_events fun row member =>
      recorded.encoded row (grows.rows.mem_iff.mpr (List.mem_append_right _ (mem_tail.mp member)))
  have decodedAll : (extended.getEvents id none).map (fun row => codec.fromValue row.eventData) =
      (events ++ added).map .ok := by
    rw [getEvents_all recorded.positive, decoded_returned, ordered_extended recorded.distinct grows, List.map_append,
      decoded, decodedTail, List.map_append]
  rcases (createSnapshot_succeeds decoded).runs runs with ⟨empty, unchanged⟩ | ⟨last, data, found, encoded, written⟩
  · refine .inl ⟨List.eq_nil_iff_forall_not_mem.mpr ?_, unchanged⟩
    intro row member
    exact List.not_mem_nil (empty ▸ Logs.mem_ordered.mpr member)
  · have some : known id (events ++ added) = some (((blank id).replay events).replay added) := by
      rw [known, if_neg, Account.replay_append]
      intro none
      rw [(List.append_eq_nil_iff.mp none).1, List.map_nil, List.map_eq_nil_iff] at decoded
      rw [decoded] at found
      cases found
    refine .inr ⟨_, _, ((blank id).replay events).replay added, written, accountCodec.decodes _ _ encoded, ?_, ?_, ?_⟩
    · rw [getEvents_tail recorded.distinct grows found]
      exact Account.applyStored_decoded _ (decoded_returned.trans decodedTail)
    · rw [getAccount_answered decodedAll, some]
    · rw [getById_answered decodedAll, some]

def scrambled : Table AccountEvent :=
  [plainRow ⟨1⟩ 2 (.moneyDeposited ⟨1⟩ 5 ⟨0⟩), plainRow ⟨1⟩ 1 (.accountCreated ⟨1⟩ "" 10)]

def withdrawal : Event AccountEvent := plainRow ⟨1⟩ 4 (.moneyWithdrawn ⟨1⟩ 3 ⟨0⟩)

theorem withdrawal_after_snapshot : ∃ (after : SnapshotStore AccountEvent Account) (snapshot : Snapshot Account)
      (account result : Account),
    Runs (SnapshotStore.serves False) { events := scrambled } (EventStore.createSnapshot .plain .plain 3600 ⟨1⟩) (.ok ())
      after ∧
    after.snapshots ⟨1⟩ = some snapshot ∧ snapshot.version = 2 ∧
    AccountCodec.plain.fromValue snapshot.snapshotData = .ok account ∧
    account.applyStored .plain EventStoreError.serializationError (Table.getEvents (withdrawal :: scrambled) ⟨1⟩ (some snapshot.version)) =
      .ok result ∧
    (EventStore.getAccount .plain ⟨1⟩).runUntil (systemAnswers (withdrawal :: scrambled)) = .inl (.ok (some result)) ∧
    (getById .plain ⟨1⟩).runUntil (answers (withdrawal :: scrambled)) = .inl (.ok (some result)) := by
  have runs : Runs (SnapshotStore.serves False) { events := scrambled }
      (EventStore.createSnapshot .plain .plain 3600 ⟨1⟩) (.ok ()) _ :=
    .request _ ⟨0, le_rfl, .inl ⟨rfl, rfl⟩⟩ <| .request _ ⟨0, le_rfl, .inl ⟨rfl, rfl⟩⟩ <|
      .request _ ⟨0, le_rfl, rfl, rfl⟩ <| .request () ⟨0, le_rfl, rfl⟩ .pure
  have recorded : Recorded .plain (withdrawal :: scrambled) ⟨1⟩ := ⟨fun row _ => ⟨row.eventData, rfl⟩, by decide, by decide⟩
  have grows : Extended scrambled (withdrawal :: scrambled) [withdrawal] ⟨1⟩ := ⟨by decide, by decide⟩
  rcases snapshot_tail_replays recorded grows runs with ⟨empty, _⟩ | ⟨snapshot, account, result, written, replays⟩
  · cases empty
  · have version : snapshot.version = 2 := congrArg Snapshot.version (Option.some.inj written.symm)
    exact ⟨_, snapshot, account, result, runs, written, version, replays⟩

end BankingEs.Proofs.Snapshots
