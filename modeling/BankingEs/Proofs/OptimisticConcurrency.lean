import BankingEs.Proofs.BulkInsert
import BankingEs.Proofs.Preparation

/-! Optimistic locking of one save, flushed alone and without faults. The insert
takes the version of its first row for the expected version, so what it compares
with the table is already one too high. -/

namespace BankingEs.Proofs.OptimisticConcurrency
open EventStore Preparation

variable {Value : Type}

/-- A store whose database never fails, with any handlers registered and any hash of the partitions. -/
def faultless (codec : Codec Value) (stamps : Nat → Uuid × DateTime)
    (handlers : String → List (EventHandler Value)) (remainder : Uuid → Fin 4) : Calls Value where
  codec := codec
  stamps := fun _ => stamps
  begin := .ok ()
  handlers := fun _ => handlers
  insert := fun _ => bulkInsertEventsOptimized { remainder }
  commit := .ok ()

/-- A save succeeds at the current version and then adds exactly its events under
the next versions; at any other version it is a conflict that changes nothing. -/
def Locks (codec : Codec Value) (table : Table Value) (aggregateId : Uuid) (events : List AccountEvent)
    (expectedVersion : Int) (outcome : Except EventStoreError Unit × Table Value) : Prop :=
  if expectedVersion = table.currentVersion aggregateId then
    outcome.1 = .ok () ∧ ∃ rows, outcome.2 = table ++ rows ∧ Holds codec aggregateId expectedVersion events rows
  else
    (∃ owner expected actual, outcome.1 = .error (.optimisticConcurrencyConflict owner expected actual)) ∧
      outcome.2 = table

section Single
variable {calls : Calls Value} {table : Table Value} {metrics : EventStoreMetrics} {versionCache : Uuid → Option Int}
  {aggregateId : Uuid} {events : List AccountEvent} {expectedVersion : Int} {rows : List (Event Value)}

private abbrev session (table : Table Value) (metrics : EventStoreMetrics) (versionCache : Uuid → Option Int) :
    Session Value := (FlushState.initial table metrics versionCache).session

/-- A save that is flushed alone gets the result of its insert, and the table
gains what the transaction holds unless it was aborted. -/
theorem saveEvents_alone (begun : calls.begin = .ok ()) (commits : calls.commit = .ok ()) (nonempty : events ≠ [])
    (prepared : calls.prepare 0 ⟨aggregateId, events, expectedVersion, 0⟩ = .ok rows) :
    saveEvents calls table metrics versionCache aggregateId events expectedVersion =
      ((insertResult calls 0 rows (session table metrics versionCache)).1,
        if (insertResult calls 0 rows (session table metrics versionCache)).2.tx.aborted then table
        else table ++ (insertResult calls 0 rows (session table metrics versionCache)).2.tx.inserted) := by
  have filled : events.isEmpty = false := by simpa using nonempty
  simp only [saveEvents, filled, flushBatch, begun, flushRequests, prepared, commits, answer]
  rfl

private theorem rejected (begun : calls.begin = .ok ()) (commits : calls.commit = .ok ()) (nonempty : events ≠ [])
    (prepared : calls.prepare 0 ⟨aggregateId, events, expectedVersion, 0⟩ = .ok rows)
    {error : EventStoreError} {after : Session Value}
    (result : insertResult calls 0 rows (session table metrics versionCache) = (.error error, after))
    (kept : after.tx.aborted = true ∨ after.tx.inserted = []) :
    saveEvents calls table metrics versionCache aggregateId events expectedVersion = (.error error, table) := by
  rw [saveEvents_alone begun commits nonempty prepared, result]
  rcases kept with aborted | empty
  · simp [aborted]
  · simp [empty]

end Single

section Faultless
variable {codec : Codec Value} {stamps : Nat → Uuid × DateTime} {handlers : String → List (EventHandler Value)}
  {remainder : Uuid → Fin 4} {table : Table Value} {metrics : EventStoreMetrics} {versionCache : Uuid → Option Int} {aggregateId : Uuid}
  {expectedVersion : Int} {event : AccountEvent} {events : List AccountEvent} {rows : List (Event Value)}

private theorem selectVersion_faultless (tx : Transaction Value) (usable : tx.aborted = false) :
    tx.selectVersion { remainder } aggregateId =
      (.ok (tx.visible.latestVersion aggregateId), { tx with sent := tx.sent + 1 }) := by
  simp [Transaction.selectVersion, Transaction.send, usable]

private theorem execute_taken (remainder : Uuid → Fin 4) (tx : Transaction Value) (usable : tx.aborted = false)
    (row : Event Value)
    (taken : row.key ∈ tx.visible.map Event.key) :
    tx.execute { remainder } (insertQuery [row]) =
      (.error (Transaction.uniqueViolation (remainder row.aggregateId)), { tx with sent := tx.sent + 1, aborted := true }) := by
  have conflicts : tx.visible.Conflicts [row] := .inr ⟨row, by simp, taken⟩
  simp [Transaction.execute, Transaction.send, usable, BulkInsert.insertQuery_rows, conflicts, Transaction.remainderOf]

/-- The error names the index of a partition, which is not the constraint that the code looks for. -/
private theorem violation_unrecognised : ∀ remainder : Fin 4,
    (Transaction.uniqueViolation remainder).isConflict = false ∧
      (Transaction.uniqueViolation remainder).isTransientError = false := by
  decide

/-- A row with the latest version of its aggregate has a key that is in use. -/
private theorem latest_taken {version : Int} {row : Event Value}
    (latest : table.latestVersion aggregateId = some version)
    (owner : row.aggregateId = aggregateId) (number : row.version = version) : row.key ∈ table.map Event.key := by
  obtain ⟨⟨other, member, mine, same⟩, _⟩ := (Table.latestVersion_eq_some_iff _ _ _).mp latest
  refine List.mem_map.mpr ⟨other, member, ?_⟩
  rw [Event.key, Event.key, mine, same, owner, number]

variable (table) (metrics) (versionCache)

/-- The insert of numbered rows never succeeds: without rows in the table there
is nothing to fetch, a version that passes the check is taken, and a second row
never follows the version the first one is compared with. -/
theorem insert_outcome (low : 0 ≤ expectedVersion) (high : expectedVersion + (event :: events).length < 2 ^ 63)
    (numbered : Numbered codec aggregateId expectedVersion (event :: events) rows) :
    ∃ error after, bulkInsertEventsOptimized { remainder } rows (session table metrics versionCache) =
        (.error error, after) ∧
      ((∃ owner expected actual, error = .optimisticConcurrencyConflict owner expected actual) ↔
        ∃ current, table.latestVersion aggregateId = some current ∧ current ≠ expectedVersion + 1) := by
  cases numbered with
  | @cons _ _ _ row rows owner number typed stored rest =>
    rw [List.length_cons] at high
    have first : row.version = expectedVersion + 1 := by
      rw [number]
      exact i64_of_bounds (by omega) (by omega)
    obtain ⟨last, found⟩ : ∃ last, (row :: rows).getLast? = some last :=
      ⟨_, List.getLast?_eq_some_getLast (by simp)⟩
    have begun : (session table metrics versionCache).tx.setSerializable { remainder } =
        (.ok (), { snapshot := table, sent := 1 }) := rfl
    simp only [bulkInsertEventsOptimized, List.head?_cons, found, begun, owner, first]
    unfold insertLoop
    rw [selectVersion_faultless _ rfl]
    simp only [Transaction.visible, List.append_nil]
    cases latest : table.latestVersion aggregateId with
    | none => exact ⟨_, _, rfl, by simp⟩
    | some current =>
      by_cases reached : current = expectedVersion + 1
      · subst reached
        simp only [ne_eq, not_true_eq_false, if_false]
        cases rest with
        | nil =>
          have taken := latest_taken latest owner first
          have clash := execute_taken remainder { snapshot := table, sent := 1 + 1 } rfl row
            (by simpa [Transaction.visible] using taken)
          have alone : sequenceError (expectedVersion + 1) [row] = none := rfl
          obtain ⟨unrecognised, lasting⟩ := violation_unrecognised (remainder row.aggregateId)
          simp only [alone, clash, unrecognised, lasting]
          exact ⟨_, _, rfl, by simp⟩
        | @cons _ second events next rows _ _ _ _ tail =>
          rw [List.length_cons] at high
          obtain ⟨message, refused⟩ := BulkInsert.sequenceError_pair row next rows
          rw [first] at refused
          simp only [refused]
          exact ⟨_, _, rfl, by simp⟩
      · simp only [ne_eq, reached, not_false_iff, if_true]
        exact ⟨_, _, rfl, by simp [reached]⟩

/-- The rows prepared for a request all pass the handlers. -/
def Handled (codec : Codec Value) (stamps : Nat → Uuid × DateTime) (handlers : String → List (EventHandler Value))
    (aggregateId : Uuid) (events : List AccountEvent) (expectedVersion : Int) : Prop :=
  ∀ rows, prepareEventsForInsertOptimized codec stamps ⟨aggregateId, events, expectedVersion, 0⟩ = .ok rows →
    ∀ row ∈ rows, handleEvent handlers row = .ok ()

private theorem handled_iff (prepared :
      prepareEventsForInsertOptimized codec stamps ⟨aggregateId, events, expectedVersion, 0⟩ = .ok rows) :
    Handled codec stamps handlers aggregateId events expectedVersion ↔
      ∀ row ∈ rows, handleEvent handlers row = .ok () := by
  constructor
  · exact fun all => all rows prepared
  · intro all others same
    obtain rfl := Except.ok.inj (prepared.symm.trans same)
    exact all

variable (stamps) (handlers) (remainder) (aggregateId)

/-- A save always fails and never changes the table. It fails with a conflict
when it gets as far as the check and the check says so. -/
theorem saveEvents_outcome (encodes : ∀ event, ∃ value, codec.toValue event = .ok value) (nonempty : events ≠ [])
    (low : 0 ≤ expectedVersion) (high : expectedVersion < 2 ^ 63) :
    ∃ error, saveEvents (faultless codec stamps handlers remainder) table metrics versionCache aggregateId events
        expectedVersion = (.error error, table) ∧
      ((∃ owner expected actual, error = .optimisticConcurrencyConflict owner expected actual) ↔
        expectedVersion + events.length < 2 ^ 63 ∧
          Handled codec stamps handlers aggregateId events expectedVersion ∧
          ∃ current, table.latestVersion aggregateId = some current ∧ current ≠ expectedVersion + 1) := by
  obtain ⟨rows, prepared⟩ := prepareFrom_total encodes stamps aggregateId 0 expectedVersion events
  have numbered := prepareFrom_numbered prepared
  have valid := numbered.valid_iff low high
  have request : (faultless codec stamps handlers remainder).prepare 0 ⟨aggregateId, events, expectedVersion, 0⟩ = .ok rows :=
    prepared
  rw [handled_iff prepared, ← valid, ← validationError_eq_none_iff, ← handlingError_eq_none_iff]
  cases invalid : validationError rows with
  | some error =>
    have shape : ∃ errors, error = .validationError errors := by
      obtain ⟨row, _, rfl⟩ := Option.map_eq_some_iff.mp invalid
      exact ⟨_, rfl⟩
    obtain ⟨errors, rfl⟩ := shape
    refine ⟨_, rejected rfl rfl nonempty request (by simp only [insertResult, invalid]; rfl) (.inr rfl), ?_⟩
    simp
  | none =>
    cases unhandled : handlingError handlers rows with
    | some error =>
      obtain ⟨message, rfl⟩ := handlingError_shape unhandled
      refine ⟨_, rejected rfl rfl nonempty request
        (by simp only [insertResult, invalid, faultless, unhandled]; rfl) (.inr rfl), ?_⟩
      simp
    | none =>
      obtain ⟨event, rest, rfl⟩ := List.exists_cons_of_ne_nil nonempty
      have fits := valid.mp ((validationError_eq_none_iff rows).mp invalid)
      obtain ⟨error, after, inserted, verdict⟩ := insert_outcome table metrics versionCache low fits numbered
      have filled : rows ≠ [] := by
        cases numbered
        simp
      refine ⟨error, rejected rfl rfl nonempty request
        (by simpa only [insertResult, invalid, faultless, unhandled] using inserted) ?_, ?_⟩
      · cases BulkInsert.bulkInsert_ended _ _ filled _ _ _ inserted with
        | refused _ _ kept => exact .inr kept
        | failed lost _ => exact .inl lost
      · simpa using verdict

/-- The condition under which a save is answered as the lock demands: the
aggregate has rows, and the request is stale but not by exactly one. Versions have
to fit and the handlers to agree. -/
structure Lockable (codec : Codec Value) (stamps : Nat → Uuid × DateTime)
    (handlers : String → List (EventHandler Value)) (table : Table Value) (aggregateId : Uuid)
    (events : List AccountEvent) (expectedVersion : Int) : Prop where
  known : ∃ row ∈ table, row.aggregateId = aggregateId
  stale : expectedVersion ≠ table.currentVersion aggregateId
  distant : table.currentVersion aggregateId ≠ expectedVersion + 1
  fits : expectedVersion + events.length < 2 ^ 63
  handled : Handled codec stamps handlers aggregateId events expectedVersion

private theorem known_iff : (∃ row ∈ table, row.aggregateId = aggregateId) ↔
    ∃ current, table.latestVersion aggregateId = some current := by
  rw [← Option.isSome_iff_exists, Option.isSome_iff_ne_none, ne_eq, Table.latestVersion_eq_none_iff]
  simp

/-- Optimistic locking holds exactly for the requests that are stale in the way
above. In particular no request at the current version is ever accepted. -/
theorem saveEvents_locks_iff (encodes : ∀ event, ∃ value, codec.toValue event = .ok value) (nonempty : events ≠ [])
    (low : 0 ≤ expectedVersion) (high : expectedVersion < 2 ^ 63) :
    Locks codec table aggregateId events expectedVersion
        (saveEvents (faultless codec stamps handlers remainder) table metrics versionCache aggregateId events
          expectedVersion) ↔
      Lockable codec stamps handlers table aggregateId events expectedVersion := by
  obtain ⟨error, outcome, verdict⟩ := saveEvents_outcome stamps handlers remainder table metrics versionCache
    aggregateId encodes nonempty low high
  rw [outcome, Locks]
  constructor
  · intro locks
    split at locks
    · cases locks.1
    · next stale =>
      obtain ⟨⟨owner, expected, actual, conflict⟩, _⟩ := locks
      obtain ⟨fits, handled, current, latest, distant⟩ := verdict.mp ⟨owner, expected, actual, Except.error.inj conflict⟩
      refine ⟨(known_iff _ _).mpr ⟨current, latest⟩, stale, ?_, fits, handled⟩
      simpa [Table.currentVersion, latest] using distant
  · intro lockable
    rw [if_neg lockable.stale]
    obtain ⟨current, latest⟩ := (known_iff _ _).mp lockable.known
    have reached : table.currentVersion aggregateId = current := by simp [Table.currentVersion, latest]
    obtain ⟨owner, expected, actual, rfl⟩ := verdict.mpr
      ⟨lockable.fits, lockable.handled, current, latest, reached ▸ lockable.distant⟩
    exact ⟨⟨owner, expected, actual, rfl⟩, rfl⟩

end Faultless

/-- A stale request for an account with two stored events is a conflict. -/
theorem stale_request_locks :
    let table := [plainRow ⟨7⟩ 1 (.accountCreated ⟨7⟩ "Ann" 10), plainRow ⟨7⟩ 2 (.moneyDeposited ⟨7⟩ 5 ⟨8⟩)]
    Locks .plain table ⟨7⟩ [.moneyDeposited ⟨7⟩ 1 ⟨9⟩] 0
      (saveEvents (faultless .plain (fun _ => (⟨1⟩, 0)) (fun _ => []) (fun _ => 0)) table {} (fun _ => none) ⟨7⟩
        [.moneyDeposited ⟨7⟩ 1 ⟨9⟩] 0) := by
  refine (saveEvents_locks_iff _ _ _ _ _ _ _ (fun event => ⟨event, rfl⟩) (by simp) (by decide) (by decide)).mpr
    ⟨⟨_, List.mem_cons_self, rfl⟩, by decide, by decide, by decide, ?_⟩
  intro rows _ row _
  rfl

/-- The first event of a new account, saved at version zero, is not stored. -/
theorem first_save_fails :
    ¬ Locks .plain [] ⟨7⟩ [.accountCreated ⟨7⟩ "Ann" 10] 0
      (saveEvents (faultless .plain (fun _ => (⟨1⟩, 0)) (fun _ => []) (fun _ => 0)) [] {} (fun _ => none) ⟨7⟩
        [.accountCreated ⟨7⟩ "Ann" 10] 0) := by
  rintro ⟨succeeds, _⟩
  cases succeeds

end BankingEs.Proofs.OptimisticConcurrency
