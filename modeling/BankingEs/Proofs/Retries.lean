import BankingEs.EventStore.Connection
import BankingEs.Proofs.BulkInsert

/-! The retries of `bulk_insert_events_optimized`. They are made in the transaction
that the failed statement has aborted, where the version query fails as well. -/

namespace BankingEs.Proofs.Retries
open EventStore BulkInsert

variable {σ Value : Type}

section Abort
variable (aborted : σ → Prop)

/-- A statement that fails aborts its transaction, and fails in an aborted one. -/
structure Aborting {α : Type} (statement : σ → Except SqlxError α × σ) : Prop where
  fails : ∀ tx error after, statement tx = (.error error, after) → aborted after
  refuses : ∀ tx, aborted tx → ∃ error after, statement tx = (.error error, after)

structure Aborts (connection : Connection σ Value) : Prop where
  setSerializable : Aborting aborted connection.setSerializable
  selectVersion : ∀ aggregateId, Aborting aborted (connection.selectVersion aggregateId)
  execute : ∀ query, Aborting aborted (connection.execute query)

end Abort

section Loop
variable {connection : Connection σ Value} {aborted : σ → Prop} {events : List (Event Value)} {aggregateId : Uuid}
  {expectedVersion lastVersion : Int} {session : InsertSession σ}

/-- An attempt in an aborted transaction ends the loop at its version query. -/
theorem insertLoop_aborted (aborts : Aborts aborted connection) (lost : aborted session.tx) (retries : Nat) :
    (connection.insertLoop events aggregateId expectedVersion lastVersion retries session).1 ≠ .ok () := by
  obtain ⟨error, after, failed⟩ := (aborts.selectVersion aggregateId).refuses session.tx lost
  unfold Connection.insertLoop
  simp only [failed]
  intro impossible
  cases impossible

/-- Retries never make a difference: an insert succeeds with them exactly if it does without. -/
theorem insertLoop_retries (aborts : Aborts aborted connection) (retries : Nat) :
    (connection.insertLoop events aggregateId expectedVersion lastVersion retries session).1 = .ok () ↔
      (connection.insertLoop events aggregateId expectedVersion lastVersion 0 session).1 = .ok () := by
  cases retries with
  | zero => exact Iff.rfl
  | succ retries =>
    unfold Connection.insertLoop
    split
    · exact Iff.rfl
    · exact Iff.rfl
    · dsimp only
      split
      · exact Iff.rfl
      · split
        · exact Iff.rfl
        · split
          · exact Iff.rfl
          · next failed =>
            split
            · exact Iff.rfl
            · split
              -- Only here do the two go on differently: one gives up, the other tries again.
              · have lost := (aborts.execute _).fails _ _ _ failed
                constructor
                · intro returned
                  refine absurd returned (insertLoop_aborted aborts ?_ retries)
                  exact lost
                · intro returned
                  cases returned
              · exact Iff.rfl

private theorem insertLoop_ok_iff (aborts : Aborts aborted connection) {first : Event Value} {rest : List (Event Value)}
    {middle : σ} (retries : Nat)
    (checked : connection.selectVersion aggregateId session.tx = (.ok (some first.version), middle)) :
    (connection.insertLoop (first :: rest) aggregateId first.version lastVersion retries session).1 = .ok () ↔
      rest = [] ∧ (connection.execute (insertQuery (first :: rest)) middle).1 = .ok () := by
  rw [insertLoop_retries aborts]
  unfold Connection.insertLoop
  simp only [checked, ne_eq, not_true_eq_false, if_false]
  cases rest with
  | cons second rest =>
    obtain ⟨message, refused⟩ := sequenceError_pair first second rest
    simp [refused]
  | nil =>
    have alone : sequenceError first.version [first] = none := rfl
    simp only [alone, true_and]
    rcases connection.execute (insertQuery [first]) middle with ⟨error | _, after⟩
    · dsimp only
      split
      · simp
      · split <;> simp
    · simp

end Loop

private theorem insertLoop_connected (database : Database) (events : List (Event Value)) (aggregateId : Uuid)
    (expectedVersion lastVersion : Int) (retries : Nat) (session : Session Value) :
    (Transaction.connection database).insertLoop events aggregateId expectedVersion lastVersion retries
        session.connected =
      Prod.map id Session.connected
        (EventStore.insertLoop database events aggregateId expectedVersion lastVersion retries session) := by
  induction retries using Nat.strongRecOn generalizing session with
  | ind retries ih =>
    unfold Connection.insertLoop EventStore.insertLoop
    have version : (Transaction.connection database).selectVersion aggregateId session.connected.tx =
      session.tx.selectVersion database aggregateId := rfl
    rw [version]
    rcases session.tx.selectVersion database aggregateId with ⟨error | _ | current, tx⟩
    · rfl
    · rfl
    · have insert : (Transaction.connection database).execute (insertQuery events) tx =
        tx.execute database (insertQuery events) := rfl
      dsimp only
      rw [insert]
      split
      · rfl
      · cases sequenceError expectedVersion events with
        | some message => rfl
        | none =>
          rcases tx.execute database (insertQuery events) with ⟨error | _, after⟩
          · dsimp only
            split
            · rfl
            · split
              · cases retries with
                | zero => rfl
                | succ retries => exact ih retries (Nat.lt_succ_self retries) { session with tx := after }
              · rfl
          · rfl

theorem bulkInsert_connected (database : Database) (events : List (Event Value)) (session : Session Value) :
    (Transaction.connection database).bulkInsertEventsOptimized events session.connected =
      Prod.map id Session.connected (EventStore.bulkInsertEventsOptimized database events session) := by
  unfold Connection.bulkInsertEventsOptimized EventStore.bulkInsertEventsOptimized
  have isolation : (Transaction.connection database).setSerializable session.connected.tx =
    session.tx.setSerializable database := rfl
  rw [isolation]
  rcases events.head? with _ | first
  · rfl
  · rcases events.getLast? with _ | last
    · rfl
    · rcases session.tx.setSerializable database with ⟨error | _, tx⟩
      · rfl
      · exact insertLoop_connected database _ _ _ _ _ { session with tx }

private theorem send_aborting {α : Type} {database : Database}
    {statement : Table Value → Except SqlxError (α × Table Value)}
    {run : Transaction Value → Except SqlxError α × Transaction Value}
    (sends : ∀ tx, run tx = tx.send database statement) : Aborting (fun tx => tx.aborted = true) run where
  fails tx error after failed := by
    rw [sends] at failed
    rcases send_cases database statement tx with ⟨aborted, sent⟩ | ⟨_, _, sent⟩ | ⟨_, _, _, _, sent⟩
    · rw [sent] at failed
      cases failed
      exact aborted
    · rw [sent] at failed
      cases failed
      rfl
    · rw [sent] at failed
      cases failed
  refuses tx aborted := by
    rw [sends]
    rcases send_cases database statement tx with ⟨_, sent⟩ | ⟨usable, _⟩ | ⟨usable, _⟩
    · exact ⟨_, _, sent⟩
    · cases aborted.symm.trans usable
    · cases aborted.symm.trans usable

private theorem transaction_aborts (database : Database) :
    Aborts (fun tx : Transaction Value => tx.aborted = true) (Transaction.connection database) where
  setSerializable := send_aborting (Transaction.setSerializable.eq_1 database)
  selectVersion aggregateId := send_aborting (Transaction.selectVersion.eq_1 database aggregateId)
  execute query := send_aborting (Transaction.execute.eq_1 database query)

/-- No insert into the events table ever succeeds by a retry. -/
theorem retries_futile (database : Database) (events : List (Event Value)) (aggregateId : Uuid)
    (expectedVersion lastVersion : Int) (retries : Nat) (session : Session Value) :
    (EventStore.insertLoop database events aggregateId expectedVersion lastVersion retries session).1 = .ok () ↔
      (EventStore.insertLoop database events aggregateId expectedVersion lastVersion 0 session).1 = .ok () := by
  have same := @insertLoop_retries _ _ _ _ events aggregateId expectedVersion lastVersion session.connected
    (transaction_aborts database) retries
  rw [insertLoop_connected, insertLoop_connected] at same
  exact same

section Answered

private theorem answered_aborting {α : Type} (answer : AnsweredTransaction → Except SqlxError α)
    (count : AnsweredTransaction → AnsweredTransaction) (kept : ∀ tx, (count tx).aborted = tx.aborted) :
    Aborting (fun tx : AnsweredTransaction => tx.aborted = true) fun tx => (count tx).send (answer tx) where
  fails tx error after failed := by
    unfold AnsweredTransaction.send at failed
    split at failed
    · next aborted =>
      cases failed
      exact aborted
    · split at failed
      · cases failed
      · cases failed
        rfl
  refuses tx aborted := by
    rw [← kept] at aborted
    exact ⟨_, _, if_pos aborted⟩

private theorem answers_abort (answers : Answers) :
    Aborts (fun tx : AnsweredTransaction => tx.aborted = true) (answers.connection : Connection _ Value) where
  setSerializable := answered_aborting _ id fun _ => rfl
  selectVersion _ := answered_aborting _ _ fun _ => rfl
  execute _ := answered_aborting _ _ fun _ => rfl

end Answered

/-- A request whose version check passes and whose `INSERT` fails for a passing
reason before it would succeed is inserted exactly if it has one event and there
was no failure. -/
theorem transient_retried_iff (answers : Answers) (first : Event Value) (rest : List (Event Value)) (failures : Nat)
    (metrics : EventStoreMetrics) (versionCache : Uuid → Option Int)
    (isolated : answers.setSerializable = .ok ()) (checked : answers.selectVersion 0 = .ok (some first.version))
    (transient : ∀ execution < failures, ∃ error,
      answers.execute execution = .error error ∧ error.isTransientError = true)
    (succeeds : answers.execute failures = .ok ()) :
    (answers.connection.bulkInsertEventsOptimized (first :: rest) ⟨{}, metrics, versionCache⟩).1 = .ok () ↔
      failures = 0 ∧ rest = [] := by
  have ends := List.getLast?_eq_some_getLast (List.cons_ne_nil first rest)
  have isolation : (answers.connection : Connection _ Value).setSerializable {} = (.ok (), {}) := by
    simp [Answers.connection, AnsweredTransaction.send, isolated]
  have version : (answers.connection : Connection _ Value).selectVersion first.aggregateId {} =
      (.ok (some first.version), { selected := 1 }) := by
    simp [Answers.connection, AnsweredTransaction.send, checked]
  have insert : ((answers.connection : Connection _ Value).execute (insertQuery (first :: rest))
      { selected := 1 }).1 = answers.execute 0 := by
    simp only [Answers.connection, AnsweredTransaction.send]
    cases answers.execute 0 <;> rfl
  simp only [Connection.bulkInsertEventsOptimized, List.head?_cons, ends, isolation]
  rw [insertLoop_ok_iff (answers_abort answers) maxRetries version, insert]
  cases failures with
  | zero => simp [succeeds]
  | succ failures =>
    obtain ⟨error, failed, _⟩ := transient 0 (Nat.succ_pos failures)
    simp [failed]

private def deposit : Event AccountEvent :=
  { id := ⟨1⟩, aggregateId := ⟨7⟩, eventType := "MoneyDeposited", eventData := .moneyDeposited ⟨7⟩ 1 ⟨9⟩, version := 4,
    timestamp := 0, metadata := EventMetadata.default }

private def failing (failures : Nat) : Answers :=
  { setSerializable := .ok ()
    selectVersion := fun _ => .ok (some 4)
    execute := fun execution =>
      if execution < failures then .error (.database "40001" none "could not serialize access") else .ok () }

theorem prompt_insert_returns :
    ((failing 0).connection.bulkInsertEventsOptimized [deposit] ⟨{}, {}, fun _ => none⟩).1 = .ok () := by
  apply (transient_retried_iff (failing 0) deposit [] 0 {} (fun _ => none) rfl rfl ?_ rfl).mpr ⟨rfl, rfl⟩
  intro execution before
  cases before

/-- One serialization failure, and the insert that would succeed is never sent. -/
theorem transient_failure_returned :
    (failing 1).execute 0 = .error (.database "40001" none "could not serialize access") ∧
      (failing 1).execute 1 = .ok () ∧
      ((failing 1).connection.bulkInsertEventsOptimized [deposit] ⟨{}, {}, fun _ => none⟩).1 =
        .error (.databaseError Transaction.inFailedSqlTransaction) := by
  refine ⟨rfl, rfl, ?_⟩
  simp [Connection.bulkInsertEventsOptimized, Connection.insertLoop, maxRetries, Answers.connection,
    AnsweredTransaction.send, failing, deposit, sequenceError, SqlxError.isConflict, SqlxError.isTransientError,
    SqlxError.transientErrorCodes]

end BankingEs.Proofs.Retries
