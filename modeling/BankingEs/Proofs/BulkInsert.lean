import BankingEs.EventStore.Flush

/-! What `bulk_insert_events_optimized` can do to its transaction, whatever the
database answers: insert exactly its rows, or insert nothing. -/

namespace BankingEs.Proofs.BulkInsert
open EventStore Transaction

variable {Value : Type}

private theorem row_binds (front rest : List (Bind Value)) (event : Event Value) :
    InsertQuery.row (front ++ (event.binds ++ rest))
      [front.length + 1, front.length + 1 + 1, front.length + 1 + 2, front.length + 1 + 3, front.length + 1 + 4,
        front.length + 1 + 5, front.length + 1 + 6] = some event := by
  have lookup (offset : Nat) (inside : offset < 7) :
      InsertQuery.bound (front ++ (event.binds ++ rest)) (front.length + 1 + offset) = event.binds[offset]? := by
    have small : offset < event.binds.length := inside
    rw [InsertQuery.bound, show front.length + 1 + offset - 1 = front.length + offset by omega,
      List.getElem?_append_right (by omega), Nat.add_sub_cancel_left, List.getElem?_append_left small]
  have first := lookup 0 (by omega)
  rw [Nat.add_zero] at first
  simp only [InsertQuery.row, List.mapM_cons, List.mapM_nil, first, lookup 1 (by omega), lookup 2 (by omega),
    lookup 3 (by omega), lookup 4 (by omega), lookup 5 (by omega), lookup 6 (by omega)]
  rfl

private theorem placeholders_rows (front : List (Bind Value)) (events : List (Event Value)) :
    (placeholders (front.length + 1) events).mapM (InsertQuery.row (front ++ events.flatMap Event.binds)) =
      some events := by
  induction events generalizing front with
  | nil => rfl
  | cons event events ih =>
    have tail := ih (front ++ event.binds)
    have shift : (front ++ event.binds).length + 1 = front.length + 1 + 7 := by
      rw [List.length_append]
      rfl
    rw [shift, List.append_assoc] at tail
    rw [placeholders, List.flatMap_cons, List.mapM_cons, row_binds, tail]
    rfl

/-- Every placeholder of the query is bound to its own field of its own event. -/
theorem insertQuery_rows (events : List (Event Value)) : (insertQuery events).rows = some events :=
  placeholders_rows [] events

/-- The sequence test expects the first event one version later than the version
check did, so two events never pass it. -/
theorem sequenceError_pair (first second : Event Value) (rest : List (Event Value)) :
    ∃ message, sequenceError first.version (first :: second :: rest) = some message := by
  have differs : first.version ≠ i64 (i64 first.version + 1) := by
    have once := i64_dvd first.version
    have twice := i64_dvd (i64 first.version + 1)
    omega
  simp [sequenceError, List.zipIdx_cons, differs]

/-- All a statement can do: it is ignored in an aborted transaction, it fails and
aborts the transaction, or it returns its result and adds its rows. -/
theorem send_cases {α : Type} (database : Database) (statement : Table Value → Except SqlxError (α × Table Value))
    (tx : Transaction Value) :
    (tx.aborted = true ∧ tx.send database statement = (.error inFailedSqlTransaction, { tx with sent := tx.sent + 1 })) ∨
    (tx.aborted = false ∧ ∃ error, tx.send database statement =
      (.error error, { tx with sent := tx.sent + 1, aborted := true })) ∨
    (tx.aborted = false ∧ ∃ result rows, statement tx.visible = .ok (result, rows) ∧ tx.send database statement =
      (.ok result, { tx with sent := tx.sent + 1, inserted := tx.inserted ++ rows })) := by
  cases state : tx.aborted with
  | true => exact .inl ⟨rfl, by simp [send, state]⟩
  | false =>
    refine .inr ?_
    cases fault : database.faults tx.sent with
    | some error => exact .inl ⟨rfl, error, by simp [send, state, fault]⟩
    | none =>
      cases outcome : statement tx.visible with
      | error error => exact .inl ⟨rfl, error, by simp [send, state, fault, outcome]⟩
      | ok pair => exact .inr ⟨rfl, pair.1, pair.2, rfl, by simp [send, state, fault, outcome]⟩

theorem selectVersion_cases (database : Database) (aggregateId : Uuid) (tx : Transaction Value) :
    (∃ error after, tx.selectVersion database aggregateId = (.error error, after) ∧
      after.aborted = true ∧ after.inserted = tx.inserted) ∨
    (tx.aborted = false ∧ tx.selectVersion database aggregateId =
      (.ok (tx.visible.latestVersion aggregateId), { tx with sent := tx.sent + 1 })) := by
  rcases send_cases database (fun visible => .ok (visible.latestVersion aggregateId, [])) tx with
    ⟨aborted, sent⟩ | ⟨_, error, sent⟩ | ⟨usable, result, rows, answer, sent⟩
  · exact .inl ⟨_, _, sent, aborted, rfl⟩
  · exact .inl ⟨_, _, sent, rfl, rfl⟩
  · obtain ⟨rfl, rfl⟩ := Prod.mk.inj (Except.ok.inj answer)
    exact .inr ⟨usable, by simpa [selectVersion] using sent⟩

theorem execute_cases (database : Database) (events : List (Event Value)) (tx : Transaction Value) :
    (∃ error after, tx.execute database (insertQuery events) = (.error error, after) ∧
      after.aborted = true ∧ after.inserted = tx.inserted) ∨
    (tx.aborted = false ∧ ¬ tx.visible.Conflicts events ∧ tx.execute database (insertQuery events) =
      (.ok (), { tx with sent := tx.sent + 1, inserted := tx.inserted ++ events })) := by
  simp only [execute, insertQuery_rows]
  rcases send_cases database
      (fun visible => if visible.Conflicts events then .error (uniqueViolation (remainderOf database events)) else .ok ((), events)) tx with
    ⟨aborted, sent⟩ | ⟨_, error, sent⟩ | ⟨usable, result, rows, answer, sent⟩
  · exact .inl ⟨_, _, sent, aborted, rfl⟩
  · exact .inl ⟨_, _, sent, rfl, rfl⟩
  · split at answer
    · cases answer
    · next free =>
      obtain ⟨rfl, rfl⟩ := Prod.mk.inj (Except.ok.inj answer)
      exact .inr ⟨usable, free, sent⟩

/-- How an insert ends and leaves its transaction: all rows added, none added but
the transaction still usable, or none added and the transaction lost. -/
inductive Ended (events : List (Event Value)) (before after : Transaction Value) :
    Except EventStoreError Unit → Prop where
  | inserted (usable : before.aborted = false) (still : after.aborted = false)
      (rows : after.inserted = before.inserted ++ events) : Ended events before after (.ok ())
  | refused {error : EventStoreError} (usable : before.aborted = false) (still : after.aborted = false)
      (rows : after.inserted = before.inserted) : Ended events before after (.error error)
  | failed {error : EventStoreError} (lost : after.aborted = true)
      (rows : after.inserted = before.inserted) : Ended events before after (.error error)

private theorem Ended.after_statement {events : List (Event Value)} {before middle after : Transaction Value}
    {result : Except EventStoreError Unit} (ended : Ended events middle after result)
    (usable : before.aborted = false) (rows : middle.inserted = before.inserted) :
    Ended events before after result := by
  cases ended with
  | inserted _ still added => exact .inserted usable still (by rw [added, rows])
  | refused _ still kept => exact .refused usable still (by rw [kept, rows])
  | failed lost kept => exact .failed lost (by rw [kept, rows])

private theorem insertLoop_ended (database : Database) (events : List (Event Value)) (aggregateId : Uuid)
    (expectedVersion lastVersion : Int) (retries : Nat) (session after : Session Value)
    (result : Except EventStoreError Unit)
    (run : insertLoop database events aggregateId expectedVersion lastVersion retries session = (result, after)) :
    Ended events session.tx after.tx result := by
  induction retries using Nat.strongRecOn generalizing session with
  | ind retries ih =>
    unfold insertLoop at run
    rcases selectVersion_cases database aggregateId session.tx with ⟨error, tx, read, lost, kept⟩ | ⟨usable, read⟩
    · simp only [read, Prod.mk.injEq] at run
      obtain ⟨rfl, rfl⟩ := run
      exact .failed lost kept
    · cases found : session.tx.visible.latestVersion aggregateId with
      | none =>
        simp only [read, found, Prod.mk.injEq] at run
        obtain ⟨rfl, rfl⟩ := run
        exact .refused usable usable rfl
      | some current =>
        simp only [read, found] at run
        split at run
        · obtain ⟨rfl, rfl⟩ := Prod.mk.inj run
          exact .refused usable usable rfl
        · split at run
          · obtain ⟨rfl, rfl⟩ := Prod.mk.inj run
            exact .refused usable usable rfl
          · rcases execute_cases database events { session.tx with sent := session.tx.sent + 1 } with
              ⟨error, tx, wrote, lost, kept⟩ | ⟨_, _, wrote⟩
            · simp only [wrote] at run
              split at run
              · obtain ⟨rfl, rfl⟩ := Prod.mk.inj run
                exact .failed lost kept
              · split at run
                · split at run
                  · obtain ⟨rfl, rfl⟩ := Prod.mk.inj run
                    exact .failed lost kept
                  · next later =>
                    exact (ih later (by omega) _ run).after_statement usable kept
                · obtain ⟨rfl, rfl⟩ := Prod.mk.inj run
                  exact .failed lost kept
            · simp only [wrote, Prod.mk.injEq] at run
              obtain ⟨rfl, rfl⟩ := run
              exact .inserted usable usable rfl

/-- Whatever statements fail, an insert of a non-empty list ends in one of the three ways. -/
theorem bulkInsert_ended (database : Database) (events : List (Event Value)) (nonempty : events ≠ [])
    (session after : Session Value) (result : Except EventStoreError Unit)
    (run : bulkInsertEventsOptimized database events session = (result, after)) :
    Ended events session.tx after.tx result := by
  obtain ⟨first, rest, rfl⟩ := List.exists_cons_of_ne_nil nonempty
  have last := List.getLast?_eq_some_getLast nonempty
  simp only [bulkInsertEventsOptimized, List.head?_cons, last, setSerializable] at run
  rcases send_cases database (fun _ => .ok ((), [])) session.tx with
    ⟨aborted, sent⟩ | ⟨_, error, sent⟩ | ⟨usable, _, rows, answer, sent⟩
  · simp only [sent, Prod.mk.injEq] at run
    obtain ⟨rfl, rfl⟩ := run
    exact .failed aborted rfl
  · simp only [sent, Prod.mk.injEq] at run
    obtain ⟨rfl, rfl⟩ := run
    exact .failed rfl rfl
  · obtain ⟨-, rfl⟩ := Prod.mk.inj (Except.ok.inj answer)
    simp only [sent] at run
    exact (insertLoop_ended _ _ _ _ _ _ _ _ _ run).after_statement usable (by simp)

end BankingEs.Proofs.BulkInsert
