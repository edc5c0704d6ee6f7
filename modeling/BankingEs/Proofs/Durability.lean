import BankingEs.Proofs.Batching
import BankingEs.Proofs.BulkInsert

/-! What an acknowledgement is worth. The requests of a batch share a transaction
and are answered inside the loop, before it is known whether that transaction
commits. -/

namespace BankingEs.Proofs.Durability
open EventStore Batching BulkInsert Preparation

variable {Value : Type}

/-- How the insert of some rows ends in a transaction that is still usable. -/
inductive InsertEnd where
  | inserted
  | refused (error : EventStoreError)
  | failed (error : EventStoreError)

/-- An insert that ends in a given way at each position of the batch. -/
def insertEnding (ends : Nat → InsertEnd) (position : Nat) (rows : List (Event Value)) (session : Session Value) :
    Except EventStoreError Unit × Session Value :=
  if rows.isEmpty then (.ok (), session)
  else if session.tx.aborted then (.error (.databaseError Transaction.inFailedSqlTransaction), session)
  else match ends position with
    | .inserted => (.ok (), { session with tx := { session.tx with inserted := session.tx.inserted ++ rows } })
    | .refused error => (.error error, session)
    | .failed error => (.error error, { session with tx := { session.tx with aborted := true } })

def ending (calls : Calls Value) (ends : Nat → InsertEnd) : Calls Value :=
  { calls with insert := insertEnding ends }

inductive Fate where
  | unprepared
  | empty
  | rejected
  | ended (result : InsertEnd)

/-- What becomes of a request that finds the transaction usable. -/
def fate (calls : Calls Value) (ends : Nat → InsertEnd) (position : Nat) (batched : BatchedEvent) : Fate :=
  match calls.prepare position batched with
  | .error _ => .unprepared
  | .ok [] => .empty
  | .ok (row :: rows) =>
    if validationError (row :: rows) = none ∧ handlingError (calls.handlers position) (row :: rows) = none then
      .ended (ends position)
    else .rejected

/-- The request makes the whole batch roll back. -/
def Fate.spoils : Fate → Bool
  | .unprepared | .ended (.failed _) => true
  | .empty | .rejected | .ended .inserted | .ended (.refused _) => false

inductive Answered (rows : List (Event Value)) (before after : Transaction Value) :
    Fate → Except EventStoreError Unit → Prop where
  | empty (nothing : rows = []) (same : after = before) : Answered rows before after .empty (.ok ())
  | rejected {error : EventStoreError} (same : after = before) : Answered rows before after .rejected (.error error)
  | lost {result : InsertEnd} {error : EventStoreError} (aborted : before.aborted = true) (same : after = before) :
      Answered rows before after (.ended result) (.error error)
  | inserted (usable : before.aborted = false)
      (added : after = { before with inserted := before.inserted ++ rows }) :
      Answered rows before after (.ended .inserted) (.ok ())
  | refused {error : EventStoreError} (usable : before.aborted = false) (same : after = before) :
      Answered rows before after (.ended (.refused error)) (.error error)
  | failed {error : EventStoreError} (usable : before.aborted = false)
      (aborted : after = { before with aborted := true }) :
      Answered rows before after (.ended (.failed error)) (.error error)

namespace Answered
variable {rows : List (Event Value)} {before after : Transaction Value} {fate : Fate}
  {result : Except EventStoreError Unit}

private theorem keeps_rows (answered : Answered rows before after fate result) :
    ∀ row ∈ before.inserted, row ∈ after.inserted := by
  intro row member
  cases answered with
  | inserted _ added =>
    rw [added]
    exact List.mem_append_left _ member
  | failed _ aborted => rwa [aborted]
  | _ => simp_all

private theorem keeps_aborted (answered : Answered rows before after fate result) (aborted : before.aborted = true) :
    after.aborted = true := by
  cases answered <;> simp_all

private theorem stays_usable (answered : Answered rows before after fate result) (clean : fate.spoils = false)
    (usable : before.aborted = false) : after.aborted = false := by
  cases answered with
  | failed => cases clean
  | _ => simp_all

private theorem spoils_aborts (answered : Answered rows before after fate result) (spoils : ¬ fate.spoils = false) :
    after.aborted = true := by
  cases answered with
  | lost aborted same => rwa [same]
  | failed _ aborted => rw [aborted]
  | _ => exact absurd rfl spoils

private theorem of_ok (answered : Answered rows before after fate (.ok ())) :
    rows = [] ∨ before.aborted = false ∧ fate = .ended .inserted ∧ ∀ row ∈ rows, row ∈ after.inserted := by
  cases answered with
  | empty nothing => exact .inl nothing
  | inserted usable added =>
    refine .inr ⟨usable, rfl, ?_⟩
    intro row member
    rw [added]
    exact List.mem_append_right _ member

private theorem ok_of_inserted (answered : Answered rows before after (.ended .inserted) result)
    (usable : before.aborted = false) : result = .ok () := by
  cases answered with
  | lost aborted => cases usable.symm.trans aborted
  | inserted => rfl

end Answered

section Run
variable {calls : Calls Value} {ends : Nat → InsertEnd}

private theorem insertResult_answered (ends : Nat → InsertEnd) {position : Nat} {batched : BatchedEvent}
    {rows : List (Event Value)}
    (prepared : calls.prepare position batched = .ok rows) (session : Session Value) :
    Answered rows session.tx (insertResult (ending calls ends) position rows session).2.tx
      (fate calls ends position batched) (insertResult (ending calls ends) position rows session).1 := by
  cases rows with
  | nil =>
    simp only [fate, prepared]
    exact .empty rfl rfl
  | cons row rows =>
    simp only [fate, prepared, insertResult]
    split
    · next invalid =>
      rw [if_neg (by simp [invalid])]
      exact .rejected rfl
    · next valid =>
      split
      · next unhandled =>
        have refused : handlingError (calls.handlers position) (row :: rows) ≠ none := by
          intro handled
          cases handled.symm.trans unhandled
        rw [if_neg (fun both => refused both.2)]
        exact .rejected rfl
      · next handled =>
        have passes : validationError (row :: rows) = none ∧
          handlingError (calls.handlers position) (row :: rows) = none := ⟨valid, handled⟩
        rw [if_pos passes]
        cases state : session.tx.aborted with
        | true =>
          simp only [ending, insertEnding, List.isEmpty_cons, state]
          exact .lost state rfl
        | false =>
          simp only [ending, insertEnding, List.isEmpty_cons, state]
          cases ends position with
          | inserted => exact .inserted state (by simp [state])
          | refused error => exact .refused state rfl
          | failed error => exact .failed state rfl

@[simp] theorem ending_prepare (position : Nat) (batched : BatchedEvent) :
    (ending calls ends).prepare position batched = calls.prepare position batched := rfl

/-- No request of the batch makes it roll back. -/
abbrev Clean (calls : Calls Value) (ends : Nat → InsertEnd) : Nat → List BatchedEvent → Prop :=
  Each fun position batched => (fate calls ends position batched).spoils = false

private theorem clean_prepared {position : Nat} {batch : List BatchedEvent} (clean : Clean calls ends position batch) :
    Prepared calls position batch := by
  intro index batched found
  have fine := clean index batched found
  simp only [fate] at fine
  split at fine
  · cases fine
  · next prepared => exact ⟨[], prepared⟩
  · next prepared => exact ⟨_, prepared⟩

private theorem flushRequests_keeps_rows (position : Nat) (batch : List BatchedEvent) (state : FlushState Value) :
    ∀ row ∈ state.session.tx.inserted,
      row ∈ (flushRequests (ending calls ends) position batch state).2.session.tx.inserted := by
  induction batch generalizing position state with
  | nil => exact fun row member => member
  | cons batched batch ih =>
    intro row member
    cases prepared : calls.prepare position batched with
    | error error => simpa only [flushRequests, ending_prepare, prepared] using member
    | ok rows =>
      simp only [flushRequests, ending_prepare, prepared]
      apply ih
      exact (insertResult_answered ends prepared state.session).keeps_rows row member

private theorem flushRequests_keeps_aborted (position : Nat) (batch : List BatchedEvent) (state : FlushState Value)
    (aborted : state.session.tx.aborted = true) :
    (flushRequests (ending calls ends) position batch state).2.session.tx.aborted = true := by
  induction batch generalizing position state with
  | nil => exact aborted
  | cons batched batch ih =>
    cases prepared : calls.prepare position batched with
    | error error => simpa only [flushRequests, ending_prepare, prepared] using aborted
    | ok rows =>
      simp only [flushRequests, ending_prepare, prepared]
      apply ih
      exact (insertResult_answered ends prepared state.session).keeps_aborted aborted

private theorem flushRequests_stays_usable {position : Nat} {batch : List BatchedEvent}
    (clean : Clean calls ends position batch) (state : FlushState Value)
    (usable : state.session.tx.aborted = false) :
    (flushRequests (ending calls ends) position batch state).2.session.tx.aborted = false := by
  induction batch generalizing position state with
  | nil => exact usable
  | cons batched batch ih =>
    obtain ⟨rows, prepared⟩ := (clean_prepared clean).head
    simp only [flushRequests, ending_prepare, prepared]
    apply ih clean.tail
    exact (insertResult_answered ends prepared state.session).stays_usable clean.head usable

/-- A batch that is not clean either stops at a request that cannot be prepared
or ends with the transaction aborted. -/
theorem flushRequests_spoiled {position : Nat} {batch : List BatchedEvent}
    (spoiled : ¬ Clean calls ends position batch) (state : FlushState Value) :
    (∃ error, (flushRequests (ending calls ends) position batch state).1 = .error error) ∨
      (flushRequests (ending calls ends) position batch state).2.session.tx.aborted = true := by
  induction batch generalizing position state with
  | nil => exact absurd (fun index batched found => by simp at found) spoiled
  | cons batched batch ih =>
    cases prepared : calls.prepare position batched with
    | error error => exact .inl ⟨_, by simp only [flushRequests, ending_prepare, prepared]; rfl⟩
    | ok rows =>
      simp only [flushRequests, ending_prepare, prepared]
      by_cases fine : (fate calls ends position batched).spoils = false
      · apply ih
        intro clean
        apply spoiled
        intro index other found
        cases index with
        | zero =>
          cases found
          exact fine
        | succ index =>
          have rest := clean index other (by simpa using found)
          rwa [show position + 1 + index = position + (index + 1) by omega] at rest
      · refine .inr (flushRequests_keeps_aborted _ _ _ ?_)
        exact (insertResult_answered ends prepared state.session).spoils_aborts fine

end Run

/-- Every request answered with success has all its rows in the committed table. -/
def Durable (calls : Calls Value) (batch : List BatchedEvent) (flushed : Flushed Value) : Prop :=
  ∀ position batched rows, batch[position]? = some batched → calls.prepare position batched = .ok rows →
    flushed.responses[position]? = some (batched.responseTx, .ok ()) → ∀ row ∈ rows, row ∈ flushed.committed

/-- The request would be inserted, and none before it makes the batch roll back. -/
def Acknowledged (calls : Calls Value) (ends : Nat → InsertEnd) (batch : List BatchedEvent) (position : Nat) : Prop :=
  (∃ batched, batch[position]? = some batched ∧ fate calls ends position batched = .ended .inserted) ∧
    Clean calls ends 0 (batch.take position)

/-- The transaction never begins, or it commits and no request spoils it, or the
first request that spoils it comes before any that is inserted. -/
def Safe (calls : Calls Value) (ends : Nat → InsertEnd) (batch : List BatchedEvent) : Prop :=
  calls.begin ≠ .ok () ∨ (calls.commit = .ok () ∧ Clean calls ends 0 batch) ∨
    ∀ position, ¬ Acknowledged calls ends batch position

section Batch
variable {calls : Calls Value} {ends : Nat → InsertEnd} {batch : List BatchedEvent} {committed : Table Value}
  {metrics : EventStoreMetrics} {versionCache : Uuid → Option Int}

private theorem flushBatch_unbegun (unbegun : calls.begin ≠ .ok ()) :
    (flushBatch (ending calls ends) committed metrics versionCache batch).responses = [] := by
  cases start : calls.begin with
  | error error => simp only [flushBatch, ending, start]
  | ok => exact absurd start unbegun

private theorem flushBatch_commits (begun : calls.begin = .ok ()) (commits : calls.commit = .ok ())
    (clean : Clean calls ends 0 batch) :
    (flushBatch (ending calls ends) committed metrics versionCache batch).committed = committed ++
      (flushRequests (ending calls ends) 0 batch
        (.initial committed metrics versionCache)).2.session.tx.inserted := by
  have begins : (ending calls ends).begin = .ok () := begun
  have commit : (ending calls ends).commit = .ok () := commits
  have prepared : Prepared (ending calls ends) 0 batch := clean_prepared clean
  have finished := (flushRequests_prepared prepared (.initial committed metrics versionCache)).1
  have usable := flushRequests_stays_usable clean (.initial committed metrics versionCache) rfl
  simp only [flushBatch, begins, commit]
  split
  · next run => simp [run] at finished
  · next run =>
    simp only [run] at usable
    simp [usable, run]

private theorem flushBatch_rolls_back (begun : calls.begin = .ok ())
    (fails : calls.commit ≠ .ok () ∨ ¬ Clean calls ends 0 batch) :
    (flushBatch (ending calls ends) committed metrics versionCache batch).committed = committed := by
  have begins : (ending calls ends).begin = .ok () := begun
  simp only [flushBatch, begins]
  split
  · rfl
  · next run =>
    split
    · rfl
    · next commit =>
      rcases fails with fails | spoiled
      · exact absurd commit fails
      · rcases flushRequests_spoiled spoiled (.initial committed metrics versionCache) with ⟨error, stopped⟩ | aborted
        · simp [run] at stopped
        · simp [run] at aborted
          simp [aborted]

private theorem fate_inserted {position : Nat} {batched : BatchedEvent}
    (inserted : fate calls ends position batched = .ended .inserted) :
    ∃ row rows, calls.prepare position batched = .ok (row :: rows) := by
  simp only [fate] at inserted
  split at inserted
  · cases inserted
  · cases inserted
  · next row rows prepared => exact ⟨row, rows, prepared⟩

/-- An answer with success is the end of an insert in a session nothing has spoiled. -/
private theorem acknowledged_of_ok (begun : calls.begin = .ok ()) {position : Nat} {batched : BatchedEvent}
    {rows : List (Event Value)} (found : batch[position]? = some batched)
    (prepared : calls.prepare position batched = .ok rows) {row : Event Value} (member : row ∈ rows)
    (ok : (flushBatch (ending calls ends) committed metrics versionCache batch).responses[position]? =
      some (batched.responseTx, .ok ())) :
    Acknowledged calls ends batch position ∧ row ∈ (flushRequests (ending calls ends) 0 batch
      (.initial committed metrics versionCache)).2.session.tx.inserted := by
  have begins : (ending calls ends).begin = .ok () := begun
  have before := flushBatch_answered begins committed metrics versionCache ok
  have response := flushBatch_response begins committed metrics versionCache before found prepared
  have answered := insertResult_answered ends prepared
    (sessionAt (ending calls ends) committed metrics versionCache batch position)
  have result := (Prod.mk.inj (Option.some.inj (response.symm.trans ok))).2
  rw [result] at answered
  rcases answered.of_ok with nothing | ⟨usable, inserted, added⟩
  · rw [nothing] at member
    cases member
  · refine ⟨⟨⟨batched, found, inserted⟩, ?_⟩, ?_⟩
    · by_contra spoiled
      rcases flushRequests_spoiled spoiled (.initial committed metrics versionCache) with ⟨error, stopped⟩ | aborted
      · rw [(flushRequests_prepared before _).1] at stopped
        cases stopped
      · exact absurd (usable.symm.trans aborted) (by simp)
    · rw [flushRequests_at before found prepared]
      exact flushRequests_keeps_rows _ _ _ _ (added row member)

private theorem ok_of_acknowledged (begun : calls.begin = .ok ()) {position : Nat}
    (acknowledged : Acknowledged calls ends batch position) :
    ∃ batched row rows, batch[position]? = some batched ∧ calls.prepare position batched = .ok (row :: rows) ∧
      (flushBatch (ending calls ends) committed metrics versionCache batch).responses[position]? =
        some (batched.responseTx, .ok ()) := by
  obtain ⟨⟨batched, found, inserted⟩, clean⟩ := acknowledged
  obtain ⟨row, rows, prepared⟩ := fate_inserted inserted
  have before : Prepared (ending calls ends) 0 (batch.take position) := clean_prepared clean
  have usable := flushRequests_stays_usable clean (.initial committed metrics versionCache) rfl
  have answered := insertResult_answered ends prepared
    (sessionAt (ending calls ends) committed metrics versionCache batch position)
  rw [inserted] at answered
  have begins : (ending calls ends).begin = .ok () := begun
  refine ⟨batched, row, rows, found, prepared, ?_⟩
  rw [flushBatch_response begins committed metrics versionCache before found prepared, answered.ok_of_inserted usable]

/-- Acknowledged saves survive exactly when the batch is safe. Row ids are fresh,
as random ids are. -/
theorem acknowledged_durable_iff
    (fresh : ∀ position index, ∀ row ∈ committed, (calls.stamps position index).1 ≠ row.id) :
    Durable calls batch (flushBatch (ending calls ends) committed metrics versionCache batch) ↔
      Safe calls ends batch := by
  constructor
  · intro durable
    by_contra unsafeBatch
    simp only [Safe, not_or, not_forall, not_not] at unsafeBatch
    obtain ⟨begun, spoiled, position, acknowledged⟩ := unsafeBatch
    obtain ⟨batched, row, rows, found, prepared, ok⟩ := ok_of_acknowledged begun acknowledged
    have kept := durable position batched _ found prepared ok row List.mem_cons_self
    rw [flushBatch_rolls_back begun (not_and_or.mp spoiled)] at kept
    obtain ⟨index, drawn⟩ := prepareFrom_stamped prepared row List.mem_cons_self
    exact fresh position index row kept drawn.symm
  · intro safe position batched rows found prepared ok row member
    by_cases begun : calls.begin = .ok ()
    · obtain ⟨acknowledged, inserted⟩ := acknowledged_of_ok begun found prepared member ok
      rcases safe with unbegun | ⟨commits, clean⟩ | none
      · exact absurd begun unbegun
      · rw [flushBatch_commits begun commits clean]
        exact List.mem_append_right _ inserted
      · exact absurd acknowledged (none position)
    · rw [flushBatch_unbegun begun] at ok
      cases ok

end Batch

section Refinement
variable {calls : Calls Value} {database : Database}

/-- The store's own insert, over the database it is given. -/
def inserting (calls : Calls Value) (database : Database) : Calls Value :=
  { calls with insert := fun _ => bulkInsertEventsOptimized database }

/-- The transactions hold the same rows and are in the same state. -/
structure SameTx (left right : Transaction Value) : Prop where
  inserted : left.inserted = right.inserted
  aborted : left.aborted = right.aborted

private theorem bulkInsert_aborted (database : Database) {rows : List (Event Value)} {session : Session Value}
    (nonempty : rows ≠ [])
    (aborted : session.tx.aborted = true) :
    (bulkInsertEventsOptimized database rows session).1 =
      .error (.databaseError Transaction.inFailedSqlTransaction) := by
  obtain ⟨first, rest, rfl⟩ := List.exists_cons_of_ne_nil nonempty
  have last := List.getLast?_eq_some_getLast nonempty
  simp only [bulkInsertEventsOptimized, List.head?_cons, last, Transaction.setSerializable, Transaction.send, aborted]
  rfl

/-- Every insert the store makes ends in one of the given ways. -/
theorem bulkInsert_ends (database : Database) (rows : List (Event Value)) (session : Session Value) :
    ∃ result, ∀ (ends : Nat → InsertEnd) (position : Nat) (other : Session Value),
      ends position = result → SameTx session.tx other.tx →
      (bulkInsertEventsOptimized database rows session).1 = (insertEnding ends position rows other).1 ∧
        SameTx (bulkInsertEventsOptimized database rows session).2.tx (insertEnding ends position rows other).2.tx := by
  by_cases nonempty : rows = []
  · subst nonempty
    exact ⟨.inserted, fun _ _ _ _ same => ⟨rfl, same⟩⟩
  · have filled : rows.isEmpty = false := by simpa using nonempty
    obtain ⟨⟨result, after⟩, run⟩ : ∃ pair, bulkInsertEventsOptimized database rows session = pair := ⟨_, rfl⟩
    have ended := bulkInsert_ended _ _ nonempty _ _ _ run
    rw [run]
    cases state : session.tx.aborted with
    | true =>
      refine ⟨.inserted, ?_⟩
      intro ends position other _ same
      have failed := bulkInsert_aborted database nonempty state
      rw [run] at failed
      change result = _ at failed
      subst failed
      have lost : other.tx.aborted = true := same.aborted.symm.trans state
      simp only [insertEnding, filled, lost]
      cases ended with
      | refused usable => cases usable.symm.trans state
      | failed aborted kept => exact ⟨rfl, kept.trans same.inserted, aborted.trans lost.symm⟩
    | false =>
      have usable {other : Session Value} (same : SameTx session.tx other.tx) : other.tx.aborted = false :=
        same.aborted.symm.trans state
      cases ended with
      | inserted _ still added =>
        refine ⟨.inserted, ?_⟩
        intro ends position other finish same
        simp only [insertEnding, filled, usable same, finish]
        exact ⟨rfl, by simp [added, same.inserted], by simp [still]⟩
      | @refused error _ still kept =>
        refine ⟨.refused error, ?_⟩
        intro ends position other finish same
        simp only [insertEnding, filled, usable same, finish]
        exact ⟨rfl, kept.trans same.inserted, still.trans (usable same).symm⟩
      | @failed error lost kept =>
        refine ⟨.failed error, ?_⟩
        intro ends position other finish same
        simp only [insertEnding, filled, usable same, finish]
        exact ⟨rfl, kept.trans same.inserted, lost⟩

private theorem insertResult_ends (calls : Calls Value) (database : Database) (position : Nat)
    (rows : List (Event Value)) (session : Session Value) :
    ∃ result, ∀ (ends : Nat → InsertEnd) (other : Session Value),
      ends position = result → SameTx session.tx other.tx →
      (insertResult (inserting calls database) position rows session).1 =
          (insertResult (ending calls ends) position rows other).1 ∧
        SameTx (insertResult (inserting calls database) position rows session).2.tx
          (insertResult (ending calls ends) position rows other).2.tx := by
  obtain ⟨result, agrees⟩ := bulkInsert_ends database rows session
  refine ⟨result, ?_⟩
  intro ends other finish same
  have left : (inserting calls database).handlers = calls.handlers := rfl
  have right : (ending calls ends).handlers = calls.handlers := rfl
  simp only [insertResult, left, right]
  cases validationError rows with
  | some error => exact ⟨rfl, same⟩
  | none =>
    cases handlingError (calls.handlers position) rows with
    | some error => exact ⟨rfl, same⟩
    | none => exact agrees ends position other finish same

/-- A flush with the store's own insert is a flush in which every insert ends in
some given way: same answers, same end, same rows. -/
theorem flushRequests_refines (calls : Calls Value) (database : Database) (position : Nat) (batch : List BatchedEvent)
    (state : FlushState Value) :
    ∃ ends : Nat → InsertEnd, ∀ (actual : Nat → InsertEnd) (other : FlushState Value),
      (∀ later, position ≤ later → actual later = ends later) → state.responses = other.responses →
      SameTx state.session.tx other.session.tx →
      (flushRequests (inserting calls database) position batch state).1 =
          (flushRequests (ending calls actual) position batch other).1 ∧
        (flushRequests (inserting calls database) position batch state).2.responses =
          (flushRequests (ending calls actual) position batch other).2.responses ∧
        SameTx (flushRequests (inserting calls database) position batch state).2.session.tx
          (flushRequests (ending calls actual) position batch other).2.session.tx := by
  induction batch generalizing position state with
  | nil => exact ⟨fun _ => .inserted, fun _ _ _ answers same => ⟨rfl, answers, same⟩⟩
  | cons batched batch ih =>
    have inserts : (inserting calls database).prepare position batched = calls.prepare position batched := rfl
    cases prepared : calls.prepare position batched with
    | error error =>
      refine ⟨fun _ => .inserted, ?_⟩
      intro actual other _ answers same
      simp only [flushRequests, inserts, ending_prepare, prepared]
      exact ⟨trivial, answers, same⟩
    | ok rows =>
      obtain ⟨result, here⟩ := insertResult_ends calls database position rows state.session
      obtain ⟨ends, rest⟩ := ih (position + 1) (answer (inserting calls database) position batched rows state)
      refine ⟨Function.update ends position result, ?_⟩
      intro actual other agree answers same
      simp only [flushRequests, inserts, ending_prepare, prepared]
      have finish : actual position = result := by
        rw [agree position (Nat.le_refl _), Function.update_self]
      obtain ⟨answer, held⟩ := here actual other.session finish same
      refine rest actual _ ?_ (by rw [answer_responses, answer_responses, answers, answer]) held
      intro later after
      rw [agree later (by omega), Function.update_of_ne (by omega)]

/-- Whatever statements fail, the flush is one that the condition above is about. -/
theorem flushBatch_refines (calls : Calls Value) (database : Database) (committed : Table Value)
    (metrics : EventStoreMetrics) (versionCache : Uuid → Option Int) (batch : List BatchedEvent) :
    ∃ ends, (flushBatch (inserting calls database) committed metrics versionCache batch).result =
        (flushBatch (ending calls ends) committed metrics versionCache batch).result ∧
      (flushBatch (inserting calls database) committed metrics versionCache batch).responses =
        (flushBatch (ending calls ends) committed metrics versionCache batch).responses ∧
      (flushBatch (inserting calls database) committed metrics versionCache batch).committed =
        (flushBatch (ending calls ends) committed metrics versionCache batch).committed := by
  obtain ⟨ends, refines⟩ := flushRequests_refines calls database 0 batch (.initial committed metrics versionCache)
  obtain ⟨result, answers, same⟩ := refines ends (.initial committed metrics versionCache)
    (fun _ _ => rfl) rfl ⟨rfl, rfl⟩
  refine ⟨ends, ?_⟩
  have begins : (inserting calls database).begin = (ending calls ends).begin := rfl
  have commits : (inserting calls database).commit = (ending calls ends).commit := rfl
  simp only [flushBatch, begins, commits]
  cases (ending calls ends).begin with
  | error error => exact ⟨rfl, rfl, rfl⟩
  | ok =>
    generalize flushRequests (inserting calls database) 0 batch _ = left at result answers same
    generalize flushRequests (ending calls ends) 0 batch _ = right at result answers same
    obtain ⟨finish, state⟩ := left
    obtain ⟨_, other⟩ := right
    change finish = _ at result
    subst result
    cases finish with
    | error error => exact ⟨rfl, answers, rfl⟩
    | ok =>
      cases (ending calls ends).commit with
      | error error => exact ⟨rfl, answers, rfl⟩
      | ok =>
        have rows : state.session.tx.inserted = other.session.tx.inserted := same.inserted
        have lost : state.session.tx.aborted = other.session.tx.aborted := same.aborted
        refine ⟨rfl, answers, ?_⟩
        simp only [rows, lost]

end Refinement

/-- One request that is inserted and committed. -/
theorem committed_request_durable :
    let calls : Calls AccountEvent := ⟨.plain, fun _ _ => (⟨1⟩, 0), .ok (), fun _ _ => [], fun _ _ session => (.ok (), session), .ok ()⟩
    let created := plainRow ⟨7⟩ 1 (.accountCreated ⟨7⟩ "Ann" 10)
    let batch : List BatchedEvent := [⟨⟨7⟩, [.moneyDeposited ⟨7⟩ 1 ⟨9⟩], 1, 0⟩]
    Durable calls batch (flushBatch (ending calls fun _ => .inserted) [created] {} (fun _ => none) batch) := by
  intro calls created batch
  refine (acknowledged_durable_iff ?_).mpr (.inr (.inl ⟨rfl, ?_⟩))
  · intro _ _ row member
    rw [List.mem_singleton.mp member]
    change (⟨1⟩ : Uuid) ≠ ⟨0⟩
    decide
  · intro index batched found
    cases index with
    | zero =>
      cases found
      rfl
    | succ index => cases found

/-- Two requests, the second of which fails a statement: the first was told that
it is stored, and is not. -/
theorem acknowledged_save_lost :
    let calls : Calls AccountEvent := ⟨.plain, fun _ _ => (⟨1⟩, 0), .ok (), fun _ _ => [], fun _ _ session => (.ok (), session), .ok ()⟩
    let batch : List BatchedEvent :=
      [⟨⟨7⟩, [.moneyDeposited ⟨7⟩ 1 ⟨9⟩], 1, 0⟩, ⟨⟨8⟩, [.moneyDeposited ⟨8⟩ 1 ⟨9⟩], 1, 1⟩]
    let ends : Nat → InsertEnd := fun position =>
      if position = 0 then .inserted else .failed (.databaseError (.other "connection reset"))
    ¬ Durable calls batch (flushBatch (ending calls ends) [] {} (fun _ => none) batch) := by
  intro calls batch ends durable
  have stored := durable 0 _ _ rfl rfl rfl _ List.mem_cons_self
  cases stored

end BankingEs.Proofs.Durability
