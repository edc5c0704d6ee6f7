import BankingEs.EventStore.Metrics
import BankingEs.Proofs.BulkInsert

/-! The success rate that is reported for the requests that were flushed. Accepted events and
failed requests are counted apart, and nothing keeps one count below the other. -/

namespace BankingEs.Proofs.SuccessRate
open EventStore EventStoreMetrics

variable {Value : Type}

/-- An insert counts nothing but a conflict, and that only when it fails. -/
def CountsConflict (session : Session Value) (ended : Except EventStoreError Unit × Session Value) : Prop :=
  ended.2.metrics = session.metrics ∨
    (∃ error, ended.1 = .error error) ∧ ended.2.metrics = session.metrics.record (.insertFailed true)

private theorem insertLoop_counts (database : Database) (events : List (Event Value)) (aggregateId : Uuid)
    (expectedVersion lastVersion : Int) (retries : Nat) (session : Session Value) :
    CountsConflict session (insertLoop database events aggregateId expectedVersion lastVersion retries session) := by
  induction retries using Nat.strongRecOn generalizing session with
  | ind retries ih =>
    unfold insertLoop
    split
    · exact .inl rfl
    · exact .inl rfl
    · dsimp only
      split
      · exact .inr ⟨⟨_, rfl⟩, rfl⟩
      · split
        · exact .inl rfl
        · split
          · exact .inl rfl
          · split
            · exact .inr ⟨⟨_, rfl⟩, rfl⟩
            · split
              · split
                · exact .inl rfl
                · next later => exact ih later (by omega) _
              · exact .inl rfl

theorem bulkInsert_counts (database : Database) (events : List (Event Value)) (session : Session Value) :
    CountsConflict session (bulkInsertEventsOptimized database events session) := by
  unfold bulkInsertEventsOptimized
  split
  · split
    · exact .inl rfl
    · exact insertLoop_counts _ _ _ _ _ _ _
  · exact .inl rfl

section Flush
variable {calls : Calls Value} (counts : ∀ position rows session, CountsConflict session (calls.insert position rows session))
include counts

private theorem answer_records (position : Nat) (batched : BatchedEvent) (rows : List (Event Value))
    (state : FlushState Value) :
    ∃ outcome, (answer calls position batched rows state).session.metrics = state.session.metrics.record outcome := by
  unfold answer insertResult
  cases validationError rows with
  | some error => exact ⟨.validationFailed, rfl⟩
  | none =>
    cases handlingError (calls.handlers position) rows with
    | some error => exact ⟨.handlingFailed, rfl⟩
    | none =>
      have counted := counts position rows state.session
      generalize calls.insert position rows state.session = ended at counted
      obtain ⟨result, session⟩ := ended
      -- The insert counts a conflict itself, and nobody counts its other failures.
      rcases counted with same | ⟨⟨error, failed⟩, conflict⟩
      · cases result with
        | ok value => exact ⟨.accepted rows.length, congrArg (record · (.accepted rows.length)) same⟩
        | error error => exact ⟨.insertFailed false, same⟩
      · cases failed
        exact ⟨.insertFailed true, conflict⟩

private theorem flushRequests_records (position : Nat) (batch : List BatchedEvent) (state : FlushState Value) :
    ∃ outcomes, (flushRequests calls position batch state).2.session.metrics = state.session.metrics.recordAll outcomes ∧
      (flushRequests calls position batch state).2.responses.length = state.responses.length + outcomes.length := by
  induction batch generalizing position state with
  | nil => exact ⟨[], rfl, rfl⟩
  | cons batched batch ih =>
    rw [flushRequests]
    cases calls.prepare position batched with
    | error error => exact ⟨[], rfl, rfl⟩
    | ok rows =>
      obtain ⟨outcome, recorded⟩ := answer_records counts position batched rows state
      obtain ⟨outcomes, metrics, answered⟩ := ih (position + 1) (answer calls position batched rows state)
      refine ⟨outcome :: outcomes, ?_, ?_⟩
      · rw [metrics, recorded]
        rfl
      · rw [answered, answer, List.length_append, List.length_cons]
        simp only [List.length_cons, List.length_nil]
        omega

theorem flushBatch_records (committed : Table Value) (metrics : EventStoreMetrics) (versionCache : Uuid → Option Int)
    (batch : List BatchedEvent) :
    ∃ outcomes, (flushBatch calls committed metrics versionCache batch).metrics = metrics.recordAll outcomes ∧
      (flushBatch calls committed metrics versionCache batch).responses.length = outcomes.length := by
  unfold flushBatch
  cases calls.begin with
  | error error => exact ⟨[], rfl, rfl⟩
  | ok value =>
    obtain ⟨outcomes, recorded, answered⟩ :=
      flushRequests_records counts 0 batch (.initial committed metrics versionCache)
    refine ⟨outcomes, ?_⟩
    rw [show (FlushState.initial committed metrics versionCache).responses.length = 0 from rfl, Nat.zero_add] at answered
    generalize flushRequests calls 0 batch (.initial committed metrics versionCache) = ended at recorded answered
    obtain ⟨result, state⟩ := ended
    cases result with
    | error error => exact ⟨recorded, answered⟩
    | ok value =>
      cases calls.commit with
      | error error => exact ⟨recorded, answered⟩
      | ok value => exact ⟨recorded, answered⟩

end Flush

def recorded (outcomes : List Outcome) : EventStoreMetrics := EventStoreMetrics.recordAll {} outcomes

def acceptedEvents : Outcome → Nat
  | .accepted events => events
  | _ => 0

def failedEvents : Outcome → Nat
  | .validationFailed | .handlingFailed => 1
  | _ => 0

private theorem record_counts (metrics : EventStoreMetrics) (outcome : Outcome) :
    (metrics.record outcome).eventsProcessed = metrics.eventsProcessed + acceptedEvents outcome ∧
      (metrics.record outcome).eventsFailed = metrics.eventsFailed + failedEvents outcome := by
  cases outcome with
  | validationFailed => exact ⟨rfl, rfl⟩
  | handlingFailed => exact ⟨rfl, rfl⟩
  | insertFailed conflict => cases conflict <;> exact ⟨rfl, rfl⟩
  | accepted events => exact ⟨rfl, rfl⟩

private theorem recordAll_counts (metrics : EventStoreMetrics) (outcomes : List Outcome) :
    (metrics.recordAll outcomes).eventsProcessed = metrics.eventsProcessed + (outcomes.map acceptedEvents).sum ∧
      (metrics.recordAll outcomes).eventsFailed = metrics.eventsFailed + (outcomes.map failedEvents).sum := by
  induction outcomes generalizing metrics with
  | nil => exact ⟨rfl, rfl⟩
  | cons outcome outcomes ih =>
    obtain ⟨processed, failed⟩ := ih (metrics.record outcome)
    obtain ⟨onceProcessed, onceFailed⟩ := record_counts metrics outcome
    rw [onceProcessed, Nat.add_assoc] at processed
    rw [onceFailed, Nat.add_assoc] at failed
    exact ⟨processed, failed⟩

private theorem recorded_processed (outcomes : List Outcome) :
    (recorded outcomes).eventsProcessed = (outcomes.map acceptedEvents).sum := by
  rw [recorded, (recordAll_counts {} outcomes).1, Nat.zero_add]

private theorem recorded_failed (outcomes : List Outcome) :
    (recorded outcomes).eventsFailed = (outcomes.map failedEvents).sum := by
  rw [recorded, (recordAll_counts {} outcomes).2, Nat.zero_add]

section Rate
variable (f64 : Rounding) {value : ℚ}

private theorem round_nonneg (nonneg : 0 ≤ value) : 0 ≤ f64.round value := by
  have bound := f64.monotone nonneg
  rwa [f64.round_zero] at bound

private theorem round_le_one (small : value ≤ 1) : f64.round value ≤ 1 := by
  have bound := f64.monotone small
  rwa [f64.round_one] at bound

private theorem one_le_round (large : 1 ≤ value) : 1 ≤ f64.round value := by
  have bound := f64.monotone large
  rwa [f64.round_one] at bound

private theorem round_le_hundred (small : value ≤ 100) : f64.round value ≤ 100 := by
  have bound := f64.monotone small
  rwa [f64.round_hundred] at bound

private theorem percentage_bounds {part whole : Nat} (positive : 0 < whole) (inside : part ≤ whole) :
    0 ≤ f64.round (f64.round (f64.round part / f64.round whole) * 100) ∧
      f64.round (f64.round (f64.round part / f64.round whole) * 100) ≤ 100 := by
  have whole_pos : 0 < f64.round whole := zero_lt_one.trans_le (one_le_round f64 (Nat.one_le_cast.mpr positive))
  have part_nonneg : 0 ≤ f64.round part := round_nonneg f64 part.cast_nonneg
  have part_le : f64.round part ≤ f64.round whole := f64.monotone (Nat.cast_le.mpr inside)
  have quotient_nonneg := round_nonneg f64 (div_nonneg part_nonneg whole_pos.le)
  have quotient_le := round_le_one f64 ((div_le_one whole_pos).mpr part_le)
  have hundred : (0 : ℚ) ≤ 100 := Nat.ofNat_nonneg 100
  exact ⟨round_nonneg f64 (mul_nonneg quotient_nonneg hundred),
    round_le_hundred f64 (mul_le_of_le_one_left hundred quotient_le)⟩

def Bounded (rate : Option ℚ) : Prop := ∃ percentage, rate = some percentage ∧ 0 ≤ percentage ∧ percentage ≤ 100

private theorem successRate_bounded_iff (processed failed : UInt64) :
    Bounded (successRate f64 processed failed) ↔ processed = 0 ∨ failed ≤ processed := by
  unfold successRate
  split
  · next positive =>
    have whole : 0 < processed.toNat := positive
    split
    · next inside =>
      have part : (processed - failed).toNat ≤ processed.toNat := by
        rw [UInt64.toNat_sub_of_le _ _ inside]
        exact Nat.sub_le _ _
      exact iff_of_true ⟨_, rfl, percentage_bounds f64 whole part⟩ (.inr inside)
    · next underflow =>
      refine iff_of_false ?_ ?_
      · rintro ⟨percentage, computed, _⟩
        cases computed
      · rintro (zero | inside)
        · subst zero
          exact absurd whole (by decide)
        · exact underflow inside
  · next zero =>
    have none : processed = 0 := by
      rw [← UInt64.toNat_inj]
      exact Nat.eq_zero_of_not_pos zero
    exact iff_of_true ⟨0, rfl, le_rfl, Nat.ofNat_nonneg 100⟩ (.inl none)

end Rate

private theorem getMetrics_rate (f64 : Rounding) (first second third : EventStoreMetrics) :
    (getMetrics f64 first second third).map MetricsReport.successRate =
      successRate f64 (load first.eventsProcessed) (load second.eventsFailed) := by
  dsimp only [getMetrics]
  cases successRate f64 (load first.eventsProcessed) (load second.eventsFailed) with
  | none => rfl
  | some rate => rfl

private theorem metricsReporter_rate (f64 : Rounding) (first second : EventStoreMetrics) :
    (metricsReporter f64 first second).map (fun line => line.2.2) =
      successRate f64 (load first.eventsProcessed) (load second.eventsFailed) := by
  dsimp only [metricsReporter]
  cases successRate f64 (load first.eventsProcessed) (load second.eventsFailed) with
  | none => rfl
  | some rate => rfl

private theorem loaded_iff (processed failed : Nat) :
    load processed = 0 ∨ load failed ≤ load processed ↔
      processed % 2 ^ 64 = 0 ∨ failed % 2 ^ 64 ≤ processed % 2 ^ 64 := by
  rw [← UInt64.toNat_inj, UInt64.le_iff_toNat_le]
  simp [load]

/-- `earlier` are the outcomes recorded before the processed events are loaded, `between` and
`later` those recorded before each of the next loads. The rates are sound as long as no more
requests failed a validation or a handler than events were accepted. -/
theorem rates_bounded_iff (f64 : Rounding) (earlier between later : List Outcome) :
    Bounded ((getMetrics f64 (recorded earlier) (recorded (earlier ++ between))
        (recorded (earlier ++ between ++ later))).map MetricsReport.successRate) ∧
      Bounded ((metricsReporter f64 (recorded earlier) (recorded (earlier ++ between))).map fun line => line.2.2) ↔
    (earlier.map acceptedEvents).sum % 2 ^ 64 = 0 ∨
      ((earlier ++ between).map failedEvents).sum % 2 ^ 64 ≤ (earlier.map acceptedEvents).sum % 2 ^ 64 := by
  rw [getMetrics_rate, metricsReporter_rate, and_self, successRate_bounded_iff, recorded_processed, recorded_failed,
    loaded_iff]

def accepting : Calls AccountEvent where
  codec := Codec.plain
  stamps := fun _ index => (⟨index⟩, 0)
  begin := .ok ()
  handlers := fun _ _ => []
  insert := fun _ _ session => (.ok (), session)
  commit := .ok ()

/-- One deposit; the version that it gets is valid from an expected version of 0 on. -/
def deposit (expectedVersion : Int) : BatchedEvent :=
  { aggregateId := ⟨7⟩, events := [.moneyDeposited ⟨7⟩ 1 ⟨8⟩], expectedVersion, responseTx := 0 }

/-- One event is processed and two requests fail: `1 - 2` underflows. -/
theorem one_accepted_two_failed :
    (flushBatch accepting [] {} (fun _ => none) [deposit 0, deposit (-1), deposit (-1)]).metrics =
        recorded [.accepted 1, .validationFailed, .validationFailed] ∧
      ∀ f64, getMetrics f64 (recorded [.accepted 1, .validationFailed, .validationFailed])
        (recorded [.accepted 1, .validationFailed, .validationFailed])
        (recorded [.accepted 1, .validationFailed, .validationFailed]) = none :=
  ⟨rfl, fun _ => rfl⟩

end BankingEs.Proofs.SuccessRate
