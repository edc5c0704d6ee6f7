import BankingEs.EventStore.Registry
import BankingEs.Proofs.Batching

/-! What becomes of registered validators: a flush never asks them. It refuses
with a validation error only the requests whose versions are not all positive. -/

namespace BankingEs.Proofs.Validators
open EventStore Preparation Batching

variable {Value : Type}

section HandedOver
variable {calls : Calls Value}

def Passes (calls : Calls Value) (position : Nat) (rows : List (Event Value)) : Prop :=
  validationError rows = none ∧ handlingError (calls.handlers position) rows = none

private theorem handedFrom_cons {position : Nat} {batched : BatchedEvent} {rows : List (Event Value)}
    (usable : calls.prepare position batched = .ok rows) (batch : List BatchedEvent) (entry : Nat × List (Event Value)) :
    entry ∈ handedFrom calls position (batched :: batch) ↔
      (entry = (position, rows) ∧ Passes calls position rows) ∨ entry ∈ handedFrom calls (position + 1) batch := by
  simp only [handedFrom, usable]
  split
  · next valid handled => simp [Passes, valid, handled]
  · next refused =>
    constructor
    · exact .inr
    · intro either
      rcases either with ⟨_, valid, handled⟩ | later
      · exact absurd handled (refused valid)
      · exact later

private theorem handedFrom_passes {position : Nat} {batch : List BatchedEvent} {entry : Nat × List (Event Value)}
    (handed : entry ∈ handedFrom calls position batch) : Passes calls entry.1 entry.2 := by
  induction batch generalizing position with
  | nil => cases handed
  | cons batched batch ih =>
    cases usable : calls.prepare position batched with
    | error error =>
      simp only [handedFrom, usable] at handed
      cases handed
    | ok rows =>
      rcases (handedFrom_cons usable batch entry).mp handed with ⟨rfl, passes⟩ | later
      · exact passes
      · exact ih later

private theorem handedFrom_reached {position index : Nat} {batch : List BatchedEvent} {batched : BatchedEvent}
    {rows : List (Event Value)} (prepared : Prepared calls position (batch.take index))
    (found : batch[index]? = some batched) (usable : calls.prepare (position + index) batched = .ok rows)
    (passes : Passes calls (position + index) rows) : (position + index, rows) ∈ handedFrom calls position batch := by
  induction batch generalizing position index with
  | nil => cases found
  | cons first batch ih =>
    cases index with
    | zero =>
      cases found
      exact (handedFrom_cons usable batch _).mpr (.inl ⟨rfl, passes⟩)
    | succ index =>
      rw [List.take_succ_cons] at prepared
      obtain ⟨earlier, ready⟩ := prepared.head
      rw [show position + (index + 1) = position + 1 + index by omega] at usable passes ⊢
      exact (handedFrom_cons ready batch _).mpr (.inr (ih prepared.tail (by simpa using found) usable passes))

private theorem flushRequests_handed
    {insert : Nat → List (Event Value) → Session Value → Except EventStoreError Unit × Session Value}
    {position : Nat} {batch : List BatchedEvent}
    (agree : ∀ entry ∈ handedFrom calls position batch, insert entry.1 entry.2 = calls.insert entry.1 entry.2)
    (state : FlushState Value) :
    flushRequests { calls with insert } position batch state = flushRequests calls position batch state := by
  induction batch generalizing position state with
  | nil => rfl
  | cons batched batch ih =>
    have prepare : Calls.prepare { calls with insert } position batched = calls.prepare position batched := rfl
    cases usable : calls.prepare position batched with
    | error error => simp only [flushRequests, prepare, usable]
    | ok rows =>
      have later := ih fun entry handed => agree entry ((handedFrom_cons usable batch entry).mpr (.inr handed))
      have inserted (session : Session Value) :
          insertResult { calls with insert } position rows session = insertResult calls position rows session := by
        cases valid : validationError rows with
        | some error => simp only [insertResult, valid]
        | none =>
          cases handled : handlingError (calls.handlers position) rows with
          | some error => simp only [insertResult, valid, handled]
          | none =>
            have handed := (handedFrom_cons usable batch (position, rows)).mpr (.inl ⟨rfl, valid, handled⟩)
            have same := agree _ handed
            simp only [insertResult, valid, handled]
            rw [same]
      have answered : answer { calls with insert } position batched rows state =
          answer calls position batched rows state := by
        simp only [answer, inserted]
      simp only [flushRequests, prepare, usable]
      rw [later, answered]

/-- A flush makes no other inserts: what the insert would do to rows that are not
handed over makes no difference to it. -/
theorem flushBatch_handed
    {insert : Nat → List (Event Value) → Session Value → Except EventStoreError Unit × Session Value}
    {batch : List BatchedEvent}
    (agree : ∀ entry ∈ handedOver calls batch, insert entry.1 entry.2 = calls.insert entry.1 entry.2)
    (committed : Table Value) (metrics : EventStoreMetrics) (versionCache : Uuid → Option Int) :
    flushBatch { calls with insert } committed metrics versionCache batch =
      flushBatch calls committed metrics versionCache batch := by
  cases begun : calls.begin with
  | error error => simp only [flushBatch, begun]
  | ok started =>
    simp only [handedOver, begun] at agree
    have same := flushRequests_handed agree
    simp only [begun] at same
    simp only [flushBatch, begun, same]

end HandedOver

def isHandler : Registration Value → Bool
  | .validator _ _ => false
  | .handler _ _ => true

private theorem register_handlers (registrations : List (Registration Value)) (registry stripped : Registry Value)
    (same : registry.eventHandlers = stripped.eventHandlers) :
    (registrations.foldl Registry.register registry).eventHandlers =
      ((registrations.filter isHandler).foldl Registry.register stripped).eventHandlers := by
  induction registrations generalizing registry stripped with
  | nil => exact same
  | cons registration registrations ih =>
    cases registration with
    | validator eventType validator => exact ih _ _ same
    | handler eventType handler =>
      apply ih
      simp only [Registry.register, Registry.registerHandler, same]

/-- A store without the validators flushes every batch the same way. -/
theorem flushBatch_without_validators (calls : Calls Value) (registrations : Nat → List (Registration Value))
    (committed : Table Value) (metrics : EventStoreMetrics) (versionCache : Uuid → Option Int)
    (batch : List BatchedEvent) :
    flushBatch (calls.underRegistry registrations) committed metrics versionCache batch =
      flushBatch (calls.underRegistry fun position => (registrations position).filter isHandler)
        committed metrics versionCache batch := by
  have same (position : Nat) := register_handlers (registrations position) {} {} rfl
  have stripped : calls.underRegistry registrations =
      calls.underRegistry fun position => (registrations position).filter isHandler := by
    simp only [Calls.underRegistry, Registry.registered, same]
  rw [stripped]

private theorem validationError_shape {rows : List (Event Value)} {error : EventStoreError}
    (failed : validationError rows = some error) : ∃ errors, error = .validationError errors := by
  obtain ⟨row, _, rfl⟩ := Option.map_eq_some_iff.mp failed
  exact ⟨_, rfl⟩

/-- The basic validation accepts the rows of a request that expects a version
which is not negative and leaves room for its events. -/
theorem validationError_prepared {codec : Codec Value} {aggregateId : Uuid} {version : Int}
    {events : List AccountEvent} {rows : List (Event Value)}
    (numbered : Numbered codec aggregateId version events rows) (nonempty : rows ≠ [])
    (low : -2 ^ 63 ≤ version) (high : version < 2 ^ 63) :
    validationError rows = none ↔ 0 ≤ version ∧ version + events.length < 2 ^ 63 := by
  rw [validationError_eq_none_iff]
  by_cases positive : 0 ≤ version
  · rw [numbered.valid_iff positive high]
    exact ⟨fun room => ⟨positive, room⟩, fun both => both.2⟩
  · constructor
    · intro valid
      cases numbered with
      | nil => exact absurd rfl nonempty
      | cons owner number typed stored rest =>
        rw [i64_of_bounds (by omega) (by omega)] at number
        have first := (List.forall_mem_cons.mp valid).1
        simp only [validateEvent, number, Bool.and_eq_true, decide_eq_true_eq] at first
        omega
    · intro both
      exact absurd both.1 positive

def Refused (calls : Calls Value) (committed : Table Value) (metrics : EventStoreMetrics)
    (versionCache : Uuid → Option Int) (batch : List BatchedEvent) (position : Nat) (batched : BatchedEvent)
    (rows : List (Event Value)) : Prop :=
  (position, rows) ∉ handedOver calls batch ∧
    ∃ errors, (flushBatch calls committed metrics versionCache batch).responses[position]? =
      some (batched.responseTx, .error (.validationError errors))

section Flush
variable {calls : Calls Value} {committed : Table Value} {metrics : EventStoreMetrics}
  {versionCache : Uuid → Option Int} {batch : List BatchedEvent} {position : Nat} {batched : BatchedEvent}
  {rows : List (Event Value)}

private theorem refused_iff (found : batch[position]? = some batched)
    (usable : calls.prepare position batched = .ok rows) :
    Refused calls committed metrics versionCache batch position batched rows ↔
      calls.begin = .ok () ∧ Prepared calls 0 (batch.take position) ∧ validationError rows ≠ none := by
  constructor
  · intro refused
    obtain ⟨kept, errors, answered⟩ := refused
    cases begun : calls.begin with
    | error error =>
      simp only [flushBatch, begun] at answered
      cases answered
    | ok started =>
      have prepared := flushBatch_answered begun committed metrics versionCache answered
      refine ⟨rfl, prepared, ?_⟩
      intro valid
      rw [flushBatch_response begun committed metrics versionCache prepared found usable] at answered
      cases handled : handlingError (calls.handlers position) rows with
      | none =>
        apply kept
        simp only [handedOver, begun]
        rw [← Nat.zero_add position] at usable handled ⊢
        exact handedFrom_reached prepared found usable ⟨valid, handled⟩
      | some error =>
        obtain ⟨message, rfl⟩ := handlingError_shape handled
        simp only [insertResult, valid, handled] at answered
        cases answered
  · intro all
    obtain ⟨begun, prepared, invalid⟩ := all
    obtain ⟨error, failed⟩ := Option.ne_none_iff_exists'.mp invalid
    obtain ⟨errors, rfl⟩ := validationError_shape failed
    refine ⟨?_, errors, ?_⟩
    · intro handed
      simp only [handedOver, begun] at handed
      exact invalid (handedFrom_passes handed).1
    · rw [flushBatch_response begun committed metrics versionCache prepared found usable]
      simp only [insertResult, failed]

end Flush

/-- Whichever validators are registered, a request with an event that its
validator rejects is refused exactly if the flush comes to it and its versions
are not all positive, which is so without the validator. -/
theorem rejected_refused_iff (calls : Calls Value) (registrations : Nat → List (Registration Value))
    (committed : Table Value) (metrics : EventStoreMetrics) (versionCache : Uuid → Option Int)
    (batch : List BatchedEvent) (position : Nat) (batched : BatchedEvent) (rows : List (Event Value))
    (found : batch[position]? = some batched) (usable : calls.prepare position batched = .ok rows)
    (low : -2 ^ 63 ≤ batched.expectedVersion) (high : batched.expectedVersion < 2 ^ 63)
    (rejected : ∃ row ∈ rows, (Registry.registered (registrations position)).Rejects row) :
    Refused (calls.underRegistry registrations) committed metrics versionCache batch position batched rows ↔
      calls.begin = .ok () ∧ Prepared calls 0 (batch.take position) ∧
        (batched.expectedVersion < 0 ∨ 2 ^ 63 ≤ batched.expectedVersion + batched.events.length) := by
  obtain ⟨row, member, _⟩ := rejected
  have valid := validationError_prepared (prepareFrom_numbered usable) (List.ne_nil_of_mem member) low high
  have invalid : validationError rows ≠ none ↔
      batched.expectedVersion < 0 ∨ 2 ^ 63 ≤ batched.expectedVersion + batched.events.length := by
    rw [ne_eq, valid]
    omega
  rw [← invalid]
  exact @refused_iff _ (calls.underRegistry registrations) _ _ _ _ _ _ _ found usable

private def plainCalls : Calls AccountEvent :=
  ⟨.plain, fun _ _ => (⟨1⟩, 0), .ok (), fun _ _ => [], fun _ => bulkInsertEventsOptimized .faultless, .ok ()⟩

/-- A validator that rejects every deposit. -/
private def noDeposits : Registration AccountEvent :=
  .validator "MoneyDeposited" fun _ => { isValid := false, errors := ["no deposits"], warnings := [] }

private def depositAfter (version : Int) : BatchedEvent := ⟨⟨7⟩, [.moneyDeposited ⟨7⟩ 1 ⟨9⟩], version, 0⟩

private def depositRow (version : Int) : Event AccountEvent :=
  { id := ⟨1⟩, aggregateId := ⟨7⟩, eventType := "MoneyDeposited", eventData := .moneyDeposited ⟨7⟩ 1 ⟨9⟩, version,
    timestamp := 0, metadata := { EventMetadata.default with source := "event_store" } }

private theorem deposit_rejected (version : Int) :
    ∃ row ∈ [depositRow version], (Registry.registered [noDeposits]).Rejects row :=
  ⟨_, List.mem_singleton_self _, _, rfl, rfl⟩

theorem negative_version_refused :
    Refused (plainCalls.underRegistry fun _ => [noDeposits]) [] {} (fun _ => none) [depositAfter (-1)] 0
      (depositAfter (-1)) [depositRow 0] := by
  apply (rejected_refused_iff plainCalls (fun _ => [noDeposits]) [] {} (fun _ => none) [depositAfter (-1)] 0
    (depositAfter (-1)) [depositRow 0] rfl rfl (by decide) (by decide) (deposit_rejected 0)).mpr
  refine ⟨rfl, ?_, .inl (by decide)⟩
  intro index batched none
  cases none

/-- The rejected deposit goes to the insert, whose error is answered. -/
theorem rejected_deposit_inserted :
    (∃ row ∈ [depositRow 1], (Registry.registered [noDeposits]).Rejects row) ∧
      (0, [depositRow 1]) ∈ handedOver (plainCalls.underRegistry fun _ => [noDeposits]) [depositAfter 0] ∧
      (flushBatch (plainCalls.underRegistry fun _ => [noDeposits]) [] {} (fun _ => none) [depositAfter 0]).responses =
        [(0, .error (.databaseError .rowNotFound))] := by
  refine ⟨deposit_rejected 1, ?_, rfl⟩
  exact List.mem_singleton_self _

end BankingEs.Proofs.Validators
