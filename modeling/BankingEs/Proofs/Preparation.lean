import BankingEs.EventStore.Flush

/-! The rows that `prepare_events_for_insert_optimized` builds, and what the
validation and the handlers make of them. -/

namespace BankingEs.Proofs.Preparation
open EventStore

variable {Value : Type}

/-- The rows carry the events in order under the versions that follow `version`. -/
inductive Numbered (codec : Codec Value) (aggregateId : Uuid) : Int → List AccountEvent → List (Event Value) → Prop where
  | nil {version} : Numbered codec aggregateId version [] []
  | cons {version event events} {row : Event Value} {rows} (owner : row.aggregateId = aggregateId)
      (numbered : row.version = i64 (version + 1)) (typed : row.eventType = event.eventType)
      (stored : codec.fromValue row.eventData = .ok event)
      (rest : Numbered codec aggregateId (i64 (version + 1)) events rows) :
      Numbered codec aggregateId version (event :: events) (row :: rows)

private theorem prepareFrom_cons {codec : Codec Value} {stamps : Nat → Uuid × DateTime} {aggregateId : Uuid}
    {event : AccountEvent} {events : List AccountEvent} {index : Nat} {version : Int} {rows : List (Event Value)}
    (prepared : prepareFrom codec stamps aggregateId index version (event :: events) = .ok rows) :
    ∃ row rest, rows = row :: rest ∧ row.id = (stamps index).1 ∧ row.aggregateId = aggregateId ∧
      row.version = i64 (version + 1) ∧ row.eventType = event.eventType ∧
      codec.fromValue row.eventData = .ok event ∧
      prepareFrom codec stamps aggregateId (index + 1) (i64 (version + 1)) events = .ok rest := by
  simp only [prepareFrom] at prepared
  cases encoded : codec.toValue event with
  | error error => simp [encoded] at prepared
  | ok value =>
    cases tail : prepareFrom codec stamps aggregateId (index + 1) (i64 (version + 1)) events with
    | error error => simp [encoded, tail] at prepared
    | ok rest =>
      simp only [encoded, tail, Except.ok.injEq] at prepared
      exact ⟨_, rest, prepared.symm, rfl, rfl, rfl, rfl, codec.decodes _ _ encoded, rfl⟩

theorem prepareFrom_numbered {codec : Codec Value} {stamps : Nat → Uuid × DateTime} {aggregateId : Uuid}
    {events : List AccountEvent} {index : Nat} {version : Int} {rows : List (Event Value)}
    (prepared : prepareFrom codec stamps aggregateId index version events = .ok rows) :
    Numbered codec aggregateId version events rows := by
  induction events generalizing index version rows with
  | nil =>
    cases prepared
    exact .nil
  | cons event events ih =>
    obtain ⟨row, rest, rfl, _, owner, numbered, typed, stored, tail⟩ := prepareFrom_cons prepared
    exact .cons owner numbered typed stored (ih tail)

theorem Numbered.length_eq {codec : Codec Value} {aggregateId : Uuid} {version : Int} {events : List AccountEvent}
    {rows : List (Event Value)} (numbered : Numbered codec aggregateId version events rows) :
    rows.length = events.length := by
  induction numbered with
  | nil => rfl
  | cons _ _ _ _ _ ih => rw [List.length_cons, List.length_cons, ih]

/-- Every row has one of the ids drawn for its request. -/
theorem prepareFrom_stamped {codec : Codec Value} {stamps : Nat → Uuid × DateTime} {aggregateId : Uuid}
    {events : List AccountEvent} {index : Nat} {version : Int} {rows : List (Event Value)}
    (prepared : prepareFrom codec stamps aggregateId index version events = .ok rows) :
    ∀ row ∈ rows, ∃ drawn, row.id = (stamps drawn).1 := by
  induction events generalizing index version rows with
  | nil =>
    cases prepared
    simp
  | cons event events ih =>
    obtain ⟨first, rest, rfl, drawn, _, _, _, _, tail⟩ := prepareFrom_cons prepared
    intro row member
    rcases List.mem_cons.mp member with rfl | member
    · exact ⟨index, drawn⟩
    · exact ih tail row member

theorem prepareFrom_total {codec : Codec Value} (encodes : ∀ event, ∃ value, codec.toValue event = .ok value)
    (stamps : Nat → Uuid × DateTime) (aggregateId : Uuid) (index : Nat) (version : Int) (events : List AccountEvent) :
    ∃ rows, prepareFrom codec stamps aggregateId index version events = .ok rows := by
  induction events generalizing index version with
  | nil => exact ⟨[], rfl⟩
  | cons event events ih =>
    obtain ⟨value, encoded⟩ := encodes event
    obtain ⟨rest, tail⟩ := ih (index + 1) (i64 (version + 1))
    exact ⟨_, by simp only [prepareFrom, encoded, tail]; rfl⟩

private theorem eventType_nonempty (event : AccountEvent) : event.eventType.isEmpty = false := by
  cases event <;> rfl

theorem validationError_eq_none_iff (rows : List (Event Value)) :
    validationError rows = none ↔ ∀ row ∈ rows, (validateEvent row).isValid = true := by
  simp [validationError]

private theorem i64_last : i64 (2 ^ 63 - 1 + 1) = -2 ^ 63 := by decide

/-- The rows are valid exactly when no version number overflows: the sum that
wraps around is negative, and versions have to be positive. -/
theorem Numbered.valid_iff {codec : Codec Value} {aggregateId : Uuid} {version : Int} {events : List AccountEvent}
    {rows : List (Event Value)} (numbered : Numbered codec aggregateId version events rows)
    (low : 0 ≤ version) (high : version < 2 ^ 63) :
    (∀ row ∈ rows, (validateEvent row).isValid = true) ↔ version + events.length < 2 ^ 63 := by
  induction numbered with
  | nil => simpa using high
  | @cons version event events row rows owner numbered typed stored rest ih =>
    have named : row.eventType.isEmpty = false := typed ▸ eventType_nonempty event
    by_cases room : version + 1 < 2 ^ 63
    · have next : i64 (version + 1) = version + 1 := i64_of_bounds (by omega) room
      rw [next] at numbered ih
      have valid : (validateEvent row).isValid = true := by
        simp only [validateEvent, named, numbered, Bool.not_false, Bool.true_and, decide_eq_true_eq]
        omega
      have tail := ih (by omega) room
      rw [List.forall_mem_cons, List.length_cons]
      constructor
      · intro all
        have := tail.mp all.2
        omega
      · intro bound
        exact ⟨valid, tail.mpr (by omega)⟩
    · have edge : version = 2 ^ 63 - 1 := by omega
      rw [edge, i64_last] at numbered
      constructor
      · intro all
        have valid := all row (by simp)
        simp [validateEvent, numbered] at valid
      · intro bound
        rw [List.length_cons] at bound
        omega

private theorem forM_eq_ok_iff {α ε : Type} (items : List α) (action : α → Except ε Unit) :
    items.forM action = .ok () ↔ ∀ item ∈ items, action item = .ok () := by
  induction items with
  | nil => exact ⟨by simp, fun _ => rfl⟩
  | cons item items ih =>
    rw [List.forall_mem_cons, ← ih]
    change (action item >>= fun _ => items.forM action) = _ ↔ _
    cases action item with
    | error error =>
      constructor
      · intro impossible
        cases impossible
      · rintro ⟨impossible, -⟩
        cases impossible
    | ok value => exact ⟨fun rest => ⟨rfl, rest⟩, fun both => both.2⟩

private theorem forM_eq_error {α ε : Type} {items : List α} {action : α → Except ε Unit} {error : ε}
    (failed : items.forM action = .error error) : ∃ item ∈ items, action item = .error error := by
  induction items with
  | nil => cases failed
  | cons item items ih =>
    change (action item >>= fun _ => items.forM action) = _ at failed
    cases outcome : action item with
    | error reason =>
      rw [outcome] at failed
      exact ⟨item, by simp, outcome.trans failed⟩
    | ok value =>
      rw [outcome] at failed
      obtain ⟨later, member, result⟩ := ih failed
      exact ⟨later, by simp [member], result⟩

theorem handlingError_eq_none_iff (handlers : String → List (EventHandler Value)) (rows : List (Event Value)) :
    handlingError handlers rows = none ↔ ∀ row ∈ rows, handleEvent handlers row = .ok () := by
  rw [← forM_eq_ok_iff, handlingError]
  cases rows.forM (handleEvent handlers) with
  | error error => simp
  | ok value => simp

/-- A request refused by a handler is never reported as a conflict. -/
theorem handlingError_shape {handlers : String → List (EventHandler Value)} {rows : List (Event Value)}
    {error : EventStoreError} (failed : handlingError handlers rows = some error) :
    ∃ message, error = .eventHandlingError message := by
  unfold handlingError at failed
  split at failed
  · next reason outcome =>
    obtain rfl := Option.some.inj failed
    obtain ⟨row, _, handled⟩ := forM_eq_error outcome
    obtain ⟨handler, _, answered⟩ := forM_eq_error handled
    cases refused : handler row with
    | error cause =>
      rw [refused] at answered
      exact ⟨_, (Except.error.inj answered).symm⟩
    | ok value =>
      rw [refused] at answered
      cases answered
  · cases failed

end BankingEs.Proofs.Preparation
