import BankingEs.Proofs.Preparation

/-! What the queue does with its requests: `batch_processor` keeps all of them in
order, and `flush_batch` answers every request of its batch once. -/

namespace BankingEs.Proofs.Batching
open EventStore Preparation

variable {Value : Type}

def arrived : Wake → Option BatchedEvent
  | .received request => some request
  | .timeout => none

private theorem spawn_keeps (processor : Processor) :
    processor.spawn.spawned.flatten ++ processor.spawn.batch = processor.spawned.flatten ++ processor.batch := by
  simp [Processor.spawn]

theorem wake_keeps (batchSize : Nat) (processor : Processor) (wake : Wake) :
    (processor.wake batchSize wake).spawned.flatten ++ (processor.wake batchSize wake).batch =
      processor.spawned.flatten ++ processor.batch ++ (arrived wake).toList := by
  cases wake with
  | received request =>
    simp only [Processor.wake]
    split
    · rw [spawn_keeps, ← List.append_assoc]
      rfl
    · rw [← List.append_assoc]
      rfl
  | timeout =>
    simp only [Processor.wake]
    split
    · simp [arrived]
    · rw [spawn_keeps]
      simp [arrived]

private theorem wakes_keep (batchSize : Nat) (processor : Processor) (wakes : List Wake) :
    (wakes.foldl (Processor.wake batchSize) processor).spawned.flatten ++
        (wakes.foldl (Processor.wake batchSize) processor).batch =
      processor.spawned.flatten ++ processor.batch ++ wakes.filterMap arrived := by
  induction wakes generalizing processor with
  | nil => simp
  | cons wake wakes ih =>
    rw [List.foldl_cons, ih, wake_keeps, List.append_assoc]
    cases request : arrived wake <;> simp [request]

/-- The batches in spawn order, followed by the buffer, are the requests as they arrived. -/
theorem batchProcessor_keeps (batchSize : Nat) (wakes : List Wake) :
    (batchProcessor batchSize wakes).spawned.flatten ++ (batchProcessor batchSize wakes).batch =
      wakes.filterMap arrived := by
  simpa [batchProcessor] using wakes_keep batchSize {} wakes

def Each (property : Nat → BatchedEvent → Prop) (position : Nat) (batch : List BatchedEvent) : Prop :=
  ∀ index batched, batch[index]? = some batched → property (position + index) batched

namespace Each
variable {property : Nat → BatchedEvent → Prop} {position : Nat} {batched : BatchedEvent} {batch : List BatchedEvent}

theorem head (each : Each property position (batched :: batch)) : property position batched :=
  each 0 batched rfl

theorem tail (each : Each property position (batched :: batch)) : Each property (position + 1) batch := by
  intro index other found
  have holds := each (index + 1) other (by simpa using found)
  rwa [show position + (index + 1) = position + 1 + index by omega] at holds

private theorem take (each : Each property position batch) (count : Nat) :
    Each property position (batch.take count) := by
  intro index batched found
  apply each index batched
  rw [List.getElem?_take] at found
  split at found
  · exact found
  · cases found

end Each

section Flush
variable {calls : Calls Value}

/-- Every request of the batch can be prepared at its position. -/
abbrev Prepared (calls : Calls Value) : Nat → List BatchedEvent → Prop :=
  Each fun position batched => ∃ rows, calls.prepare position batched = .ok rows

@[simp] theorem answer_responses (position : Nat) (batched : BatchedEvent) (rows : List (Event Value))
    (state : FlushState Value) :
    (answer calls position batched rows state).responses =
      state.responses ++ [(batched.responseTx, (insertResult calls position rows state.session).1)] := rfl

/-- A prepared batch is flushed to its end, one answer a request. -/
theorem flushRequests_prepared {position : Nat} {batch : List BatchedEvent} (prepared : Prepared calls position batch)
    (state : FlushState Value) :
    (flushRequests calls position batch state).1 = .ok () ∧
      (flushRequests calls position batch state).2.responses.map Prod.fst =
        state.responses.map Prod.fst ++ batch.map BatchedEvent.responseTx := by
  induction batch generalizing position state with
  | nil => simp [flushRequests]
  | cons batched batch ih =>
    obtain ⟨rows, usable⟩ := prepared.head
    obtain ⟨finished, answered⟩ := ih prepared.tail (answer calls position batched rows state)
    simp only [flushRequests, usable]
    refine ⟨finished, ?_⟩
    simp [answered]

/-- Flushing a batch is flushing the front of it and, if that is prepared, the rest. -/
theorem flushRequests_append {position : Nat} {front : List BatchedEvent} (prepared : Prepared calls position front)
    (back : List BatchedEvent) (state : FlushState Value) :
    flushRequests calls position (front ++ back) state =
      flushRequests calls (position + front.length) back (flushRequests calls position front state).2 := by
  induction front generalizing position state with
  | nil => rfl
  | cons batched front ih =>
    obtain ⟨rows, usable⟩ := prepared.head
    simp only [List.cons_append, flushRequests, usable, List.length_cons]
    rw [ih prepared.tail, show position + 1 + front.length = position + (front.length + 1) by omega]

/-- Answers are sent once: what was sent stays sent. -/
theorem flushRequests_extends (calls : Calls Value) (position : Nat) (batch : List BatchedEvent)
    (state : FlushState Value) :
    ∃ later, (flushRequests calls position batch state).2.responses = state.responses ++ later := by
  induction batch generalizing position state with
  | nil => exact ⟨[], by simp [flushRequests]⟩
  | cons batched batch ih =>
    cases usable : calls.prepare position batched with
    | error error => exact ⟨[], by simp [flushRequests, usable]⟩
    | ok rows =>
      obtain ⟨later, extended⟩ := ih (position + 1) (answer calls position batched rows state)
      rw [answer_responses, List.append_assoc] at extended
      exact ⟨_, by simpa only [flushRequests, usable] using extended⟩

/-- Flushing a batch is flushing what is before a request, answering it, and flushing what is after it. -/
theorem flushRequests_at {batch : List BatchedEvent} {position : Nat} {batched : BatchedEvent}
    {rows : List (Event Value)} (prepared : Prepared calls 0 (batch.take position))
    (found : batch[position]? = some batched) (usable : calls.prepare position batched = .ok rows)
    (state : FlushState Value) :
    flushRequests calls 0 batch state = flushRequests calls (position + 1) (batch.drop (position + 1))
      (answer calls position batched rows (flushRequests calls 0 (batch.take position) state).2) := by
  obtain ⟨inside, rfl⟩ := List.getElem?_eq_some_iff.mp found
  have count : (batch.take position).length = position := by
    rw [List.length_take]
    omega
  have split : batch = batch.take position ++ batch[position] :: batch.drop (position + 1) := by
    rw [List.getElem_cons_drop, List.take_append_drop]
  conv_lhs => rw [split]
  rw [flushRequests_append prepared, count, Nat.zero_add]
  simp only [flushRequests, usable]

/-- No request from one that cannot be prepared on is answered. -/
theorem flushRequests_stops {position index : Nat} {batch : List BatchedEvent} {batched : BatchedEvent}
    {error : String} (found : batch[index]? = some batched)
    (unusable : calls.prepare (position + index) batched = .error error) (state : FlushState Value) :
    (flushRequests calls position batch state).2.responses.length ≤ state.responses.length + index := by
  induction batch generalizing position index state with
  | nil => cases found
  | cons first batch ih =>
    cases usable : calls.prepare position first with
    | error error =>
      simp only [flushRequests, usable]
      omega
    | ok rows =>
      cases index with
      | zero =>
        cases found
        rw [Nat.add_zero, usable] at unusable
        cases unusable
      | succ index =>
        rw [show position + (index + 1) = position + 1 + index by omega] at unusable
        have bound := ih (by simpa using found) unusable (answer calls position first rows state)
        simp only [flushRequests, usable]
        rw [answer_responses, List.length_append, List.length_singleton] at bound
        omega

end Flush

private theorem insertResult_ok_iff (calls : Calls Value) (position : Nat) (rows : List (Event Value))
    (session : Session Value) :
    (insertResult calls position rows session).1 = .ok () ↔
      (∀ row ∈ rows, (validateEvent row).isValid = true) ∧
      (∀ row ∈ rows, handleEvent (calls.handlers position) row = .ok ()) ∧
      (calls.insert position rows session).1 = .ok () := by
  rw [← validationError_eq_none_iff, ← handlingError_eq_none_iff, insertResult]
  split
  · next invalid => simp [invalid]
  · next valid =>
    split
    · next unhandled => simp [unhandled]
    · next handled => simp [valid, handled]

/-- The session in which the request at a position is inserted. -/
def sessionAt (calls : Calls Value) (committed : Table Value) (metrics : EventStoreMetrics)
    (versionCache : Uuid → Option Int) (batch : List BatchedEvent) (position : Nat) : Session Value :=
  (flushRequests calls 0 (batch.take position) (.initial committed metrics versionCache)).2.session

theorem flushBatch_responses {calls : Calls Value} (begun : calls.begin = .ok ()) (committed : Table Value)
    (metrics : EventStoreMetrics) (versionCache : Uuid → Option Int) (batch : List BatchedEvent) :
    (flushBatch calls committed metrics versionCache batch).responses =
      (flushRequests calls 0 batch (.initial committed metrics versionCache)).2.responses := by
  simp only [flushBatch, begun]
  split
  · next run => rw [run]
  · next run =>
    rw [run]
    split <;> rfl

/-- The answer to a request whose predecessors could be prepared. -/
theorem flushBatch_response {calls : Calls Value} (begun : calls.begin = .ok ()) (committed : Table Value)
    (metrics : EventStoreMetrics) (versionCache : Uuid → Option Int) {batch : List BatchedEvent} {position : Nat}
    {batched : BatchedEvent} {rows : List (Event Value)} (prepared : Prepared calls 0 (batch.take position))
    (found : batch[position]? = some batched) (usable : calls.prepare position batched = .ok rows) :
    (flushBatch calls committed metrics versionCache batch).responses[position]? =
      some (batched.responseTx,
        (insertResult calls position rows (sessionAt calls committed metrics versionCache batch position)).1) := by
  have inside := (List.getElem?_eq_some_iff.mp found).1
  have count : (flushRequests calls 0 (batch.take position)
      (.initial committed metrics versionCache)).2.responses.length = position := by
    have answered := congrArg List.length (flushRequests_prepared prepared (.initial committed metrics versionCache)).2
    simp only [FlushState.initial, List.length_map, List.length_append, List.length_take, List.map_nil] at answered
    rw [FlushState.initial, answered]
    simp only [List.length_nil]
    omega
  rw [flushBatch_responses begun, flushRequests_at prepared found usable]
  obtain ⟨later, extended⟩ := flushRequests_extends calls (position + 1) (batch.drop (position + 1))
    (answer calls position batched rows
      (flushRequests calls 0 (batch.take position) (.initial committed metrics versionCache)).2)
  rw [extended, answer_responses, List.append_assoc, List.getElem?_append_right (by omega), count, Nat.sub_self]
  rfl

/-- A request is answered only if those before it could be prepared. -/
theorem flushBatch_answered {calls : Calls Value} (begun : calls.begin = .ok ()) (committed : Table Value)
    (metrics : EventStoreMetrics) (versionCache : Uuid → Option Int) {batch : List BatchedEvent} {position : Nat}
    {response : Nat × Except EventStoreError Unit}
    (answered : (flushBatch calls committed metrics versionCache batch).responses[position]? = some response) :
    Prepared calls 0 (batch.take position) := by
  intro index batched found
  cases usable : calls.prepare (0 + index) batched with
  | ok rows => exact ⟨rows, rfl⟩
  | error error =>
    rw [List.getElem?_take] at found
    split at found
    · next earlier =>
      have bound := flushRequests_stops found usable (.initial committed metrics versionCache)
      rw [flushBatch_responses begun] at answered
      have inside := (List.getElem?_eq_some_iff.mp answered).1
      simp only [FlushState.initial, List.length_nil] at bound inside
      omega
    · cases found

/-- Batching neither loses, duplicates nor reorders requests; and a flush that
begins and can prepare its batch answers each request once, with success exactly
when its rows are valid, handled and inserted. -/
theorem requests_answered_once :
    (∀ batchSize wakes, (batchProcessor batchSize wakes).spawned.flatten ++ (batchProcessor batchSize wakes).batch =
      wakes.filterMap arrived) ∧
    (∀ (calls : Calls Value) committed metrics versionCache batch,
      calls.begin = .ok () → Prepared calls 0 batch →
      (flushBatch calls committed metrics versionCache batch).responses.map Prod.fst =
        batch.map BatchedEvent.responseTx ∧
      ∀ position batched rows, batch[position]? = some batched → calls.prepare position batched = .ok rows →
        ∃ result, (flushBatch calls committed metrics versionCache batch).responses[position]? =
            some (batched.responseTx, result) ∧
          (result = .ok () ↔
            (∀ row ∈ rows, (validateEvent row).isValid = true) ∧
            (∀ row ∈ rows, handleEvent (calls.handlers position) row = .ok ()) ∧
            (calls.insert position rows
              (sessionAt calls committed metrics versionCache batch position)).1 = .ok ())) := by
  refine ⟨batchProcessor_keeps, ?_⟩
  intro calls committed metrics versionCache batch begun prepared
  refine ⟨?_, ?_⟩
  · rw [flushBatch_responses begun, (flushRequests_prepared prepared _).2]
    rfl
  · intro position batched rows found usable
    exact ⟨_, flushBatch_response begun committed metrics versionCache (prepared.take position) found usable,
      insertResult_ok_iff calls position rows _⟩

/-- Two requests, of which the insert of the second is refused, are each answered on their channel. -/
theorem two_requests_answered :
    let insert (position : Nat) (_ : List (Event AccountEvent)) (session : Session AccountEvent) :
      Except EventStoreError Unit × Session AccountEvent :=
      (if position = 0 then .ok () else .error (.eventHandlingError "refused"), session)
    let calls : Calls AccountEvent := ⟨.plain, fun _ _ => (⟨1⟩, 0), .ok (), fun _ _ => [], insert, .ok ()⟩
    let deposit : BatchedEvent := ⟨⟨7⟩, [.moneyDeposited ⟨7⟩ 1 ⟨9⟩], 4, 3⟩
    let closing : BatchedEvent := ⟨⟨8⟩, [.accountClosed ⟨8⟩ ""], 1, 6⟩
    Prepared calls 0 [deposit, closing] ∧
      (flushBatch calls [] {} (fun _ => none) [deposit, closing]).responses.map Prod.fst = [3, 6] ∧
      ∃ result, (flushBatch calls [] {} (fun _ => none) [deposit, closing]).responses[1]? = some (6, result) ∧
        result ≠ .ok () := by
  intro insert calls deposit closing
  have prepared : Prepared calls 0 [deposit, closing] := by
    intro index batched _
    exact prepareFrom_total (fun event => ⟨event, rfl⟩) _ _ _ _ _
  obtain ⟨channels, answers⟩ := requests_answered_once.2 calls [] {} (fun _ => none) [deposit, closing] rfl prepared
  obtain ⟨result, answer, success⟩ := answers 1 closing _ rfl rfl
  refine ⟨prepared, channels, result, answer, ?_⟩
  intro done
  cases (success.mp done).2.2

end BankingEs.Proofs.Batching
