import BankingEs.Async.Interference
import BankingEs.EventStore.WriteQueue
import BankingEs.Proofs.Batching

/-! The bound of the write queue. A permit stands for a request only as long as its caller
waits for the answer: a caller that is dropped gives the permit back and leaves the request. -/

namespace BankingEs.Proofs.QueueBound
open Relation Async EventStore WriteQueue

variable {config : EventStoreConfig} {queue before after : WriteQueue} {limit caller : Nat}

def responses (queue : WriteQueue) : List Nat := queue.outstanding.map BatchedEvent.responseTx

section Flushes
variable {Value : Type} {earlier later : List (List BatchedEvent)} {batch : List BatchedEvent}

private theorem flushRequests_answers (calls : Calls Value) (position : Nat) (batch : List BatchedEvent)
    (state : FlushState Value) :
    ∃ count, (flushRequests calls position batch state).2.responses.map Prod.fst =
      state.responses.map Prod.fst ++ (batch.take count).map BatchedEvent.responseTx := by
  induction batch generalizing position state with
  | nil => exact ⟨0, by simp [flushRequests]⟩
  | cons batched batch ih =>
    cases usable : calls.prepare position batched with
    | error error => exact ⟨0, by simp [flushRequests, usable]⟩
    | ok rows =>
      obtain ⟨count, answered⟩ := ih (position + 1) (answer calls position batched rows state)
      refine ⟨count + 1, ?_⟩
      simp [flushRequests, usable, answered]

private theorem answers_front (count : Nat) (running : queue.processor.spawned = earlier ++ batch :: later) :
    ReflTransGen (Step config) queue (queue.flushes (earlier ++ batch.drop count :: later)) := by
  induction count generalizing queue batch with
  | zero =>
    rw [List.drop_zero, ← running]
    exact .refl
  | succ count ih =>
    cases batch with
    | nil =>
      rw [List.drop_nil, ← running]
      exact .refl
    | cons request rest => exact .head (.answers running) (ih rfl)

theorem flushBatch_steps (calls : Calls Value) (committed : Table Value) (metrics : EventStoreMetrics)
    (versionCache : Uuid → Option Int) (running : queue.processor.spawned = earlier ++ batch :: later) :
    ∃ count, (flushBatch calls committed metrics versionCache batch).responses.map Prod.fst =
        (batch.take count).map BatchedEvent.responseTx ∧
      ReflTransGen (Step config) queue (queue.flushes (earlier ++ batch.drop count :: later)) := by
  cases begun : calls.begin with
  | error error => exact ⟨0, by simp [flushBatch, begun], answers_front 0 running⟩
  | ok _ =>
    obtain ⟨count, answered⟩ := flushRequests_answers calls 0 batch (.initial committed metrics versionCache)
    refine ⟨count, ?_, answers_front count running⟩
    rw [Batching.flushBatch_responses begun, answered]
    rfl

end Flushes

inductive Effect (before after : WriteQueue) : Prop where
  | sent (request : BatchedEvent) (fresh : request.responseTx = before.nextResponse)
      (requests : after.outstanding.Perm (request :: before.outstanding))
      (callers : after.callers = before.nextResponse :: before.callers)
      (next : after.nextResponse = before.nextResponse + 1)
      (acquired : before.semaphore.tryAcquire = some after.semaphore)
  | served (requests : after.outstanding.Subperm before.outstanding) (callers : after.callers = before.callers)
      (next : after.nextResponse = before.nextResponse) (permits : after.semaphore = before.semaphore)
  | left (caller : Nat) (waiting : caller ∈ before.callers) (settled : caller ∉ responses before)
      (leaves : after = before.leave caller)

theorem wake_outstanding (wake : Wake) :
    (queue.wake config wake).outstanding.Perm ((Batching.arrived wake).toList ++ queue.outstanding) := by
  have kept := Batching.wake_keeps config.batchSize queue.processor wake
  apply List.perm_iff_count.mpr
  intro request
  have counted := congrArg (List.count request) kept
  simp only [WriteQueue.outstanding, WriteQueue.wake, List.count_append] at counted ⊢
  omega

private theorem step_effect (step : Step config before after) : Effect before after := by
  cases step with
  | @sends taken aggregateId events expectedVersion nonempty acquired =>
    refine .sent ⟨aggregateId, events, expectedVersion, before.nextResponse⟩ rfl ?_ rfl rfl acquired
    simp only [WriteQueue.outstanding, WriteQueue.send, List.append_assoc]
    exact List.perm_middle
  | @receives request rest waiting =>
    refine .served (List.Perm.subperm ?_) rfl rfl rfl
    refine (wake_outstanding (.received request)).trans ?_
    simp [Batching.arrived, WriteQueue.outstanding, waiting]
  | timeout =>
    refine .served (List.Perm.subperm ?_) rfl rfl rfl
    exact wake_outstanding .timeout
  | answers running =>
    refine .served (List.Sublist.subperm ?_) rfl rfl rfl
    simp only [WriteQueue.outstanding, WriteQueue.flushes, running]
    apply List.Sublist.append_left
    simp
  | ends running =>
    refine .served (List.Sublist.subperm ?_) rfl rfl rfl
    simp only [WriteQueue.outstanding, WriteQueue.flushes, running]
    apply List.Sublist.append_left
    simp
  | returns waiting settled => exact .left _ waiting settled rfl

/-- Every request that is not answered has a caller of its own, who holds a permit. -/
structure Awaited (limit : Nat) (queue : WriteQueue) : Prop where
  lends : Semaphore.Lends limit queue.semaphore queue.callers.length
  made : ∀ caller ∈ queue.callers, caller < queue.nextResponse
  distinct : (responses queue).Nodup
  callers : queue.callers.Nodup
  awaited : responses queue ⊆ queue.callers

theorem Awaited.new : Awaited config.maxBatchQueueSize (.new config) :=
  ⟨Semaphore.Lends.new, by simp [WriteQueue.new], by simp [responses, WriteQueue.new, WriteQueue.outstanding],
    List.nodup_nil, List.Subset.refl _⟩

theorem Awaited.outstanding_le (awaited : Awaited limit queue) : queue.outstanding.length ≤ limit := by
  have bounded := awaited.distinct.length_le_of_subset awaited.awaited
  rw [responses, List.length_map] at bounded
  exact bounded.trans awaited.lends.le

private theorem Awaited.sent {request : BatchedEvent} (awaited : Awaited limit before)
    (fresh : request.responseTx = before.nextResponse)
    (requests : after.outstanding.Perm (request :: before.outstanding))
    (callers : after.callers = before.nextResponse :: before.callers)
    (next : after.nextResponse = before.nextResponse + 1)
    (acquired : before.semaphore.tryAcquire = some after.semaphore) : Awaited limit after := by
  have pending : (responses after).Perm (before.nextResponse :: responses before) := by
    rw [← fresh]
    exact requests.map _
  have unused : before.nextResponse ∉ before.callers := by
    intro member
    exact Nat.lt_irrefl _ (awaited.made _ member)
  refine ⟨?_, ?_, ?_, ?_, ?_⟩
  · rw [callers]
    exact awaited.lends.acquire acquired
  · intro caller member
    rw [callers] at member
    rw [next]
    rcases List.mem_cons.mp member with rfl | member
    · exact Nat.lt_succ_self _
    · exact Nat.lt_succ_of_lt (awaited.made caller member)
  · apply pending.nodup_iff.mpr
    exact List.nodup_cons.mpr ⟨fun member => unused (awaited.awaited member), awaited.distinct⟩
  · rw [callers]
    exact List.nodup_cons.mpr ⟨unused, awaited.callers⟩
  · rw [callers]
    intro id member
    exact List.cons_subset_cons _ awaited.awaited (pending.subset member)

private theorem Awaited.served (awaited : Awaited limit before)
    (requests : after.outstanding.Subperm before.outstanding)
    (callers : after.callers = before.callers) (next : after.nextResponse = before.nextResponse)
    (permits : after.semaphore = before.semaphore) : Awaited limit after := by
  obtain ⟨kept, same, part⟩ := requests
  have same : (kept.map BatchedEvent.responseTx).Perm (responses after) := same.map _
  have part : (kept.map BatchedEvent.responseTx).Sublist (responses before) := part.map _
  refine ⟨?_, ?_, ?_, ?_, ?_⟩
  · rw [callers, permits]
    exact awaited.lends
  · rw [callers, next]
    exact awaited.made
  · exact same.nodup_iff.mp (part.nodup awaited.distinct)
  · rw [callers]
    exact awaited.callers
  · rw [callers]
    intro id member
    exact awaited.awaited (part.subset (same.symm.subset member))

private theorem Awaited.left (awaited : Awaited limit before) (waiting : caller ∈ before.callers)
    (settled : caller ∉ responses before) : Awaited limit (before.leave caller) := by
  refine ⟨?_, ?_, awaited.distinct, awaited.callers.erase caller, ?_⟩
  · apply Semaphore.Lends.release
    rw [WriteQueue.leave, List.length_erase_add_one waiting]
    exact awaited.lends
  · intro other member
    exact awaited.made other (List.mem_of_mem_erase member)
  · intro id member
    apply (List.mem_erase_of_ne ?_).mpr (awaited.awaited member)
    intro same
    exact settled (same ▸ member)

theorem step_awaited (step : Step config before after) (awaited : Awaited limit before) : Awaited limit after := by
  cases step_effect step with
  | sent request fresh requests callers next acquired =>
    exact awaited.sent fresh requests callers next acquired
  | served requests callers next permits => exact awaited.served requests callers next permits
  | left caller waiting settled leaves =>
    rw [leaves]
    exact awaited.left waiting settled

private theorem outstanding_eq_nil (closed : config.maxBatchQueueSize = 0)
    (run : ReflTransGen (fun before after => Step config before after ∨ Drops before after) (.new config) queue) :
    queue.outstanding = [] ∧ queue.callers = [] ∧ queue.semaphore.available = 0 := by
  induction run with
  | refl => exact ⟨rfl, rfl, closed⟩
  | tail _ step ih =>
    obtain ⟨empty, nobody, spent⟩ := ih
    rcases step with step | step
    · cases step_effect step with
      | sent request fresh requests callers next acquired =>
        rw [Semaphore.tryAcquire_eq_none.mpr spent] at acquired
        cases acquired
      | served requests callers next permits =>
        rw [empty] at requests
        rw [callers, permits]
        exact ⟨List.subperm_nil.mp requests, nobody, spent⟩
      | left caller waiting settled leaves =>
        rw [nobody] at waiting
        cases waiting
    · obtain ⟨waiting⟩ := step
      rw [nobody] at waiting
      cases waiting

/-- A caller that is dropped makes room for the next one: the queue grows without bound. -/
theorem grows (config : EventStoreConfig) (room : config.maxBatchQueueSize ≠ 0) (count : Nat) :
    ∃ queue, ReflTransGen (fun before after => Step config before after ∨ Drops before after) (.new config) queue ∧
      queue.outstanding.length = count ∧ queue.semaphore = .new config.maxBatchQueueSize := by
  induction count with
  | zero => exact ⟨_, .refl, rfl, rfl⟩
  | succ count ih =>
    obtain ⟨queue, run, length, permits⟩ := ih
    obtain ⟨left, same⟩ := Nat.exists_eq_succ_of_ne_zero room
    have acquired : queue.semaphore.tryAcquire = some (.new left) := by
      rw [permits, same]
      rfl
    have sent := run.tail (.inl (.sends ⟨0⟩ 0 (List.cons_ne_nil (.accountClosed ⟨0⟩ "") []) acquired))
    have dropped := sent.tail (.inr (.drops List.mem_cons_self))
    refine ⟨_, dropped, ?_, ?_⟩
    · rw [← length]
      simp [WriteQueue.outstanding, WriteQueue.leave, WriteQueue.send]
      omega
    · rw [same]
      rfl

/-- The queue is bounded as long as no caller is dropped between its send and its answer.
With callers that may be dropped it is bounded only if nothing can be sent. -/
theorem queue_bounded (config : EventStoreConfig) :
    (∀ queue, ReflTransGen (Step config) (.new config) queue →
      queue.outstanding.length ≤ config.maxBatchQueueSize) ∧
    ((∀ queue, ReflTransGen (fun before after => Step config before after ∨ Drops before after) (.new config) queue →
      queue.outstanding.length ≤ config.maxBatchQueueSize) ↔ config.maxBatchQueueSize = 0) := by
  refine ⟨?_, ?_, ?_⟩
  · intro queue run
    have awaited := preserved_by_steps (fun _ _ step => step_awaited step) run Awaited.new
    exact awaited.outstanding_le
  · intro bounded
    by_contra room
    obtain ⟨queue, run, length, _⟩ := grows config room (config.maxBatchQueueSize + 1)
    have few := bounded queue run
    omega
  · intro closed queue run
    rw [(outstanding_eq_nil closed run).1]
    exact Nat.zero_le _

/-- One permit: the first caller is dropped while it waits, and a second one sends. -/
theorem queue_exceeded : ∃ queue,
    ReflTransGen (fun before after => Step ⟨10, 1⟩ before after ∨ Drops before after) (.new ⟨10, 1⟩) queue ∧
      queue.outstanding.map BatchedEvent.responseTx = [0, 1] := by
  have event : ([.accountClosed ⟨0⟩ ""] : List AccountEvent) ≠ [] := List.cons_ne_nil _ _
  have first : ReflTransGen (fun before after => Step ⟨10, 1⟩ before after ∨ Drops before after) (.new ⟨10, 1⟩) _ :=
    .single (.inl (.sends ⟨0⟩ 1 event rfl))
  have dropped := first.tail (.inr (.drops List.mem_cons_self))
  have second := dropped.tail (.inl (.sends ⟨0⟩ 2 event rfl))
  exact ⟨_, second, rfl⟩

end BankingEs.Proofs.QueueBound
