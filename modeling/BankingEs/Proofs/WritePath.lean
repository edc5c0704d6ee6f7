import BankingEs.EventStore.WritePath
import BankingEs.Proofs.QueueBound

/-! Whole runs of the write path. It does to its requests and callers what the write queue does;
every request has one reply at most, every call returns its own, and the path comes to rest. -/

namespace BankingEs.Proofs.WritePath
open Relation Async EventStore BankingEs.WritePath

variable {Value : Type} {config : EventStoreConfig} {path before after : WritePath Value}

section Requests

def queue (path : WritePath Value) : WriteQueue :=
  { semaphore := path.semaphore, callers := path.callers, nextResponse := path.nextResponse, channel := path.channel,
    processor := { batch := path.batch, spawned := path.tasks.map FlushTask.rest } }

private theorem queue_wake (wake : Wake) : queue (path.wake config wake) = (queue path).wake config wake := by
  cases wake with
  | received request =>
    by_cases full : config.batchSize ≤ path.batch.length + 1
    · simp [WritePath.wake, WriteQueue.wake, Processor.wake, queue, full, WritePath.spawn,
        Processor.spawn]
    · simp [WritePath.wake, WriteQueue.wake, Processor.wake, queue, full]
  | timeout =>
    by_cases idle : path.batch = []
    · simp [WritePath.wake, WriteQueue.wake, Processor.wake, queue, idle]
    · simp [WritePath.wake, WriteQueue.wake, Processor.wake, queue, idle, WritePath.spawn,
        Processor.spawn]

private theorem queue_spawned {earlier later : List (FlushTask Value)} {task : FlushTask Value}
    (running : path.tasks = earlier ++ task :: later) :
    (queue path).processor.spawned = earlier.map FlushTask.rest ++ task.rest :: later.map FlushTask.rest := by
  simp [queue, running]

/-- A step of the path is a step of the queue, or one that the queue does not see. -/
theorem step_refines (step : Step config before after) : ReflGen (WriteQueue.Step config) (queue before)
    (queue after) := by
  cases step with
  | sends aggregateId expectedVersion nonempty acquired =>
    exact .single (.sends aggregateId expectedVersion nonempty acquired)
  | @receives request rest waiting =>
    rw [queue_wake]
    have waits : (queue before).channel = request :: rest := waiting
    exact .single (.receives waits)
  | timeout =>
    rw [queue_wake]
    exact .single .timeout
  | begins running waiting =>
    simp only [queue, running, List.map_append, List.map_cons]
    exact .refl
  | @answers earlier later task _ request rest _ calls database inserts running begun next prepared =>
    have spawned := queue_spawned running
    rw [next] at spawned
    have answers := @WriteQueue.Step.answers config _ _ _ _ _ spawned
    refine .single ?_
    simpa [queue, WritePath.answer, WriteQueue.flushes] using answers
  | @commits earlier later task _ running begun finished =>
    have ends := @WriteQueue.Step.ends config _ _ _ _ (queue_spawned running)
    rw [← List.map_append] at ends
    exact .single ends
  | @fails earlier later task running fails =>
    have ends := @WriteQueue.Step.ends config _ _ _ _ (queue_spawned running)
    rw [← List.map_append] at ends
    exact .single ends
  | returns waiting settled => exact .single (.returns waiting settled)

private theorem drops_refines (drops : Drops before after) : WriteQueue.Drops (queue before) (queue after) := by
  obtain ⟨waiting⟩ := drops
  exact .drops waiting

private theorem steps_refine (run : ReflTransGen (Step config) before after) :
    ReflTransGen (WriteQueue.Step config) (queue before) (queue after) := by
  induction run with
  | refl => exact .refl
  | tail _ step ih => exact ih.trans (step_refines step).to_reflTransGen

/-- The channels of the requests that wait for a reply. -/
def waiting (path : WritePath Value) : List Nat := path.outstanding.map BatchedEvent.responseTx

inductive Effect (before after : WritePath Value) : Prop where
  | sent (request : BatchedEvent) (fresh : request.responseTx = before.nextResponse) (filled : request.events ≠ [])
      (requests : after.outstanding.Perm (request :: before.outstanding))
      (callers : after.callers = before.nextResponse :: before.callers)
      (next : after.nextResponse = before.nextResponse + 1) (replies : after.replies = before.replies)
      (results : after.results = before.results)
  | moved (requests : after.outstanding.Subperm before.outstanding) (callers : after.callers = before.callers)
      (next : after.nextResponse = before.nextResponse) (replies : after.replies = before.replies)
      (results : after.results = before.results)
  | answered (request : BatchedEvent) (reply : Except EventStoreError Unit)
      (requests : before.outstanding.Perm (request :: after.outstanding)) (callers : after.callers = before.callers)
      (next : after.nextResponse = before.nextResponse)
      (replies : after.replies = before.replies ++ [(request.responseTx, reply)])
      (results : after.results = before.results)
  | left (caller : Nat) (waits : caller ∈ before.callers) (requests : after.outstanding = before.outstanding)
      (callers : after.callers = before.callers.erase caller) (next : after.nextResponse = before.nextResponse)
      (replies : after.replies = before.replies)
      (results : after.results = before.results ∨
        caller ∉ waiting before ∧ after.results = before.results ++ [(caller, before.result caller)])

theorem wake_effect (wake : Wake) :
    (path.wake config wake).outstanding.Perm ((Batching.arrived wake).toList ++ path.outstanding) ∧
      (path.wake config wake).callers = path.callers ∧ (path.wake config wake).nextResponse = path.nextResponse ∧
      (path.wake config wake).replies = path.replies ∧ (path.wake config wake).results = path.results := by
  refine ⟨?_, ?_⟩
  · have perm := @QueueBound.wake_outstanding config (queue path) wake
    rw [← queue_wake] at perm
    exact perm
  · cases wake with
    | received request =>
      simp only [WritePath.wake]
      split <;> exact ⟨rfl, rfl, rfl, rfl⟩
    | timeout =>
      simp only [WritePath.wake]
      split <;> exact ⟨rfl, rfl, rfl, rfl⟩

theorem outstanding_tasks {earlier later : List (FlushTask Value)} {task : FlushTask Value}
    (running : path.tasks = earlier ++ task :: later) :
    path.outstanding = path.channel ++ path.batch ++
      ((earlier.map FlushTask.rest).flatten ++ (task.rest ++ (later.map FlushTask.rest).flatten)) := by
  simp [WritePath.outstanding, running]

private theorem ends_effect {earlier later : List (FlushTask Value)} {task : FlushTask Value}
    (running : path.tasks = earlier ++ task :: later) :
    ({ path with tasks := earlier ++ later } : WritePath Value).outstanding.Subperm path.outstanding := by
  rw [outstanding_tasks running]
  apply List.Sublist.subperm
  simp only [WritePath.outstanding, List.map_append, List.flatten_append]
  apply List.Sublist.append_left
  apply List.Sublist.append_left
  exact List.sublist_append_right _ _

private theorem step_effect (step : Step config before after) : Effect before after := by
  cases step with
  | @sends taken aggregateId events expectedVersion nonempty acquired =>
    refine .sent ⟨aggregateId, events, expectedVersion, before.nextResponse⟩ rfl nonempty ?_ rfl rfl rfl rfl
    simp only [WritePath.outstanding, WritePath.send, List.append_assoc]
    exact List.perm_middle
  | @receives request rest channel =>
    obtain ⟨perm, callers, next, replies, results⟩ :=
      @wake_effect _ config { before with channel := rest } (.received request)
    refine .moved (List.Perm.subperm (perm.trans ?_)) callers next replies results
    simp [Batching.arrived, WritePath.outstanding, channel]
  | timeout =>
    obtain ⟨perm, callers, next, replies, results⟩ := @wake_effect _ config before .timeout
    exact .moved perm.subperm callers next replies results
  | begins running waits =>
    refine .moved (List.Perm.subperm (.of_eq ?_)) rfl rfl rfl rfl
    simp [WritePath.outstanding, running]
  | @answers earlier later task tx request rest rows calls database inserts running begun next prepared =>
    refine .answered request (insertResult calls task.position rows (before.session tx)).1 ?_ rfl rfl rfl rfl
    rw [outstanding_tasks running, next, List.cons_append, ← List.append_assoc, List.append_assoc before.channel]
    refine List.perm_middle.trans (.of_eq ?_)
    simp [WritePath.outstanding, WritePath.answer]
  | commits running begun finished => exact .moved (ends_effect running) rfl rfl rfl rfl
  | fails running fails => exact .moved (ends_effect running) rfl rfl rfl rfl
  | returns waits settled => exact .left _ waits rfl rfl rfl rfl (.inr ⟨settled, rfl⟩)

theorem moves_effect (moves : Moves config before after) : Effect before after := by
  rcases moves with step | drops
  · exact step_effect step
  · obtain ⟨waits⟩ := drops
    exact .left _ waits rfl rfl rfl rfl (.inl rfl)

end Requests

section Replies

/-- A request waits or has one reply, a call waits or has one result, and the result of a call
is the reply to its request if there is one. -/
structure Once (path : WritePath Value) : Prop where
  requests : (waiting path ++ path.replies.map Prod.fst).Nodup
  made : ∀ id ∈ waiting path ++ path.replies.map Prod.fst, id < path.nextResponse
  calls : (path.callers ++ path.results.map Prod.fst).Nodup
  called : ∀ id ∈ path.callers ++ path.results.map Prod.fst, id < path.nextResponse
  own : ∀ entry ∈ path.results, entry.1 ∉ waiting path ∧ entry.2 = path.result entry.1

private theorem Once.new (config : EventStoreConfig) (table : Table Value) : Once (.new config table) := by
  constructor <;> simp [waiting, WritePath.new, WritePath.outstanding]

private theorem result_of_replies (same : after.replies = before.replies) (caller : Nat) :
    after.result caller = before.result caller := by
  rw [WritePath.result, WritePath.result, same]

private theorem result_of_append {id caller : Nat} {reply : Except EventStoreError Unit} (other : caller ≠ id)
    (replies : after.replies = before.replies ++ [(id, reply)]) : after.result caller = before.result caller := by
  have apart : (caller == id) = false := by simpa using other
  rw [WritePath.result, WritePath.result, replies, List.lookup_append, List.lookup_cons, apart]
  simp

private theorem Once.sent (once : Once before) {request : BatchedEvent}
    (fresh : request.responseTx = before.nextResponse)
    (requests : after.outstanding.Perm (request :: before.outstanding))
    (callers : after.callers = before.nextResponse :: before.callers)
    (next : after.nextResponse = before.nextResponse + 1) (replies : after.replies = before.replies)
    (results : after.results = before.results) : Once after := by
  have pending : (waiting after).Perm (before.nextResponse :: waiting before) := by
    rw [← fresh]
    exact requests.map _
  have all : (waiting after ++ after.replies.map Prod.fst).Perm
      (before.nextResponse :: (waiting before ++ before.replies.map Prod.fst)) := by
    rw [replies]
    exact pending.append_right _
  have unused {ids : List Nat} (below : ∀ id ∈ ids, id < before.nextResponse) : before.nextResponse ∉ ids :=
    fun member => Nat.lt_irrefl _ (below _ member)
  have grown {ids : List Nat} (below : ∀ id ∈ ids, id < before.nextResponse) :
      ∀ id ∈ before.nextResponse :: ids, id < after.nextResponse := by
    intro id member
    rw [next]
    rcases List.mem_cons.mp member with rfl | member
    · exact Nat.lt_succ_self _
    · exact Nat.lt_succ_of_lt (below id member)
  refine ⟨?_, ?_, ?_, ?_, ?_⟩
  · exact all.nodup_iff.mpr (List.nodup_cons.mpr ⟨unused once.made, once.requests⟩)
  · exact fun id member => grown once.made id (all.subset member)
  · rw [callers, results, List.cons_append]
    exact List.nodup_cons.mpr ⟨unused once.called, once.calls⟩
  · rw [callers, results, List.cons_append]
    exact grown once.called
  · intro entry member
    rw [results] at member
    obtain ⟨settled, same⟩ := once.own entry member
    refine ⟨?_, by rw [same, result_of_replies replies]⟩
    intro waits
    rcases List.mem_cons.mp (pending.subset waits) with again | waits
    · have made := once.called entry.1 (List.mem_append_right _ (List.mem_map_of_mem member))
      exact Nat.lt_irrefl _ (again ▸ made)
    · exact settled waits

private theorem Once.moved (once : Once before) (requests : after.outstanding.Subperm before.outstanding)
    (callers : after.callers = before.callers) (next : after.nextResponse = before.nextResponse)
    (replies : after.replies = before.replies) (results : after.results = before.results) : Once after := by
  obtain ⟨kept, same, part⟩ := requests
  have same : (kept.map BatchedEvent.responseTx).Perm (waiting after) := same.map _
  have part : (kept.map BatchedEvent.responseTx).Sublist (waiting before) := part.map _
  have fewer : waiting after ⊆ waiting before := fun id member => part.subset (same.symm.subset member)
  refine ⟨?_, ?_, ?_, ?_, ?_⟩
  · rw [replies]
    have smaller := (part.append_right (before.replies.map Prod.fst)).nodup once.requests
    exact (same.append_right _).nodup_iff.mp smaller
  · rw [replies, next]
    intro id member
    apply once.made
    rcases List.mem_append.mp member with member | member
    · exact List.mem_append_left _ (fewer member)
    · exact List.mem_append_right _ member
  · rw [callers, results]
    exact once.calls
  · rw [callers, results, next]
    exact once.called
  · rw [results]
    intro entry member
    obtain ⟨settled, same⟩ := once.own entry member
    exact ⟨fun waits => settled (fewer waits), by rw [same, result_of_replies replies]⟩

private theorem Once.answered (once : Once before) {request : BatchedEvent} {reply : Except EventStoreError Unit}
    (requests : before.outstanding.Perm (request :: after.outstanding)) (callers : after.callers = before.callers)
    (next : after.nextResponse = before.nextResponse)
    (replies : after.replies = before.replies ++ [(request.responseTx, reply)])
    (results : after.results = before.results) : Once after := by
  have pending : (waiting before).Perm (request.responseTx :: waiting after) := requests.map _
  have all : (waiting after ++ after.replies.map Prod.fst).Perm (waiting before ++ before.replies.map Prod.fst) := by
    refine .trans ?_ (pending.symm.append_right _)
    rw [replies, List.map_append, ← List.append_assoc, List.cons_append]
    exact List.perm_append_singleton _ _
  refine ⟨all.nodup_iff.mpr once.requests, ?_, ?_, ?_, ?_⟩
  · intro id member
    rw [next]
    exact once.made id (all.subset member)
  · rw [callers, results]
    exact once.calls
  · rw [callers, results, next]
    exact once.called
  · rw [results]
    intro entry member
    obtain ⟨settled, same⟩ := once.own entry member
    refine ⟨fun waits => settled (pending.symm.subset (List.mem_cons_of_mem _ waits)), ?_⟩
    have other : entry.1 ≠ request.responseTx := by
      intro again
      exact settled (pending.symm.subset (again ▸ List.mem_cons_self))
    rw [same, result_of_append other replies]

private theorem Once.left (once : Once before) {caller : Nat} (waits : caller ∈ before.callers)
    (requests : after.outstanding = before.outstanding) (callers : after.callers = before.callers.erase caller)
    (next : after.nextResponse = before.nextResponse) (replies : after.replies = before.replies)
    (results : after.results = before.results ∨
      caller ∉ waiting before ∧ after.results = before.results ++ [(caller, before.result caller)]) : Once after := by
  have pending : waiting after = waiting before := by rw [waiting, waiting, requests]
  have answers := result_of_replies replies
  have part : (before.callers.erase caller ++ before.results.map Prod.fst).Sublist
      (before.callers ++ before.results.map Prod.fst) := List.erase_sublist.append_right _
  have own : ∀ entry ∈ before.results, entry.1 ∉ waiting after ∧ entry.2 = after.result entry.1 := by
    intro entry member
    rw [pending, answers]
    exact once.own entry member
  rcases results with results | ⟨settled, results⟩
  · refine ⟨by rw [pending, replies]; exact once.requests, by rw [pending, replies, next]; exact once.made, ?_, ?_, ?_⟩
    · rw [callers, results]
      exact part.nodup once.calls
    · rw [callers, results, next]
      exact fun id member => once.called id (part.subset member)
    · rwa [results]
  · have swapped : (after.callers ++ after.results.map Prod.fst).Perm
        (before.callers ++ before.results.map Prod.fst) := by
      rw [callers, results, List.map_append, ← List.append_assoc]
      refine (List.perm_append_singleton caller _).trans ?_
      exact (List.perm_cons_erase waits).symm.append_right _
    refine ⟨by rw [pending, replies]; exact once.requests, by rw [pending, replies, next]; exact once.made, ?_, ?_, ?_⟩
    · exact swapped.nodup_iff.mpr once.calls
    · rw [next]
      exact fun id member => once.called id (swapped.subset member)
    · rw [results]
      intro entry member
      rcases List.mem_append.mp member with member | member
      · exact own entry member
      · obtain rfl := List.mem_singleton.mp member
        rw [pending, answers]
        exact ⟨settled, rfl⟩

private theorem moves_once (moves : Moves config before after) (once : Once before) : Once after := by
  cases moves_effect moves with
  | sent request fresh filled requests callers next replies results =>
    exact once.sent fresh requests callers next replies results
  | moved requests callers next replies results => exact once.moved requests callers next replies results
  | answered request reply requests callers next replies results =>
    exact once.answered requests callers next replies results
  | left caller waits requests callers next replies results =>
    exact once.left waits requests callers next replies results

theorem result_cases (path : WritePath Value) (caller : Nat) :
    (caller, path.result caller) ∈ path.replies ∨
      caller ∉ path.replies.map Prod.fst ∧
        path.result caller = .error (.responseSendError "Failed to receive response: channel closed") := by
  cases found : path.replies.lookup caller with
  | none =>
    refine .inr ⟨?_, by rw [WritePath.result, found]; rfl⟩
    intro member
    obtain ⟨entry, sent, same⟩ := List.mem_map.mp member
    have absent := List.lookup_eq_none_iff.mp found entry sent
    simp [same] at absent
  | some reply =>
    have sent : (caller, reply) ∈ path.replies := by
      obtain ⟨front, back, split, _⟩ := List.lookup_eq_some_iff.mp found
      rw [split]
      simp
    rw [WritePath.result, found]
    exact .inl sent

end Replies

section Runs
variable {table : Table Value}

theorem refused_save : ∃ path : WritePath AccountEvent,
    ReflTransGen (Moves ⟨1, 1⟩) (.new ⟨1, 1⟩ []) path ∧
      path.channel.length + path.batch.length + path.tasks.length + path.callers.length = 0 ∧
      path.results = [(0, .error (.databaseError .rowNotFound))] := by
  let calls : Calls AccountEvent := ⟨.plain, fun _ _ => (⟨1⟩, 0), .ok (), fun _ _ => [],
    fun _ => bulkInsertEventsOptimized .faultless, .ok ()⟩
  have filled : ([.accountCreated ⟨7⟩ "Ann" 10] : List AccountEvent) ≠ [] := List.cons_ne_nil _ _
  have sent : ReflTransGen (Moves ⟨1, 1⟩) (.new ⟨1, 1⟩ [] : WritePath AccountEvent) _ :=
    .single (.inl (.sends ⟨7⟩ 0 filled rfl))
  have received := sent.tail (.inl (.receives rfl))
  have begun := received.tail (.inl (@Step.begins _ _ _ [] [] _ rfl rfl))
  have answered := begun.tail (.inl (@Step.answers _ _ _ [] [] _ _ _ _ _ calls _ rfl rfl rfl rfl rfl))
  have committed := answered.tail (.inl (@Step.commits _ _ _ [] [] _ _ rfl rfl rfl))
  have returned := committed.tail (.inl (@Step.returns _ _ _ 0 (by decide) (by decide)))
  exact ⟨_, returned, rfl, rfl⟩

/-- Over any run a request is replied to once at most, a call returns once at most, and it
returns the reply to its own request, or an error if that was dropped without one. -/
theorem calls_return_their_reply (run : ReflTransGen (Moves config) (.new config table) path) :
    (path.replies.map Prod.fst).Nodup ∧ (path.results.map Prod.fst).Nodup ∧
      ∀ id result, (id, result) ∈ path.results → (id, result) ∈ path.replies ∨
        id ∉ path.replies.map Prod.fst ∧
          result = .error (.responseSendError "Failed to receive response: channel closed") := by
  have once := preserved_by_steps (fun _ _ moves => moves_once moves) run (.new config table)
  refine ⟨once.requests.of_append_right, once.calls.of_append_right, ?_⟩
  intro id result returned
  obtain ⟨_, same⟩ := once.own _ returned
  obtain rfl : result = path.result id := same
  exact result_cases path id

theorem refused_save_returns_its_reply : ∃ path : WritePath AccountEvent,
    ReflTransGen (Moves ⟨1, 1⟩) (.new ⟨1, 1⟩ []) path ∧
      (0, .error (.databaseError .rowNotFound)) ∈ path.replies := by
  obtain ⟨path, run, _, results⟩ := refused_save
  have own := (calls_return_their_reply run).2.2 0 (.error (.databaseError .rowNotFound)) (by rw [results]; simp)
  exact ⟨path, run, own.resolve_right fun closed => by cases closed.2⟩

/-- Every run of the path is one of the queue, so its requests are bounded by the permits as
long as no caller is dropped. -/
theorem write_path_refines_queue (config : EventStoreConfig) (table : Table Value) (path : WritePath Value) :
    (ReflTransGen (Moves config) (.new config table) path →
      ReflTransGen (fun before after => WriteQueue.Step config before after ∨ WriteQueue.Drops before after)
        (.new config) (queue path)) ∧
    (ReflTransGen (Step config) (.new config table) path → path.outstanding.length ≤ config.maxBatchQueueSize) := by
  refine ⟨?_, ?_⟩
  · intro run
    induction run with
    | refl => exact .refl
    | tail _ moves ih =>
      rcases moves with step | drops
      · rcases (reflGen_iff _ _ _).mp (step_refines step) with same | step
        · rwa [same]
        · exact ih.tail (.inl step)
      · exact ih.tail (.inr (drops_refines drops))
  · intro run
    have awaited := preserved_by_steps (fun _ _ step => QueueBound.step_awaited step) (steps_refine run)
      QueueBound.Awaited.new
    exact awaited.outstanding_le

theorem refused_save_refines_queue : ∃ path : WritePath AccountEvent,
    ReflTransGen (Moves ⟨1, 1⟩) (.new ⟨1, 1⟩ []) path ∧
      ReflTransGen (fun before after => WriteQueue.Step ⟨1, 1⟩ before after ∨ WriteQueue.Drops before after)
        (.new ⟨1, 1⟩) (queue path) := by
  obtain ⟨path, run, _⟩ := refused_save
  exact ⟨path, run, (write_path_refines_queue ⟨1, 1⟩ [] path).1 run⟩

end Runs

section Draining

/-- A step that is not a send and changes something; a time-out with an empty batch does not. -/
def Internal (config : EventStoreConfig) (before after : WritePath Value) : Prop :=
  Step config before after ∧ after.nextResponse = before.nextResponse ∧ after ≠ before

/-- What a flush has left to do: to begin, to answer each of its requests, and to end. -/
def taskWork (task : FlushTask Value) : Nat := task.rest.length + if task.tx.isNone then 2 else 1

def tasksWork : List (FlushTask Value) → Nat
  | [] => 0
  | task :: tasks => taskWork task + tasksWork tasks

def work (path : WritePath Value) : Nat :=
  5 * path.channel.length + 4 * path.batch.length + tasksWork path.tasks + path.callers.length

private theorem tasksWork_append (first second : List (FlushTask Value)) :
    tasksWork (first ++ second) = tasksWork first + tasksWork second := by
  induction first with
  | nil => simp [tasksWork]
  | cons task tasks ih =>
    rw [List.cons_append, tasksWork, tasksWork, ih]
    omega

private theorem spawn_work (filled : path.batch ≠ []) : work path.spawn < work path := by
  have length := List.length_pos_iff.mpr filled
  simp only [work, WritePath.spawn, tasksWork_append, tasksWork, taskWork, Option.isNone_none, if_true,
    List.length_nil]
  omega

private theorem received_work {request : BatchedEvent} {rest : List BatchedEvent}
    (channel : path.channel = request :: rest) :
    work ({ path with channel := rest }.wake config (.received request)) < work path := by
  have shrinks : work { path with channel := rest, batch := path.batch ++ [request] } < work path := by
    simp only [work, channel, List.length_append, List.length_cons, List.length_nil]
    omega
  simp only [WritePath.wake]
  split
  · exact (spawn_work (by simp)).trans shrinks
  · exact shrinks

private theorem step_work (step : Step config before after) (quiet : after.nextResponse = before.nextResponse) :
    after = before ∨ work after < work before := by
  cases step with
  | sends aggregateId expectedVersion nonempty acquired =>
    simp only [WritePath.send] at quiet
    omega
  | receives channel => exact .inr (received_work channel)
  | timeout =>
    simp only [WritePath.wake]
    split
    · exact .inl rfl
    · next filled => exact .inr (spawn_work (by simpa using filled))
  | begins running waits =>
    refine .inr ?_
    simp only [work, running, tasksWork_append, tasksWork, taskWork, waits, Option.isNone_none, Option.isNone_some,
      if_true, Bool.false_eq_true, if_false]
    omega
  | answers calls database inserts running begun next prepared =>
    refine .inr ?_
    simp only [work, WritePath.answer, running, tasksWork_append, tasksWork, taskWork, begun, next,
      Option.isNone_some, Bool.false_eq_true, if_false, List.length_cons]
    omega
  | commits running begun finished =>
    refine .inr ?_
    simp only [work, WritePath.commit, running, tasksWork_append, tasksWork, taskWork, begun,
      Option.isNone_some, Bool.false_eq_true, if_false]
    omega
  | @fails _ _ task running fails =>
    refine .inr ?_
    have positive : 0 < taskWork task := by
      unfold taskWork
      split <;> omega
    simp only [work, running, tasksWork_append, tasksWork]
    omega
  | @returns caller waits settled =>
    refine .inr ?_
    have fewer := List.length_erase_add_one waits
    simp only [work, WritePath.leave]
    omega

private theorem internal_of_work (step : Step config before after) (quiet : after.nextResponse = before.nextResponse)
    (less : work after < work before) : Internal config before after := by
  refine ⟨step, quiet, ?_⟩
  rintro rfl
  exact Nat.lt_irrefl _ less

/-- A flush can always go on: it may fail to begin, to prepare its next request or to commit. -/
theorem task_moves {earlier later : List (FlushTask Value)} {task : FlushTask Value}
    (running : path.tasks = earlier ++ task :: later) : ∃ after, Internal config path after := by
  have moves {after : WritePath Value} (step : Step config path after) (quiet : after.nextResponse = path.nextResponse)
      (changed : after ≠ path) : ∃ after, Internal config path after := ⟨after, step, quiet, changed⟩
  have ends : ({ path with tasks := earlier ++ later } : WritePath Value) ≠ path := by
    intro same
    have equal := congrArg (fun path => path.tasks.length) same
    simp [running] at equal
  cases begun : task.tx with
  | none => exact moves (.fails running (.begin begun)) rfl ends
  | some tx =>
    cases next : task.rest with
    | nil => exact moves (.fails running (.commit begun next)) rfl ends
    | cons request rest =>
      let calls : Calls Value := ⟨⟨fun _ => .error "", fun _ => .error "", fun _ _ encoded => by cases encoded⟩,
        fun _ _ => (⟨0⟩, 0), .ok (), fun _ _ => [], fun _ => bulkInsertEventsOptimized .faultless, .ok ()⟩
      cases prepared : calls.prepare task.position request with
      | error error => exact moves (.fails running (.prepare calls begun next prepared)) rfl ends
      | ok rows =>
        refine moves (.answers calls _ rfl running begun next prepared) rfl ?_
        intro same
        have equal := congrArg (fun path => path.replies.length) same
        simp [WritePath.answer, EventStore.answer] at equal

/-- Where no internal step is left there is no request, no flush and no caller. -/
theorem stuck_drained (stuck : ∀ after, ¬ Internal config path after) :
    path.outstanding = [] ∧ path.callers = [] := by
  have channel : path.channel = [] := by
    cases waits : path.channel with
    | nil => rfl
    | cons request rest =>
      obtain ⟨_, _, quiet, _, _⟩ := @wake_effect _ config { path with channel := rest } (.received request)
      exact absurd (internal_of_work (.receives waits) quiet (received_work waits)) (stuck _)
  have batch : path.batch = [] := by
    by_contra filled
    have spawns : path.wake config .timeout = path.spawn := by simp [WritePath.wake, filled]
    have less := spawn_work filled
    rw [← spawns] at less
    obtain ⟨_, _, quiet, _, _⟩ := @wake_effect _ config path .timeout
    exact stuck _ (internal_of_work .timeout quiet less)
  have tasks : path.tasks = [] := by
    cases running : path.tasks with
    | nil => rfl
    | cons task later =>
      obtain ⟨after, moves⟩ := @task_moves _ config path [] later task running
      exact absurd moves (stuck after)
  have nothing : path.outstanding = [] := by simp [WritePath.outstanding, channel, batch, tasks]
  refine ⟨nothing, ?_⟩
  cases waits : path.callers with
  | nil => rfl
  | cons caller callers =>
    have member : caller ∈ path.callers := by rw [waits]; exact List.mem_cons_self
    have step : Step config path _ := .returns member (by rw [nothing]; exact List.not_mem_nil)
    refine absurd ⟨step, rfl, ?_⟩ (stuck _)
    intro same
    have equal := congrArg (fun path => path.results.length) same
    simp at equal

private theorem moves_lends {limit : Nat} (moves : Moves config before after)
    (lends : Semaphore.Lends limit before.semaphore before.callers.length) :
    Semaphore.Lends limit after.semaphore after.callers.length := by
  have leaves {caller : Nat} (waits : caller ∈ before.callers) :
      Semaphore.Lends limit before.semaphore.release (before.callers.erase caller).length := by
    apply Semaphore.Lends.release
    rwa [List.length_erase_add_one waits]
  rcases moves with step | drops
  · cases step with
    | sends aggregateId expectedVersion nonempty acquired => exact lends.acquire acquired
    | returns waits => exact leaves waits
    | receives =>
      simp only [WritePath.wake]
      split <;> exact lends
    | timeout =>
      simp only [WritePath.wake]
      split <;> exact lends
    | _ => exact lends
  · obtain ⟨waits⟩ := drops
    exact leaves waits

private theorem step_keeps_callers (step : Step config before after) :
    (∀ caller ∈ before.callers, caller ∈ after.callers ∨ ∃ result, (caller, result) ∈ after.results) ∧
      ∀ entry ∈ before.results, entry ∈ after.results := by
  cases step with
  | sends => exact ⟨fun caller waits => .inl (List.mem_cons_of_mem _ waits), fun entry member => member⟩
  | @receives request rest channel =>
    obtain ⟨_, callers, _, _, results⟩ := @wake_effect _ config { before with channel := rest } (.received request)
    rw [callers, results]
    exact ⟨fun caller waits => .inl waits, fun entry member => member⟩
  | timeout =>
    obtain ⟨_, callers, _, _, results⟩ := @wake_effect _ config before .timeout
    rw [callers, results]
    exact ⟨fun caller waits => .inl waits, fun entry member => member⟩
  | @returns returned waits settled =>
    refine ⟨?_, fun entry member => List.mem_append_left _ member⟩
    intro caller member
    by_cases same : caller = returned
    · subst same
      exact .inr ⟨_, List.mem_append_right _ (List.mem_singleton_self _)⟩
    · exact .inl ((List.mem_erase_of_ne same).mpr member)
  | _ => exact ⟨fun caller waits => .inl waits, fun entry member => member⟩

private theorem steps_keep_callers (run : ReflTransGen (Internal config) before after) (caller : Nat)
    (waits : caller ∈ before.callers) : caller ∈ after.callers ∨ ∃ result, (caller, result) ∈ after.results := by
  induction run with
  | refl => exact .inl waits
  | tail _ internal ih =>
    obtain ⟨callers, results⟩ := step_keeps_callers internal.1
    rcases ih with waits | ⟨result, returned⟩
    · exact callers caller waits
    · exact .inr ⟨result, results _ returned⟩

/-- Left to itself the path comes to rest, whatever the schedule and whatever fails; and where
it rests, every request is answered or dropped, every caller that waited has its result and
every permit is back. -/
theorem write_path_drains (config : EventStoreConfig) (table : Table Value) :
    (WellFounded fun after before : WritePath Value => Internal config before after) ∧
    ∀ path final, ReflTransGen (Moves config) (.new config table) path → ReflTransGen (Internal config) path final →
      (∀ after, ¬ Internal config final after) →
      final.outstanding = [] ∧ final.callers = [] ∧ final.semaphore = .new config.maxBatchQueueSize ∧
        ∀ caller ∈ path.callers, ∃ result, (caller, result) ∈ final.results := by
  refine ⟨?_, ?_⟩
  · refine Subrelation.wf ?_ (measure work).wf
    rintro after before ⟨step, quiet, changed⟩
    exact (step_work step quiet).resolve_left changed
  · intro path final run rests stuck
    obtain ⟨nothing, nobody⟩ := stuck_drained stuck
    refine ⟨nothing, nobody, ?_, ?_⟩
    · have start : Semaphore.Lends config.maxBatchQueueSize (WritePath.new config table).semaphore
          (WritePath.new config table).callers.length := Semaphore.Lends.new
      have lends := preserved_by_steps (fun _ _ moves => moves_lends moves) run start
      have after := preserved_by_steps (fun _ _ (internal : Internal config _ _) => moves_lends (.inl internal.1)) rests lends
      rw [nobody, List.length_nil, Semaphore.Lends, Nat.add_zero] at after
      rw [Semaphore.new, ← after]
    · intro caller waits
      rcases steps_keep_callers rests caller waits with still | returned
      · rw [nobody] at still
        cases still
      · exact returned

theorem refused_save_drains : ∃ path : WritePath AccountEvent,
    ReflTransGen (Moves ⟨1, 1⟩) (.new ⟨1, 1⟩ []) path ∧ path.semaphore = .new 1 := by
  obtain ⟨path, run, idle, _⟩ := refused_save
  have stuck : ∀ after, ¬ Internal ⟨1, 1⟩ path after := by
    rintro after ⟨step, quiet, changed⟩
    have less := (step_work step quiet).resolve_left changed
    have tasks : path.tasks = [] := List.length_eq_zero_iff.mp (by omega)
    simp only [work, tasks, tasksWork] at less
    omega
  exact ⟨path, run, ((write_path_drains ⟨1, 1⟩ []).2 path path run .refl stuck).2.2.1⟩

end Draining

end BankingEs.Proofs.WritePath
