import BankingEs.Redis.CircuitBreaker

/-! The circuit breaker under overlapping requests: how its state, its counter and the
time of the last failure are linked, and what becomes of a probe. -/

namespace BankingEs.Proofs.Breaker
open Async CircuitBreaker

section Records
variable {breaker : CircuitBreaker} {now : Instant}

@[simp] theorem recordFailure_config : (breaker.recordFailure now).config = breaker.config := by
  unfold CircuitBreaker.recordFailure
  dsimp only
  split <;> rfl

@[simp] theorem recordFailure_failureCount :
    (breaker.recordFailure now).failureCount = breaker.failureCount + 1 := by
  unfold CircuitBreaker.recordFailure
  dsimp only
  split <;> rfl

private theorem recordFailure_state : (breaker.recordFailure now).state =
    if breaker.config.failureThreshold ≤ breaker.failureCount + 1 then .opened now else breaker.state := by
  unfold CircuitBreaker.recordFailure
  dsimp only
  split <;> rfl

@[simp] theorem recordSuccess_config : breaker.recordSuccess.config = breaker.config := by
  unfold CircuitBreaker.recordSuccess
  split <;> rfl

private theorem recordSuccess_of_halfOpen (half : breaker.state = .halfOpen) :
    breaker.recordSuccess = { breaker with state := .closed, failureCount := 0 } := by
  rw [CircuitBreaker.recordSuccess, half]

private theorem recordSuccess_of_ne (other : breaker.state ≠ .halfOpen) : breaker.recordSuccess = breaker := by
  unfold CircuitBreaker.recordSuccess
  split
  next half => exact absurd half other
  next => rfl

private theorem succ_toNat {count : UInt64} (room : count.toNat + 1 < UInt64.size) :
    (count + 1).toNat = count.toNat + 1 := by
  rw [UInt64.toNat_add]
  exact Nat.mod_eq_of_lt room

private theorem armed_pos {threshold : UInt64} (armed : 1 ≤ threshold) : 0 < threshold :=
  UInt64.lt_iff_toNat_lt.mpr (UInt64.le_iff_toNat_le.mp armed)

end Records

section Requests
variable {ι : Type} {circuit : Circuit ι}

/-- Once it has left the closed state the count stays at the threshold or above, and an
open breaker has the time of the failure recorded last. -/
structure Tripped (circuit : Circuit ι) : Prop where
  count : circuit.breaker.state ≠ .closed → circuit.breaker.config.failureThreshold ≤ circuit.breaker.failureCount
  last : ∀ openTime, circuit.breaker.state = .opened openTime → circuit.failures.head? = some openTime

/-- A closed breaker has counted every failure since it closed, and too few to open. -/
structure Counted (circuit : Circuit ι) : Prop where
  below : circuit.breaker.state = .closed → circuit.breaker.failureCount < circuit.breaker.config.failureThreshold
  failures : circuit.breaker.state = .closed → circuit.failures.length = circuit.breaker.failureCount.toNat

/-- A counter at its greatest value has no room for another failure. -/
def HasRoom (circuit : Circuit ι) : {β : Type} → ClientCall β → Prop
  | _, .recordFailure => circuit.breaker.failureCount.toNat + 1 < UInt64.size
  | _, _ => True

private theorem Tripped.initial {config : CircuitBreakerConfig} {now : Instant} :
    Tripped (Circuit.new config now : Circuit ι) :=
  ⟨fun away => absurd rfl away, fun _ impossible => (by cases impossible)⟩

private theorem Tripped.reached (tripped : Tripped circuit)
    (room : circuit.breaker.failureCount.toNat + 1 < UInt64.size)
    (away : circuit.breaker.state ≠ .closed) :
    circuit.breaker.config.failureThreshold ≤ circuit.breaker.failureCount + 1 := by
  rw [UInt64.le_iff_toNat_le, succ_toNat room]
  apply Nat.le_succ_of_le
  exact UInt64.le_iff_toNat_le.mp (tripped.count away)

/-- A failure that the counter has room for opens a breaker that is not closed. -/
theorem Tripped.reopens {now : Instant} (tripped : Tripped circuit)
    (room : circuit.breaker.failureCount.toNat + 1 < UInt64.size) (away : circuit.breaker.state ≠ .closed) :
    (circuit.breaker.recordFailure now).state = .opened now := by
  rw [recordFailure_state, if_pos (tripped.reached room away)]

private theorem Tripped.later {now : Instant} (tripped : Tripped circuit) : Tripped { circuit with now } :=
  ⟨tripped.count, tripped.last⟩

private theorem Counted.later {now : Instant} (counted : Counted circuit) : Counted { circuit with now } :=
  ⟨counted.below, counted.failures⟩

variable [DecidableEq ι] {request : ι} {before after : Circuit ι}

private theorem allowRequest_step {allowed : Bool} (served : Circuit.step request before .allowRequest allowed after) :
    (allowed = true ∧ (∀ openTime, before.breaker.state ≠ .opened openTime) ∧
        after = { before with admitted := request :: before.admitted }) ∨
      (∃ openTime, before.breaker.state = .opened openTime ∧ allowed = true ∧
        before.breaker.config.resetTimeout ≤ (before.now - openTime).toNat ∧
        after = { before with
          breaker := { before.breaker with state := .halfOpen }, probe := some request, admitted := [request] }) ∨
      (∃ openTime, before.breaker.state = .opened openTime ∧ allowed = false ∧ after = before) := by
  obtain ⟨breaker, asked, rfl⟩ := served
  unfold CircuitBreaker.allowRequest at asked
  split at asked
  next closed =>
    cases asked
    exact .inl ⟨rfl, by simp [closed], by simp [Circuit.letThrough, closed]⟩
  next openTime isOpen =>
    split at asked
    next elapsed =>
      cases asked
      exact .inr (.inl ⟨openTime, isOpen, rfl, elapsed, by simp [Circuit.letThrough, isOpen]⟩)
    next =>
      cases asked
      exact .inr (.inr ⟨openTime, isOpen, rfl, rfl⟩)
  next half =>
    cases asked
    exact .inl ⟨rfl, by simp [half], by simp [Circuit.letThrough, half]⟩

private theorem step_tripped {β : Type} {op : ClientCall β} {reply : β}
    (served : Circuit.step request before op reply after)
    (room : HasRoom before op) (tripped : Tripped before) : Tripped after := by
  cases op with
  | allowRequest =>
    rcases allowRequest_step served with ⟨_, _, rfl⟩ | ⟨openTime, isOpen, _, _, rfl⟩ | ⟨_, _, _, rfl⟩
    · exact ⟨tripped.count, tripped.last⟩
    · refine ⟨fun _ => tripped.count (by simp [isOpen]), ?_⟩
      intro other impossible
      cases impossible
    · exact tripped
  | inner command =>
    obtain rfl := served
    exact tripped
  | recordSuccess =>
    obtain rfl := served
    by_cases half : before.breaker.state = .halfOpen
    · rw [recordSuccess_of_halfOpen half]
      exact ⟨fun away => absurd rfl away, fun _ impossible => (by cases impossible)⟩
    · rw [recordSuccess_of_ne half, if_neg half]
      exact ⟨tripped.count, tripped.last⟩
  | recordFailure =>
    obtain rfl := served
    by_cases reached : before.breaker.config.failureThreshold ≤ before.breaker.failureCount + 1
    · refine ⟨fun _ => ?_, ?_⟩
      · simpa using reached
      · intro openTime isOpen
        simp only [recordFailure_state, if_pos reached, CircuitState.opened.injEq] at isOpen
        simpa using isOpen
    · have closed : before.breaker.state = .closed := by
        by_contra away
        exact reached (tripped.reached room away)
      have still : (before.breaker.recordFailure before.now).state = .closed := by
        rw [recordFailure_state, if_neg reached, closed]
      refine ⟨fun away => absurd still away, ?_⟩
      intro openTime isOpen
      rw [still] at isOpen
      cases isOpen

private theorem step_counted {β : Type} {op : ClientCall β} {reply : β}
    (served : Circuit.step request before op reply after)
    (room : HasRoom before op) (armed : 1 ≤ before.breaker.config.failureThreshold) (counted : Counted before) :
    Counted after := by
  cases op with
  | allowRequest =>
    rcases allowRequest_step served with ⟨_, _, rfl⟩ | ⟨openTime, isOpen, _, _, rfl⟩ | ⟨_, _, _, rfl⟩
    · exact ⟨counted.below, counted.failures⟩
    · exact ⟨fun impossible => (by cases impossible), fun impossible => (by cases impossible)⟩
    · exact counted
  | inner command =>
    obtain rfl := served
    exact counted
  | recordSuccess =>
    obtain rfl := served
    by_cases half : before.breaker.state = .halfOpen
    · rw [recordSuccess_of_halfOpen half, if_pos half]
      exact ⟨fun _ => armed_pos armed, fun _ => rfl⟩
    · rw [recordSuccess_of_ne half, if_neg half]
      exact ⟨counted.below, counted.failures⟩
  | recordFailure =>
    obtain rfl := served
    -- only a count below the threshold leaves the breaker closed
    have stays : (before.breaker.recordFailure before.now).state = .closed →
        before.breaker.failureCount + 1 < before.breaker.config.failureThreshold ∧ before.breaker.state = .closed := by
      intro closed
      rw [recordFailure_state] at closed
      split at closed
      next => cases closed
      next short => exact ⟨UInt64.not_le.mp short, closed⟩
    constructor
    · intro closed
      simpa using (stays closed).1
    · intro closed
      have all := counted.failures (stays closed).2
      simp [all, succ_toNat room]

private theorem step_now {β : Type} {op : ClientCall β} {reply : β}
    (served : Circuit.step request before op reply after) :
    after.now = before.now := by
  cases op with
  | allowRequest =>
    rcases allowRequest_step served with ⟨_, _, rfl⟩ | ⟨_, _, _, _, rfl⟩ | ⟨_, _, _, rfl⟩ <;> rfl
  | inner command | recordSuccess | recordFailure =>
    obtain rfl := served
    rfl

private theorem step_config {β : Type} {op : ClientCall β} {reply : β}
    (served : Circuit.step request before op reply after) :
    after.breaker.config = before.breaker.config := by
  cases op with
  | allowRequest =>
    rcases allowRequest_step served with ⟨_, _, rfl⟩ | ⟨_, _, _, _, rfl⟩ | ⟨_, _, _, rfl⟩ <;> rfl
  | inner command =>
    obtain rfl := served
    rfl
  | recordSuccess =>
    obtain rfl := served
    exact recordSuccess_config
  | recordFailure =>
    obtain rfl := served
    exact recordFailure_config

/-- It takes as many failures as the threshold says to leave the closed state. -/
theorem Counted.leaves_closed {β : Type} {op : ClientCall β} {reply : β}
    (served : Circuit.step request before op reply after) (room : HasRoom before op) (counted : Counted before)
    (closed : before.breaker.state = .closed) (left : after.breaker.state ≠ .closed) :
    after.failures.length = before.breaker.config.failureThreshold.toNat := by
  cases op with
  | allowRequest =>
    rcases allowRequest_step served with ⟨_, _, rfl⟩ | ⟨_, isOpen, _⟩ | ⟨_, isOpen, _⟩
    · exact absurd closed left
    · simp [closed] at isOpen
    · simp [closed] at isOpen
  | inner command =>
    obtain rfl := served
    exact absurd closed left
  | recordSuccess =>
    obtain rfl := served
    rw [recordSuccess_of_ne (by simp [closed])] at left
    exact absurd closed left
  | recordFailure =>
    obtain rfl := served
    have all := counted.failures closed
    have below := UInt64.lt_iff_toNat_lt.mp (counted.below closed)
    have reached : before.breaker.config.failureThreshold ≤ before.breaker.failureCount + 1 := by
      by_contra short
      rw [recordFailure_state, if_neg short] at left
      exact left closed
    rw [UInt64.le_iff_toNat_le, succ_toNat room] at reached
    rw [List.length_cons, all]
    exact Nat.le_antisymm below reached

/-- A breaker closes from the half-open state only. -/
theorem closes_from_halfOpen {β : Type} {op : ClientCall β} {reply : β}
    (served : Circuit.step request before op reply after) (away : before.breaker.state ≠ .closed)
    (closed : after.breaker.state = .closed) : before.breaker.state = .halfOpen := by
  by_contra other
  cases op with
  | allowRequest =>
    rcases allowRequest_step served with ⟨_, _, rfl⟩ | ⟨_, _, _, _, rfl⟩ | ⟨_, _, _, rfl⟩
    · exact away closed
    · cases closed
    · exact away closed
  | inner command =>
    obtain rfl := served
    exact away closed
  | recordSuccess =>
    obtain rfl := served
    rw [recordSuccess_of_ne other] at closed
    exact away closed
  | recordFailure =>
    obtain rfl := served
    simp only [recordFailure_state] at closed
    split at closed
    next => cases closed
    next => exact away closed

/-- Where a request stands. -/
inductive Stage (command : ClientCommand) : Program ClientCall (Except RedisError ClientReply) → Prop where
  | asks : Stage command (.request .allowRequest fun allowed =>
      if allowed then .request (.inner command) CircuitBreakerRedisClient.settle
      else .pure (.error "Circuit breaker is open"))
  | calls : Stage command (.request (.inner command) CircuitBreakerRedisClient.settle)
  | records (op : ClientCall Unit) (result : Except RedisError ClientReply) :
      Stage command (.request op fun _ => .pure result)
  | returns (result : Except RedisError ClientReply) : Stage command (.pure result)

private theorem Stage.initial (command : ClientCommand) :
    Stage command (CircuitBreakerRedisClient.request command) := .asks

private theorem Stage.resumes {command : ClientCommand} {β : Type} {op : ClientCall β}
    {resume : β → Program ClientCall (Except RedisError ClientReply)} (stage : Stage command (.request op resume))
    (reply : β) : Stage command (resume reply) := by
  cases stage with
  | asks =>
    cases reply with
    | true => exact .calls
    | false => exact .returns _
  | calls =>
    cases reply with
    | ok value => exact .records .recordSuccess (.ok value)
    | error error => exact .records .recordFailure (.error error)
  | records op result => exact .returns result

def atInner {α : Type} : Program ClientCall α → Bool
  | .request (.inner _) _ => true
  | _ => false

/-- A request gets to the inner client past an open breaker only when its time is up. -/
theorem Stage.reaches_inner {command : ClientCommand} {β : Type} {op : ClientCall β}
    {resume : β → Program ClientCall (Except RedisError ClientReply)} {reply : β}
    (stage : Stage command (.request op resume)) (reached : atInner (resume reply))
    (served : Circuit.step request before op reply after) {openTime : Instant}
    (isOpen : before.breaker.state = .opened openTime) :
    before.breaker.config.resetTimeout ≤ (before.now - openTime).toNat := by
  cases stage with
  | asks =>
    rcases allowRequest_step served with ⟨_, closed, _⟩ | ⟨other, same, _, elapsed, _⟩ | ⟨_, _, rfl, _⟩
    · exact absurd isOpen (closed openTime)
    · rw [isOpen, CircuitState.opened.injEq] at same
      rwa [same]
    · cases reached
  | calls => cases reply <;> cases reached
  | records op result => cases reached

def counting (request : ι) : Serves ClientCall (Circuit ι) :=
  fun before op reply after => HasRoom before op ∧ Circuit.serves request before op reply after

end Requests

section Runs
variable {ι : Type} [DecidableEq ι] {commands : ι → ClientCommand} {config : CircuitBreakerConfig} {start : Instant}
  {history : List (Served ι ClientCall (Circuit ι))}
  {threads : ι → Program ClientCall (Except RedisError ClientReply)} {last : Circuit ι}

private theorem counting_tripped {β : Type} {op : ClientCall β} {reply : β} {request : ι} {before after : Circuit ι}
    (served : counting request before op reply after) (tripped : Tripped before) : Tripped after := by
  obtain ⟨room, now, -, served⟩ := served
  exact step_tripped served room tripped.later

private theorem run_tripped (run : Interleaves counting (fun request => CircuitBreakerRedisClient.request (commands request))
    (Circuit.new config start) history threads last) : last.breaker.config = config ∧ Tripped last := by
  refine run.invariant (fun circuit => circuit.breaker.config = config ∧ Tripped circuit) ?_ ?_
  · rintro request β op before reply after served ⟨same, tripped⟩
    refine ⟨?_, counting_tripped served tripped⟩
    obtain ⟨-, now, -, served⟩ := served
    exact (step_config served).trans same
  · exact ⟨rfl, .initial⟩

private theorem run_counted (armed : 1 ≤ config.failureThreshold)
    (run : Interleaves counting (fun request => CircuitBreakerRedisClient.request (commands request))
      (Circuit.new config start) history threads last) : Counted last := by
  suffices counted : last.breaker.config = config ∧ Counted last from counted.2
  refine run.invariant (fun circuit => circuit.breaker.config = config ∧ Counted circuit) ?_ ?_
  · rintro request β op before reply after ⟨room, now, -, served⟩ ⟨same, counted⟩
    refine ⟨(step_config served).trans same, step_counted served room ?_ counted.later⟩
    exact same ▸ armed
  · exact ⟨rfl, fun _ => armed_pos armed, fun _ => rfl⟩

/-- In every run in which the counter does not wrap, a closed breaker is below its
threshold and any other at or above it. So a failure that is recorded while it is half-open
opens it again, it leaves the closed state with as many failures as the threshold says, and
no request gets to the inner client while it is open and the time since the last failure is
not up. -/
theorem state_follows_count (armed : 1 ≤ config.failureThreshold)
    (run : Interleaves counting (fun request => CircuitBreakerRedisClient.request (commands request))
      (Circuit.new config start) history threads last) :
    (last.breaker.state = .closed → last.breaker.failureCount < config.failureThreshold) ∧
    (last.breaker.state ≠ .closed → config.failureThreshold ≤ last.breaker.failureCount) ∧
    (∀ openTime, last.breaker.state = .opened openTime → last.failures.head? = some openTime) ∧
    (∀ request reply next, last.breaker.state = .halfOpen → counting request last .recordFailure reply next →
      next.breaker.state = .opened next.now) ∧
    (∀ request {β : Type} (op : ClientCall β) reply next, last.breaker.state = .closed →
      counting request last op reply next → next.breaker.state ≠ .closed →
      next.failures.length = config.failureThreshold.toNat) ∧
    (∀ request {β : Type} (op : ClientCall β) resume reply next openTime failed,
      threads request = .request op resume → counting request last op reply next →
      last.breaker.state = .opened openTime → last.failures.head? = some failed →
      (next.now - failed).toNat < config.resetTimeout → atInner (resume reply) = false) := by
  obtain ⟨same, tripped⟩ := run_tripped run
  have counted := run_counted armed run
  refine ⟨same ▸ counted.below, same ▸ tripped.count, tripped.last, ?_, ?_, ?_⟩
  · rintro request reply next half ⟨room, now, -, served⟩
    obtain rfl := served
    exact tripped.reopens room (by simp [half])
  · rintro request β op reply next closed ⟨room, now, -, served⟩ left
    have count := Counted.leaves_closed served room counted.later closed left
    exact same ▸ count
  · rintro request β op resume reply next openTime failed pending ⟨-, now, -, served⟩ isOpen head recent
    have stage : Stage (commands request) (threads request) :=
      run.programs (fun request => Stage (commands request)) (fun _ _ _ _ reply stage => stage.resumes reply)
        (fun request => .initial (commands request)) request
    rw [pending] at stage
    have latest : openTime = failed := by
      rw [tripped.last openTime isOpen] at head
      exact Option.some.inj head
    subst latest
    by_contra reached
    have elapsed := stage.reaches_inner (Bool.of_not_eq_false reached) served isOpen
    rw [← step_now served] at elapsed
    exact absurd recent (Nat.not_lt.mpr (same ▸ elapsed))

theorem opened_follows_count : ∃ history threads last,
    Interleaves counting (fun _ : Unit => CircuitBreakerRedisClient.get "session")
      (Circuit.new { failureThreshold := 1 } 0) history threads last ∧
    last.breaker.state = .opened 7 ∧ 1 ≤ last.breaker.failureCount := by
  let admitted : Circuit Unit := { now := 0, breaker := .new { failureThreshold := 1 }, admitted := [()] }
  let failed : Circuit Unit :=
    { now := 7, breaker := ⟨.opened 7, 1, { failureThreshold := 1 }⟩, failures := [7], admitted := [()] }
  have asks : counting () (Circuit.new { failureThreshold := 1 } 0) .allowRequest true admitted :=
    ⟨trivial, 0, le_rfl, _, rfl, rfl⟩
  have calls : counting () admitted (.inner (.get "session")) (.error "timed out") admitted :=
    ⟨trivial, 0, le_rfl, rfl⟩
  have records : counting () admitted .recordFailure () failed :=
    ⟨show (0 : UInt64).toNat + 1 < UInt64.size by decide, 7, by decide, rfl⟩
  have begins : Interleaves counting (fun _ : Unit => CircuitBreakerRedisClient.get "session")
      (Circuit.new { failureThreshold := 1 } 0) [] _ _ := .start
  obtain ⟨history, run⟩ := begins.alone rfl (.request true asks (.request _ calls (.request () records .pure)))
  exact ⟨history, _, failed, run, rfl, (state_follows_count (by decide) run).2.1 (by decide)⟩

/-- While the breaker is half-open no other request comes to it, and only its probe reports. -/
def Solitary (request : ι) (circuit : Circuit ι) : {β : Type} → ClientCall β → Prop
  | _, .allowRequest => circuit.breaker.state ≠ .halfOpen
  | _, .inner _ => True
  | _, .recordSuccess => circuit.breaker.state = .halfOpen → circuit.probe = some request
  | _, .recordFailure => circuit.breaker.state = .halfOpen → circuit.probe = some request

def probing (request : ι) : Serves ClientCall (Circuit ι) :=
  fun before op reply after => Solitary request before op ∧ counting request before op reply after

/-- A half-open breaker has let through its probe and nothing else. -/
def Probed (circuit : Circuit ι) : Prop :=
  circuit.breaker.state = .halfOpen → ∃ probe, circuit.probe = some probe ∧ circuit.admitted = [probe]

private theorem probing_decided {β : Type} {op : ClientCall β} {reply : β} {request : ι} {before after : Circuit ι}
    (served : probing request before op reply after) (half : before.breaker.state = .halfOpen)
    (decided : after.breaker.state ≠ .halfOpen) : before.probe = some request := by
  obtain ⟨alone, -, now, -, served⟩ := served
  cases op with
  | allowRequest => exact absurd half alone
  | inner command =>
    obtain rfl := served
    exact absurd half decided
  | recordSuccess => exact alone half
  | recordFailure => exact alone half

private theorem probing_probed {β : Type} {op : ClientCall β} {reply : β} {request : ι} {before after : Circuit ι}
    (served : probing request before op reply after) (tripped : Tripped before) (probed : Probed before) :
    Probed after := by
  obtain ⟨alone, room, now, -, served⟩ := served
  intro half
  cases op with
  | allowRequest =>
    rcases allowRequest_step served with ⟨_, _, rfl⟩ | ⟨_, _, _, _, rfl⟩ | ⟨_, _, _, rfl⟩
    · exact absurd half alone
    · exact ⟨request, rfl, rfl⟩
    · exact absurd half alone
  | inner command =>
    obtain rfl := served
    exact probed half
  | recordSuccess =>
    obtain rfl := served
    by_cases was : before.breaker.state = .halfOpen
    · rw [recordSuccess_of_halfOpen was] at half
      cases half
    · rw [recordSuccess_of_ne was] at half
      exact absurd half was
  | recordFailure =>
    obtain rfl := served
    by_cases closed : before.breaker.state = .closed
    · simp only [recordFailure_state, closed] at half
      split at half <;> cases half
    · rw [tripped.later.reopens room closed] at half
      cases half

/-- In every run in which a half-open breaker is left alone with its probe, nothing else is
let through until the outcome of the probe is recorded, and that outcome decides what
becomes of the breaker. -/
theorem probe_decides (run : Interleaves probing (fun request => CircuitBreakerRedisClient.request (commands request))
      (Circuit.new config start) history threads last) :
    (last.breaker.state = .halfOpen → ∃ probe, last.probe = some probe ∧ last.admitted = [probe]) ∧
    (∀ request {β : Type} (op : ClientCall β) reply next, last.breaker.state = .halfOpen →
      probing request last op reply next → next.breaker.state ≠ .halfOpen → last.probe = some request) ∧
    (∀ request reply next, last.breaker.state = .halfOpen → probing request last .recordSuccess reply next →
      last.probe = some request ∧ next.breaker.state = .closed) ∧
    (∀ request reply next, last.breaker.state = .halfOpen → probing request last .recordFailure reply next →
      last.probe = some request ∧ next.breaker.state = .opened next.now) ∧
    (∀ request {β : Type} (op : ClientCall β) reply next, last.breaker.state ≠ .closed →
      probing request last op reply next → next.breaker.state = .closed → last.probe = some request) := by
  have holds : Tripped last ∧ Probed last := by
    refine run.invariant (fun circuit => Tripped circuit ∧ Probed circuit) ?_ ?_
    · rintro request β op before reply after served ⟨tripped, probed⟩
      exact ⟨counting_tripped served.2 tripped, probing_probed served tripped probed⟩
    · exact ⟨.initial, fun impossible => (by cases impossible)⟩
  obtain ⟨tripped, probed⟩ := holds
  refine ⟨probed, fun request _ op reply next half served decided => probing_decided served half decided, ?_, ?_, ?_⟩
  · rintro request reply next half ⟨alone, -, now, -, served⟩
    obtain rfl := served
    exact ⟨alone half, by rw [recordSuccess_of_halfOpen half]⟩
  · rintro request reply next half ⟨alone, room, now, -, served⟩
    obtain rfl := served
    exact ⟨alone half, tripped.reopens room (by simp [half])⟩
  · intro request β op reply next away served closed
    have half : last.breaker.state = .halfOpen := by
      obtain ⟨-, -, now, -, step⟩ := served
      have half := closes_from_halfOpen step away closed
      exact half
    exact probing_decided served half (by simp [closed])

/-- The request that fails first opens the breaker, and the one that comes when the time is up
is its probe. -/
theorem second_request_probes : ∃ history threads last,
    Interleaves probing (fun _ : Nat => CircuitBreakerRedisClient.get "session")
      (Circuit.new { failureThreshold := 1 } 0) history threads last ∧
    last.breaker.state = .halfOpen ∧ last.probe = some 1 ∧
    ∀ reply next, probing 1 last .recordSuccess reply next → next.breaker.state = .closed := by
  let admitted : Circuit Nat := { now := 0, breaker := .new { failureThreshold := 1 }, admitted := [0] }
  let failed : Circuit Nat :=
    { now := 0, breaker := ⟨.opened 0, 1, { failureThreshold := 1 }⟩, failures := [0], admitted := [0] }
  let probed : Circuit Nat :=
    { now := 30000000000, breaker := ⟨.halfOpen, 1, { failureThreshold := 1 }⟩, failures := [0], probe := some 1
      admitted := [1] }
  have asks : probing 0 (Circuit.new { failureThreshold := 1 } 0) .allowRequest true admitted :=
    ⟨fun impossible => (by cases impossible), trivial, 0, le_rfl, _, rfl, rfl⟩
  have calls : probing 0 admitted (.inner (.get "session")) (.error "timed out") admitted :=
    ⟨trivial, trivial, 0, le_rfl, rfl⟩
  have fails : probing 0 admitted .recordFailure () failed :=
    ⟨fun impossible => (by cases impossible), show (0 : UInt64).toNat + 1 < UInt64.size by decide, 0, le_rfl, rfl⟩
  have probes : probing 1 failed .allowRequest true probed :=
    ⟨fun impossible => (by cases impossible), trivial, 30000000000, by decide, _, rfl, rfl⟩
  have begins : Interleaves probing (fun _ : Nat => CircuitBreakerRedisClient.get "session")
      (Circuit.new { failureThreshold := 1 } 0) [] _ _ := .start
  obtain ⟨history, run⟩ := begins.alone rfl (.request true asks (.request _ calls (.request () fails .pure)))
  have run := Interleaves.serve 1 true run rfl probes
  exact ⟨_, _, probed, run, rfl, rfl, fun reply next served => ((probe_decides run).2.2.1 1 reply next rfl served).2⟩

/-- A half-open breaker lets a second request through while its probe is out, and a request
from before it opened closes it. -/
theorem late_success_closes : ∃ history threads before last,
    Interleaves Circuit.serves (fun _ : Nat => CircuitBreakerRedisClient.get "session")
      (Circuit.new { failureThreshold := 1 } 0) history threads before ∧
    before.breaker.state = .halfOpen ∧ before.probe = some 2 ∧ before.admitted = [3, 2] ∧
    (∃ resume, threads 0 = .request .recordSuccess resume) ∧
    Circuit.serves 0 before .recordSuccess () last ∧ last.breaker.state = .closed ∧ last.probe = some 2 := by
  let config : CircuitBreakerConfig := { failureThreshold := 1 }
  let first : Circuit Nat := { now := 0, breaker := .new config, admitted := [0] }
  let second : Circuit Nat := { now := 0, breaker := .new config, admitted := [1, 0] }
  let failed : Circuit Nat := { now := 0, breaker := ⟨.opened 0, 1, config⟩, failures := [0], admitted := [1, 0] }
  let probed : Circuit Nat :=
    { now := 30000000000, breaker := ⟨.halfOpen, 1, config⟩, failures := [0], probe := some 2, admitted := [2] }
  let joined : Circuit Nat := { probed with admitted := [3, 2] }
  have asksFirst : Circuit.serves 0 (Circuit.new config 0) .allowRequest true first := ⟨0, le_rfl, _, rfl, rfl⟩
  have asksSecond : Circuit.serves 1 first .allowRequest true second := ⟨0, le_rfl, _, rfl, rfl⟩
  have callsSecond : Circuit.serves 1 second (.inner (.get "session")) (.error "timed out") second := ⟨0, le_rfl, rfl⟩
  have failsSecond : Circuit.serves 1 second .recordFailure () failed := ⟨0, le_rfl, rfl⟩
  have probes : Circuit.serves 2 failed .allowRequest true probed := ⟨30000000000, by decide, _, rfl, rfl⟩
  have joins : Circuit.serves 3 probed .allowRequest true joined := ⟨30000000000, le_rfl, _, rfl, rfl⟩
  have callsFirst : Circuit.serves 0 joined (.inner (.get "session")) (.ok (.value none)) joined :=
    ⟨30000000000, le_rfl, rfl⟩
  have run : Interleaves Circuit.serves (fun _ : Nat => CircuitBreakerRedisClient.get "session")
      (Circuit.new config 0) [] _ _ := .start
  have run := Interleaves.serve 0 true run rfl asksFirst
  have run := Interleaves.serve 1 true run rfl asksSecond
  have run := Interleaves.serve 1 (.error "timed out") run rfl callsSecond
  have run := Interleaves.serve 1 () run rfl failsSecond
  have run := Interleaves.serve 2 true run rfl probes
  have run := Interleaves.serve 3 true run rfl joins
  have run := Interleaves.serve 0 (.ok (.value none)) run rfl callsFirst
  exact ⟨_, _, joined, _, run, rfl, rfl, rfl, ⟨_, rfl⟩, ⟨30000000000, le_rfl, rfl⟩, rfl, rfl⟩

end Runs
end BankingEs.Proofs.Breaker
