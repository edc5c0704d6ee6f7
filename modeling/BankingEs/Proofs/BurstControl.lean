import BankingEs.Proofs.RateLimits
import BankingEs.Web.Handlers

/-! How many requests of one client are under way at once. The permit of the burst limit is
back before the check returns, so that the limit does not count them. -/

namespace BankingEs.Proofs.BurstControl
open Async RequestMiddleware RateLimits

/-- Where a request stands. -/
inductive Stage (context : RequestContext) : Program RequestCall ValidationResult → Prop where
  | asks : Stage context (.request (.checkRateLimit context.clientId) fun allowed =>
      if allowed then .send (.validateRequest context) else .pure rateLimitExceeded)
  | passed : Stage context (.request (.validateRequest context) .pure)
  | returned (result : ValidationResult) : Stage context (.pure result)

private theorem Stage.initial {context : RequestContext} : Stage context (processRequest context) := .asks

/-- The request has passed the check and its `process_request` has not finished. -/
def InFlight : Program RequestCall ValidationResult → Prop
  | .request (.validateRequest _) _ => True
  | _ => False

abbrev Processes (config : RateLimitConfig) (validator : RequestValidator) (contexts : Nat → RequestContext)
    (start : Instant) :=
  Interleaves (fun (_ : Nat) => RequestWorld.serves) (fun request => processRequest (contexts request))
    ⟨start, .new config, validator⟩

section Runs
variable {config : RateLimitConfig} {validator : RequestValidator} {contexts : Nat → RequestContext}
  {start : Instant} {history : List (Served Nat RequestCall RequestWorld)}
  {threads : Nat → Program RequestCall ValidationResult} {world before after : RequestWorld}

theorem serves_middleware {β : Type} {op : RequestCall β} {reply : β}
    (served : RequestWorld.serves before op reply after) :
    after.middleware = before.middleware ∨ ∃ now clientId, after.middleware = { before.middleware with
      rateLimiter := (before.middleware.rateLimiter.checkRateLimit now clientId).2 } := by
  obtain ⟨now, _, served⟩ := served
  cases op with
  | checkRateLimit clientId =>
    obtain ⟨_, rfl⟩ := served
    exact .inr ⟨now, clientId, rfl⟩
  | validateRequest context =>
    obtain ⟨_, rfl⟩ := served
    exact .inl rfl
  | createAccount ownerName initialBalance =>
    obtain rfl := served
    exact .inl rfl

theorem run_idle {α : Type} {first : RequestWorld} {programs threads : Nat → Program RequestCall α}
    (run : Interleaves (fun _ => RequestWorld.serves) programs first history threads world)
    (fresh : first.middleware.rateLimiter = .new config) : Idle config world.middleware.rateLimiter := by
  apply run.invariant (fun world => Idle config world.middleware.rateLimiter)
  · intro _ _ op before reply after served idle
    rcases serves_middleware served with same | ⟨now, clientId, checked⟩
    · rw [same]
      exact idle
    · rw [checked]
      exact idle.checkRateLimit
  · rw [fresh]
    exact Idle.new

theorem check_answer {clientId : String} {allowed : Bool}
    (served : RequestWorld.serves before (.checkRateLimit clientId) allowed after)
    (idle : Idle config before.middleware.rateLimiter) :
    ∃ now, before.now ≤ now ∧ after.now = now ∧
      allowed = (config.check now (before.middleware.rateLimiter.limits clientId)).1 ∧
      after.middleware = { before.middleware with
        rateLimiter := (before.middleware.rateLimiter.checkRateLimit now clientId).2 } := by
  obtain ⟨now, waits, answer, rfl⟩ := served
  refine ⟨now, waits, rfl, ?_, rfl⟩
  rw [answer, RateLimiter.checkRateLimit]
  dsimp only
  rw [idle.configured]

theorem serves_check (clientId : String) {now : Instant} (waits : before.now ≤ now) :
    RequestWorld.serves before (.checkRateLimit clientId)
      (before.middleware.rateLimiter.checkRateLimit now clientId).1
      ⟨now, (before.middleware.rateLimiter.checkRateLimit now clientId).2, before.middleware.requestValidator⟩ :=
  ⟨now, waits, rfl, rfl⟩

/-- Nothing passes a limiter without requests or without permits. -/
theorem none_in_flight (closed : config.requestsPerMinute = 0 ∨ config.burstSize = 0)
    (run : Processes config validator contexts start history threads world) (request : Nat) :
    Stage (contexts request) (threads request) ∧ ¬ InFlight (threads request) := by
  induction run generalizing request with
  | start => exact ⟨.initial, id⟩
  | @serve history threads before after β op resume thread reply run pending served ih =>
    by_cases same : request = thread
    · subst same
      rw [Function.update_self]
      obtain ⟨stage, waiting⟩ := ih request
      rw [pending] at stage waiting
      cases stage with
      | asks =>
        obtain ⟨now, _, _, answer, _⟩ := check_answer served (run_idle run rfl)
        rw [check_eq ((run_idle run rfl).full _), if_neg (by omega)] at answer
        subst answer
        exact ⟨.returned _, id⟩
      | passed => exact absurd trivial waiting
    · rw [Function.update_of_ne same]
      exact ih request

/-- With a window's length between two requests, each finds a new window. -/
theorem passes_one_more (context : RequestContext) (positive : 0 < config.requestsPerMinute)
    (burst : 0 < config.burstSize)
    (count : Nat) :
    ∃ history threads world, Processes config validator (fun _ => context) 0 history threads world ∧
      (∀ request, request < count → InFlight (threads request)) ∧
      (∀ request, count ≤ request → threads request = processRequest context) ∧
      world.now ≤ (count * config.windowSize : Nat) ∧
      ∀ info, world.middleware.rateLimiter.limits context.clientId = some info →
        config.windowSize ≤ info.age (count * config.windowSize : Nat) := by
  induction count with
  | zero =>
    refine ⟨[], _, _, .start, ?_, fun _ _ => rfl, ?_, ?_⟩
    · intro request impossible
      exact absurd impossible (Nat.not_lt_zero request)
    · simp
    · intro info impossible
      cases impossible
  | succ count ih =>
    obtain ⟨history, threads, world, run, passed, waiting, reached, expired⟩ := ih
    have idle : Idle config world.middleware.rateLimiter := run_idle run rfl
    have renewed : current config (count * config.windowSize : Nat)
        (world.middleware.rateLimiter.limits context.clientId) = .fresh config (count * config.windowSize : Nat) := by
      rcases current_cases _ (idle.full context.clientId) with ⟨renewed, _⟩ | ⟨info, found, young, _⟩
      · exact renewed
      · exact absurd (expired info found) (Nat.not_le.mpr young)
    have checked := check_renewed renewed (idle.full _) positive burst
    have served := serves_check context.clientId reached
    have answer : (world.middleware.rateLimiter.checkRateLimit (count * config.windowSize : Nat) context.clientId).1 =
        true := by
      rw [RateLimiter.checkRateLimit, idle.configured, checked]
    rw [answer] at served
    refine ⟨_, _, _, .serve count true run (waiting count le_rfl) served, ?_, ?_, ?_, ?_⟩
    · intro request inside
      by_cases same : request = count
      · subst same
        rw [Function.update_self]
        trivial
      · rw [Function.update_of_ne same]
        exact passed request (by omega)
    · intro request outside
      rw [Function.update_of_ne (by omega)]
      exact waiting request (by omega)
    · exact Int.ofNat_le.mpr (Nat.mul_le_mul_right _ (Nat.le_succ count))
    · intro info found
      rw [checkRateLimit_own, idle.configured, checked] at found
      obtain rfl := Option.some.inj found
      have elapsed : ((count + 1) * config.windowSize : Nat) - (count * config.windowSize : Nat) = (config.windowSize : Int) := by
        rw [Nat.succ_mul, Nat.cast_add, add_sub_cancel_left]
      unfold RateLimitInfo.age
      dsimp only
      rw [elapsed, Int.toNat_natCast]

/-- The requests of a client that are under way are as few as the burst limit says exactly
when the limiter lets nothing through. -/
theorem burst_iff (config : RateLimitConfig) (validator : RequestValidator) :
    (∀ contexts start history threads world clientId (requests : List Nat),
      Processes config validator contexts start history threads world → requests.Nodup →
      (∀ request ∈ requests, (contexts request).clientId = clientId ∧ InFlight (threads request)) →
        requests.length ≤ config.burstSize) ↔
      config.requestsPerMinute = 0 ∨ config.burstSize = 0 := by
  constructor
  · intro holds
    by_contra opened
    obtain ⟨positive, burst⟩ := not_or.mp opened
    let context : RequestContext := ⟨"", "", .null, []⟩
    obtain ⟨history, threads, world, run, passed, _⟩ := @passes_one_more config validator context
      (Nat.pos_of_ne_zero positive) (Nat.pos_of_ne_zero burst) (config.burstSize + 1)
    have few := holds _ 0 history threads world "" (List.range (config.burstSize + 1)) run List.nodup_range
      (fun request member => ⟨rfl, passed request (List.mem_range.mp member)⟩)
    rw [List.length_range] at few
    exact Nat.not_succ_le_self _ few
  · intro closed contexts start history threads world clientId requests run _ inFlight
    cases requests with
    | nil => exact Nat.zero_le _
    | cons request requests =>
      exact absurd (inFlight request List.mem_cons_self).2 (none_in_flight closed run request).2

private def tellerContext : RequestContext := ⟨"teller", "deposit_money", .null, []⟩

/-- Two requests of one client at one instant, with a burst limit of one. -/
theorem burst_exceeded : ∃ history threads world,
    Processes ⟨2, 1, 60⟩ .new (fun _ => tellerContext) 0 history threads world ∧
      InFlight (threads 0) ∧ InFlight (threads 1) := by
  have first : Processes ⟨2, 1, 60⟩ .new (fun _ => tellerContext) 0 _ _ _ :=
    .serve 0 _ .start rfl (serves_check "teller" (le_refl 0))
  have second := first.serve 1 _ rfl (serves_check "teller" (le_refl 0))
  exact ⟨_, _, _, second, trivial, trivial⟩

end Runs
end BankingEs.Proofs.BurstControl
