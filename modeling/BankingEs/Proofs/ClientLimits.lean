import BankingEs.Proofs.BurstControl

/-! The limit of a client at the API. The handler takes every request for one of the client
"unknown", so that all clients share a single limit. -/

namespace BankingEs.Proofs.ClientLimits
open Async Handlers RequestMiddleware RateLimits BurstControl

/-- Requests that overlap in the handler, on a new middleware. -/
abbrev Api (config : RateLimitConfig) (parseStr : String → Bool) (libraries : WebLibraries)
    (requests : Nat → HttpRequest) (start : Instant) :=
  Interleaves (fun (_ : Nat) => RequestWorld.serves) (fun request => createAccount libraries (requests request).payload)
    ⟨start, setUp parseStr config⟩

def arrival : Served Nat RequestCall RequestWorld → Option (Nat × Instant)
  | ⟨thread, .checkRateLimit _, _, world⟩ => some (thread, world.now)
  | _ => none

/-- The requests of one client in a run. -/
def arrivals (requests : Nat → HttpRequest) (clientId : String) (history : List (Served Nat RequestCall RequestWorld)) :
    List (Nat × Instant) :=
  (history.filterMap arrival).filter fun arrived => (requests arrived.1).sender = some clientId

def rateLimitError : Response := .error (.badRequest, "Rate limit exceeded")

/-- Two families of requests that differ in other clients' requests only. -/
def SameFor (clientId : String) (requests others : Nat → HttpRequest) : Prop :=
  ∀ request, (requests request).sender = some clientId ∨ (others request).sender = some clientId →
    requests request = others request

section Texts
variable {libraries : WebLibraries} {payload : CreateAccountRequest}

/-- The text starts with another letter than the refusal of the limiter. -/
def StartsOtherwise (text : String) : Prop := ∃ first, text.toList.head? = some first ∧ first ≠ 'R'

private theorem StartsOtherwise.append {text : String} (starts : StartsOtherwise text) (rest : String) :
    StartsOtherwise (text ++ rest) := by
  obtain ⟨first, head, other⟩ := starts
  refine ⟨first, ?_, other⟩
  rw [String.toList_append, List.head?_append, head]
  rfl

private theorem StartsOtherwise.ne {text : String} (starts : StartsOtherwise text) : text ≠ "Rate limit exceeded" := by
  intro same
  subst same
  obtain ⟨first, head, other⟩ := starts
  exact other (Option.some.inj head).symm

private theorem display_startsOtherwise (error : AccountError) :
    StartsOtherwise (error.display libraries.decimalText) := by
  cases error with
  | notFound =>
    show StartsOtherwise "Account not found"
    exact ⟨'A', rfl, by decide⟩
  | insufficientFunds available requested =>
    apply StartsOtherwise.append
    apply StartsOtherwise.append
    apply StartsOtherwise.append
    exact ⟨'I', rfl, by decide⟩
  | accountClosed =>
    show StartsOtherwise "Account is closed"
    exact ⟨'A', rfl, by decide⟩
  | invalidAmount amount => exact StartsOtherwise.append ⟨'I', rfl, by decide⟩ _
  | eventDeserializationError message => exact StartsOtherwise.append ⟨'E', rfl, by decide⟩ _
  | infrastructureError message => exact StartsOtherwise.append ⟨'I', rfl, by decide⟩ _
  | versionConflict expected actual =>
    apply StartsOtherwise.append
    apply StartsOtherwise.append
    apply StartsOtherwise.append
    exact ⟨'V', rfl, by decide⟩

def context (payload : CreateAccountRequest) : RequestContext :=
  createRequestContext (getClientId []) "create_account" payload.toValue []

private theorem errors_ne {parseStr : String → Bool} {config : RateLimitConfig} :
    ", ".intercalate ((setUp parseStr config).requestValidator.validateRequest (context payload)).errors ≠
      "Rate limit exceeded" := by
  have rule : (setUp parseStr config).requestValidator.validators "create_account" =
      some AccountCreationValidator.validate := by
    simp [setUp, registerValidator, RequestValidator.registerValidator]
  unfold RequestValidator.validateRequest
  dsimp only [context, createRequestContext]
  rw [rule]
  by_cases unnamed : payload.ownerName.isEmpty <;> by_cases negative : payload.initialBalance < 0 <;>
    simp [AccountCreationValidator.validate, CreateAccountRequest.toValue, checkField, ValidationResult.reject,
      List.lookup_cons, unnamed, negative]

end Texts

section Stages
variable {libraries : WebLibraries} {payload : CreateAccountRequest}

/-- What the handler does with the verdict of the validator. -/
def conclude (libraries : WebLibraries) (payload : CreateAccountRequest) (result : ValidationResult) :
    Program RequestCall Response :=
  if result.isValid then
    .request (.createAccount payload.ownerName ((libraries.fromF64 payload.initialBalance).getD 0)) fun created =>
      .pure (created.mapError fun error => (.badRequest, error.display libraries.decimalText))
  else .pure (.error (.badRequest, ", ".intercalate result.errors))

private theorem createAccount_eq : createAccount libraries payload =
    .request (.checkRateLimit "unknown") fun allowed =>
      if allowed then .request (.validateRequest (context payload)) (conclude libraries payload)
      else .pure rateLimitError := by
  unfold createAccount processRequest
  refine congrArg (Program.request _) ?_
  funext allowed
  cases allowed with
  | false => rfl
  | true => rfl

/-- The request has passed the limiter, and will not be answered with its refusal. -/
inductive Passed (libraries : WebLibraries) (payload : CreateAccountRequest) : Program RequestCall Response → Prop where
  | validates : Passed libraries payload (.request (.validateRequest (context payload)) (conclude libraries payload))
  | creates (ownerName : String) (initialBalance : Decimal) :
      Passed libraries payload (.request (.createAccount ownerName initialBalance) fun created =>
        .pure (created.mapError fun error => (.badRequest, error.display libraries.decimalText)))
  | returned (response : Response) (other : response ≠ rateLimitError) : Passed libraries payload (.pure response)

private theorem Passed.ne {program : Program RequestCall Response} (passed : Passed libraries payload program) :
    program ≠ .pure rateLimitError := by
  cases passed with
  | validates => exact nofun
  | creates ownerName initialBalance => exact nofun
  | returned response other => exact fun same => other (Program.pure.inj same)

private theorem Passed.conclude {result : ValidationResult}
    (other : ", ".intercalate result.errors ≠ "Rate limit exceeded") :
    Passed libraries payload (conclude libraries payload result) := by
  unfold ClientLimits.conclude
  split
  next => exact .creates _ _
  next =>
    refine .returned _ ?_
    intro same
    exact other (congrArg Prod.snd (Except.error.inj same))

private theorem Passed.created (created : Except AccountError Uuid) : Passed libraries payload
    (.pure (created.mapError fun error => (.badRequest, error.display libraries.decimalText))) := by
  refine .returned _ ?_
  intro same
  cases created with
  | ok id => cases same
  | error error =>
    exact (display_startsOtherwise error).ne (congrArg Prod.snd (Except.error.inj same))

end Stages

section Runs
variable {config : RateLimitConfig} {parseStr : String → Bool} {libraries : WebLibraries}
  {requests : Nat → HttpRequest} {start : Instant} {history : List (Served Nat RequestCall RequestWorld)}
  {threads : Nat → Program RequestCall Response} {world before after : RequestWorld} {verdict : Bool}

private theorem run_validator (run : Api config parseStr libraries requests start history threads world) :
    world.middleware.requestValidator = (setUp parseStr config).requestValidator := by
  apply run.invariant (fun world => world.middleware.requestValidator = (setUp parseStr config).requestValidator) _ rfl
  intro _ _ op before reply after served kept
  rcases serves_middleware served with same | ⟨now, clientId, checked⟩
  · rw [same]
    exact kept
  · rw [checked]
    exact kept

/-- Every check has the same answer. -/
def Constant (config : RateLimitConfig) (verdict : Bool) : Prop :=
  ∀ now entry, Full config entry → (config.check now entry).1 = verdict

def Outcome (libraries : WebLibraries) (payload : CreateAccountRequest) (program : Program RequestCall Response) :
    Bool → Prop
  | true => Passed libraries payload program
  | false => program = .pure rateLimitError

def arrived (history : List (Served Nat RequestCall RequestWorld)) : List Nat :=
  (history.filterMap arrival).map fun arrival => arrival.1

private theorem arrived_append {past : List (Served Nat RequestCall RequestWorld)} :
    arrived (history ++ past) = arrived history ++ arrived past := by
  simp [arrived]

private theorem not_arrived_of_ne {β : Type} {op : RequestCall β} {reply : β} {request thread : Nat}
    (other : request ≠ thread) :
    request ∉ arrived [⟨thread, op, reply, world⟩] := by
  cases op <;> simp [arrived, arrival, other]

private theorem run_outcome (constant : Constant config verdict)
    (run : Api config parseStr libraries requests start history threads world) (request : Nat) :
    (threads request = createAccount libraries (requests request).payload ∧ request ∉ arrived history) ∨
      (Outcome libraries (requests request).payload (threads request) verdict ∧ request ∈ arrived history) := by
  induction run generalizing request with
  | start => exact .inl ⟨rfl, List.not_mem_nil⟩
  | @serve history threads before after β op resume thread reply run pending served ih =>
    rw [arrived_append, List.mem_append]
    by_cases same : request = thread
    · subst same
      rw [Function.update_self]
      refine .inr ?_
      rcases ih request with ⟨waiting, _⟩ | ⟨outcome, member⟩
      · rw [waiting, createAccount_eq] at pending
        cases pending
        obtain ⟨now, _, _, answer, _⟩ := check_answer served (run_idle run rfl)
        rw [constant now _ ((run_idle run rfl).full _)] at answer
        subst answer
        refine ⟨?_, .inr (by simp [arrived, arrival])⟩
        cases reply with
        | false => rfl
        | true => exact .validates
      · refine ⟨?_, .inl member⟩
        rw [pending] at outcome
        cases verdict with
        | false => cases outcome
        | true =>
          cases outcome with
          | validates =>
            obtain ⟨now, _, answer, _⟩ := served
            rw [answer, run_validator run]
            exact Passed.conclude errors_ne
          | creates ownerName initialBalance => exact Passed.created reply
    · rw [Function.update_of_ne same]
      rcases ih request with ⟨waiting, absent⟩ | ⟨outcome, member⟩
      · refine .inl ⟨waiting, ?_⟩
        intro member
        exact member.elim absent (not_arrived_of_ne same)
      · exact .inr ⟨outcome, .inl member⟩

private theorem limited_iff (constant : Constant config verdict)
    (run : Api config parseStr libraries requests start history threads world) (request : Nat) :
    threads request = .pure rateLimitError ↔ verdict = false ∧ request ∈ arrived history := by
  rcases run_outcome constant run request with ⟨waiting, absent⟩ | ⟨outcome, member⟩
  · rw [waiting, createAccount_eq]
    exact ⟨nofun, fun ⟨_, member⟩ => absurd member absent⟩
  · cases verdict with
    | false => exact ⟨fun _ => ⟨rfl, member⟩, fun _ => outcome⟩
    | true => exact ⟨fun limited => absurd limited outcome.ne, nofun⟩

private theorem constant_of_degenerate (degenerate : config.requestsPerMinute = 0 ∨ config.burstSize = 0 ∨ config.windowSize = 0) :
    ∃ verdict, Constant config verdict := by
  by_cases opened : 0 < config.requestsPerMinute ∧ 0 < config.burstSize
  · refine ⟨true, ?_⟩
    intro now entry full
    have short : config.windowSize = 0 := by
      rcases degenerate with none | none | short
      · omega
      · omega
      · exact short
    rcases current_cases now full with ⟨renewed, _⟩ | ⟨info, _, young, _⟩
    · rw [check_renewed renewed full opened.1 opened.2]
    · rw [short] at young
      exact absurd young (Nat.not_lt_zero _)
  · refine ⟨false, ?_⟩
    intro now entry full
    rw [check_eq full, if_neg]
    intro room
    exact opened ⟨Nat.zero_lt_of_lt room.1, room.2⟩

private theorem mem_arrivals {clientId : String} {request : Nat} (sent : (requests request).sender = some clientId) :
    request ∈ (arrivals requests clientId history).map (fun arrival => arrival.1) ↔ request ∈ arrived history := by
  simp [arrivals, arrived, sent]

private theorem arrivals_append {clientId : String} {past : List (Served Nat RequestCall RequestWorld)} :
    arrivals requests clientId (history ++ past) = arrivals requests clientId history ++ arrivals requests clientId past := by
  simp [arrivals]

/-- The first request is from one client and all others are from another. -/
def twoClients (clientId other : String) : Nat → HttpRequest
  | 0 => ⟨[("x-client-id", some clientId)], ⟨"owner", 0⟩⟩
  | _ + 1 => ⟨[("x-client-id", some other)], ⟨"owner", 0⟩⟩

private theorem age_zero {requests : Nat} {now : Instant} {semaphore : Semaphore} :
    (⟨requests, now, semaphore⟩ : RateLimitInfo).age now = 0 := by
  simp [RateLimitInfo.age]

/-- The other client's requests are counted in the window of the first one's. -/
theorem fills_window {clientId other : String} (apart : other ≠ clientId) (burst : 0 < config.burstSize)
    (lasting : 0 < config.windowSize) (count : Nat) (room : count ≤ config.requestsPerMinute) :
    ∃ history threads world,
      Api config parseStr libraries (twoClients clientId other) 0 history threads world ∧
        (∀ request, request = 0 ∨ count < request →
          threads request = createAccount libraries (twoClients clientId other request).payload) ∧
        arrivals (twoClients clientId other) clientId history = [] ∧ world.now = 0 ∧
        current config 0 (world.middleware.rateLimiter.limits "unknown") = ⟨count, 0, .new config.burstSize⟩ := by
  induction count with
  | zero => exact ⟨[], _, _, .start, fun _ _ => rfl, rfl, rfl, current_none⟩
  | succ count ih =>
    obtain ⟨history, threads, world, run, waiting, none, now, found⟩ := ih (by omega)
    have idle : Idle config world.middleware.rateLimiter := run_idle run rfl
    have checked : config.check 0 (world.middleware.rateLimiter.limits "unknown") =
        (true, ⟨count + 1, 0, .new config.burstSize⟩) := by
      rw [check_eq (idle.full _), found, if_pos ⟨room, burst⟩]
    have served := serves_check "unknown" now.le
    refine ⟨_, _, _, .serve (count + 1) _ run ((waiting (count + 1) (.inr (by omega))).trans createAccount_eq) served,
      ?_, ?_, rfl, ?_⟩
    · intro request apart
      rw [Function.update_of_ne (by omega)]
      exact waiting request (by omega)
    · rw [arrivals_append, none]
      simp [arrivals, arrival, twoClients, HttpRequest.sender, apart]
    · rw [checkRateLimit_own, idle.configured, checked]
      exact current_running (age_zero.trans_lt lasting)

/-- Whether a request is refused is up to the requests of the other client before it. -/
theorem refused_after {clientId other : String} (apart : other ≠ clientId) (burst : 0 < config.burstSize)
    (lasting : 0 < config.windowSize) (count : Nat) (room : count ≤ config.requestsPerMinute) :
    ∃ history threads world,
      Api config parseStr libraries (twoClients clientId other) 0 history threads world ∧
        arrivals (twoClients clientId other) clientId history = [(0, 0)] ∧
        (threads 0 = .pure rateLimitError ↔ count = config.requestsPerMinute) := by
  obtain ⟨history, threads, world, run, waiting, none, now, found⟩ :=
    @fills_window config parseStr libraries clientId other apart burst lasting count room
  have idle : Idle config world.middleware.rateLimiter := run_idle run rfl
  have served := serves_check "unknown" now.le
  refine ⟨_, _, _, .serve 0 _ run ((waiting 0 (.inl rfl)).trans createAccount_eq) served, ?_, ?_⟩
  · rw [arrivals_append, none]
    simp [arrivals, arrival, twoClients, HttpRequest.sender]
  · rw [Function.update_self, RateLimiter.checkRateLimit, idle.configured]
    rcases Nat.lt_or_eq_of_le room with less | rfl
    · have answer : (config.check 0 (world.middleware.rateLimiter.limits "unknown")).1 = true := by
        rw [check_eq (idle.full _), found, if_pos ⟨less, burst⟩]
      rw [answer]
      refine ⟨fun refused => ?_, fun same => absurd same less.ne⟩
      cases refused
    · have answer : (config.check 0 (world.middleware.rateLimiter.limits "unknown")).1 = false := by
        rw [check_eq (idle.full _), found, if_neg (by simp)]
      rw [answer]
      exact iff_of_true rfl rfl

/-- What the other clients do makes no difference to a client exactly when every check has
the same answer whoever asks. -/
theorem client_limits_iff (config : RateLimitConfig) (parseStr : String → Bool) (libraries : WebLibraries)
    (clientId : String) :
    (∀ requests others start start' history history' threads threads' world world',
      (∀ request, (requests request).sender.isSome ∧ (others request).sender.isSome) →
      SameFor clientId requests others →
      Api config parseStr libraries requests start history threads world →
      Api config parseStr libraries others start' history' threads' world' →
      arrivals requests clientId history = arrivals others clientId history' →
      ∀ request, (requests request).sender = some clientId →
        (threads request = .pure rateLimitError ↔ threads' request = .pure rateLimitError)) ↔
      config.requestsPerMinute = 0 ∨ config.burstSize = 0 ∨ config.windowSize = 0 := by
  constructor
  · intro holds
    by_contra limited
    simp only [not_or] at limited
    obtain ⟨positive, burst, lasting⟩ := limited
    have apart : clientId ++ "'" ≠ clientId := by
      intro same
      simpa using congrArg String.length same
    have runs := @refused_after config parseStr libraries _ _ apart (Nat.pos_of_ne_zero burst) (Nat.pos_of_ne_zero lasting)
    obtain ⟨history, threads, world, run, alone, passed⟩ := runs 0 (Nat.zero_le _)
    obtain ⟨history', threads', world', run', among, refused⟩ := runs _ le_rfl
    have carried request : (twoClients clientId (clientId ++ "'") request).sender.isSome := by
      cases request <;> rfl
    have same := holds _ _ 0 0 _ _ _ _ _ _ (fun request => ⟨carried request, carried request⟩) (fun _ _ => rfl) run run'
      (alone.trans among.symm) 0 rfl
    exact positive (passed.mp (same.mpr (refused.mpr rfl))).symm
  · intro degenerate requests others start start' history history' threads threads' world world' _ same run run' alike
      request sent
    obtain ⟨verdict, constant⟩ := constant_of_degenerate degenerate
    have sent' : (others request).sender = some clientId := by
      rw [← same request (.inl sent)]
      exact sent
    rw [limited_iff constant run request, limited_iff constant run' request, ← mem_arrivals sent, ← mem_arrivals sent',
      alike]

private def anyLibraries : WebLibraries := ⟨some, fun _ => ""⟩

/-- One request per window: whether the teller is refused depends on the batch client. -/
theorem client_limits_shared :
    (∃ history threads world,
      Api ⟨1, 1, 60⟩ (fun _ => true) anyLibraries (twoClients "teller" "batch") 0 history threads world ∧
        arrivals (twoClients "teller" "batch") "teller" history = [(0, 0)] ∧ threads 0 = .pure (.ok ⟨7⟩)) ∧
    ∃ history threads world,
      Api ⟨1, 1, 60⟩ (fun _ => true) anyLibraries (twoClients "teller" "batch") 0 history threads world ∧
        arrivals (twoClients "teller" "batch") "teller" history = [(0, 0)] ∧ threads 0 = .pure rateLimitError := by
  constructor
  · have checked : Api ⟨1, 1, 60⟩ (fun _ => true) anyLibraries (twoClients "teller" "batch") 0 _ _ _ :=
      .serve 0 _ .start createAccount_eq (serves_check "unknown" (le_refl 0))
    have validated := checked.serve 0 {} rfl ⟨0, le_rfl, by decide, rfl⟩
    have created := validated.serve 0 (.ok ⟨7⟩) rfl ⟨0, le_rfl, rfl⟩
    exact ⟨_, _, _, created, rfl, rfl⟩
  · have other : Api ⟨1, 1, 60⟩ (fun _ => true) anyLibraries (twoClients "teller" "batch") 0 _ _ _ :=
      .serve 1 _ .start createAccount_eq (serves_check "unknown" (le_refl 0))
    have refused := other.serve 0 _ createAccount_eq (serves_check "unknown" (le_refl 0))
    exact ⟨_, _, _, refused, rfl, rfl⟩

end Runs
end BankingEs.Proofs.ClientLimits
