import Mathlib.Algebra.Order.Group.Int
import Mathlib.Tactic.Linarith
import BankingEs.Web.Middleware
import BankingEs.Windows

/-! The limits of the middleware. What a client is answered depends only on the times of
its own checks: dropping an entry whose window has ended is the same as renewing it. The
windows follow each other, so one that slides may hold the requests of two of them. -/

namespace BankingEs.Proofs.RateLimits
open RateLimitInfo

section Entries
variable {config : RateLimitConfig} {now later : Instant} {entry : Option RateLimitInfo} {info : RateLimitInfo}

/-- Between two checks every permit of a semaphore is free. -/
def Full (config : RateLimitConfig) (entry : Option RateLimitInfo) : Prop :=
  ∀ info, entry = some info → info.semaphore = .new config.burstSize

/-- The entry that a check decides on, with its window renewed. -/
def current (config : RateLimitConfig) (now : Instant) (entry : Option RateLimitInfo) : RateLimitInfo :=
  (entry.getD (.fresh config now)).renew config now

private theorem Full.none : Full config none := fun _ impossible => (by cases impossible)

private theorem age_mono (waits : now ≤ later) : info.age now ≤ info.age later :=
  Int.toNat_le_toNat (sub_le_sub_right waits _)

theorem current_none : current config now none = .fresh config now := by
  unfold current RateLimitInfo.renew
  split <;> rfl

private theorem current_expired (full : Full config (some info)) (expired : config.windowSize ≤ info.age now) :
    current config now (some info) = .fresh config now := by
  simp [current, renew, fresh, expired, full info rfl]

theorem current_running (running : info.age now < config.windowSize) : current config now (some info) = info := by
  simp [current, renew, Nat.not_le.mpr running]

theorem current_cases (now : Instant) (full : Full config entry) :
    (current config now entry = .fresh config now ∧ ∀ info, entry = some info → config.windowSize ≤ info.age now) ∨
      ∃ info, entry = some info ∧ info.age now < config.windowSize ∧ current config now entry = info := by
  cases entry with
  | none => exact .inl ⟨current_none, fun _ impossible => (by cases impossible)⟩
  | some info =>
    rcases Nat.lt_or_ge (info.age now) config.windowSize with running | expired
    · exact .inr ⟨info, rfl, running, current_running running⟩
    · refine .inl ⟨current_expired full expired, ?_⟩
      intro other found
      obtain rfl := Option.some.inj found
      exact expired

private theorem current_semaphore (full : Full config entry) :
    (current config now entry).semaphore = .new config.burstSize := by
  rcases current_cases now full with ⟨renewed, _⟩ | ⟨info, found, _, running⟩
  · rw [renewed]
    rfl
  · rw [running]
    exact full info found

/-- The semaphore refuses only if it has no permit at all. -/
theorem pass_eq (full : info.semaphore = .new config.burstSize) :
    info.pass config = if info.requests < config.requestsPerMinute ∧ 0 < config.burstSize
      then (true, { info with requests := info.requests + 1 }) else (false, info) := by
  unfold RateLimitInfo.pass
  by_cases used : config.requestsPerMinute ≤ info.requests
  · rw [if_pos used, if_neg]
    intro room
    exact Nat.not_lt.mpr used room.1
  · rw [if_neg used]
    cases acquired : info.semaphore.tryAcquire with
    | none =>
      have empty := Semaphore.tryAcquire_eq_none.mp acquired
      rw [full] at empty
      rw [if_neg]
      intro room
      exact Nat.ne_of_gt room.2 empty
    | some taken =>
      have back := Semaphore.tryAcquire_eq_some.mp acquired
      have positive : 0 < config.burstSize := by
        rw [full] at back
        rw [show config.burstSize = taken.available + 1 from congrArg Semaphore.available back]
        exact Nat.succ_pos _
      rw [if_pos ⟨Nat.not_le.mp used, positive⟩, back]

theorem check_eq (full : Full config entry) :
    config.check now entry =
      if (current config now entry).requests < config.requestsPerMinute ∧ 0 < config.burstSize
      then (true, { current config now entry with requests := (current config now entry).requests + 1 })
      else (false, current config now entry) :=
  pass_eq (current_semaphore full)

private theorem check_full (full : Full config entry) : Full config (some (config.check now entry).2) := by
  intro info found
  obtain rfl := Option.some.inj found
  rw [check_eq full]
  split
  next => exact current_semaphore full
  next => exact current_semaphore full

/-- An entry that is dropped when its window has ended is not missed. -/
theorem current_cleaned (full : Full config entry) (waits : now ≤ later) :
    current config later (entry.filter fun info => info.age now < config.windowSize) = current config later entry := by
  cases entry with
  | none => rfl
  | some info =>
    by_cases running : info.age now < config.windowSize
    · rw [Option.filter_some, if_pos (decide_eq_true running)]
    · rw [Option.filter_some, if_neg (by simpa using running), current_none]
      exact (current_expired full ((Nat.not_lt.mp running).trans (age_mono waits))).symm

end Entries

section Isolation
variable {config : RateLimitConfig} {clientId : String} {limiter : RateLimiter} {now : Instant}
  {calls : List LimiterCall}

/-- What a limiter with one client answers. -/
def answersAlone (config : RateLimitConfig) : Option RateLimitInfo → List Instant → List (Instant × Bool)
  | _, [] => []
  | entry, now :: times =>
    (now, (config.check now entry).1) :: answersAlone config (some (config.check now entry).2) times

def own (clientId : String) (calls : List LimiterCall) : List LimiterCall :=
  calls.filter fun call => call.operation = .checkRateLimit clientId

def Ordered (calls : List LimiterCall) : Prop := calls.Pairwise fun first second => first.time ≤ second.time

/-- The entries that a client has in two limiters make no difference from `now` on. -/
def Alike (config : RateLimitConfig) (now : Instant) (first second : Option RateLimitInfo) : Prop :=
  ∀ later, now ≤ later → current config later first = current config later second

private theorem Alike.later {first second : Option RateLimitInfo} {later : Instant}
    (alike : Alike config now first second)
    (waits : now ≤ later) : Alike config later first second := fun _ after => alike _ (waits.trans after)

private theorem Alike.check {first second : Option RateLimitInfo} (alike : Alike config now first second) :
    config.check now first = config.check now second := by
  have same := alike now le_rfl
  unfold current at same
  rw [RateLimitConfig.check, same]
  rfl

structure Idle (config : RateLimitConfig) (limiter : RateLimiter) : Prop where
  configured : limiter.config = config
  full : ∀ clientId, Full config (limiter.limits clientId)

section Calls
variable {caller : String} {time : Instant}

theorem Idle.new : Idle config (.new config) := ⟨rfl, fun _ => Full.none⟩

theorem checkRateLimit_own : (limiter.checkRateLimit time caller).2.limits caller =
    some (limiter.config.check time (limiter.limits caller)).2 := by
  simp [RateLimiter.checkRateLimit]

private theorem checkRateLimit_other (other : clientId ≠ caller) :
    (limiter.checkRateLimit time caller).2.limits clientId = limiter.limits clientId := by
  simp [RateLimiter.checkRateLimit, other]

theorem Idle.checkRateLimit (idle : Idle config limiter) : Idle config (limiter.checkRateLimit time caller).2 := by
  refine ⟨idle.configured, ?_⟩
  intro clientId
  by_cases same : clientId = caller
  · subst same
    rw [checkRateLimit_own, idle.configured]
    exact check_full (idle.full clientId)
  · rw [checkRateLimit_other same]
    exact idle.full clientId

private theorem Idle.cleanupExpiredLimits (idle : Idle config limiter) :
    Idle config (limiter.cleanupExpiredLimits time) := by
  refine ⟨idle.configured, ?_⟩
  intro clientId info found
  obtain ⟨found, _⟩ := Option.filter_eq_some_iff.mp found
  exact idle.full clientId info found

private theorem answers_own (idle : Idle config limiter) :
    limiter.answers clientId (⟨time, .checkRateLimit clientId⟩ :: calls) =
      (time, (config.check time (limiter.limits clientId)).1) ::
        (limiter.checkRateLimit time clientId).2.answers clientId calls := by
  simp [RateLimiter.answers, RateLimiter.checkRateLimit, idle.configured]

private theorem answers_other (other : caller ≠ clientId) :
    limiter.answers clientId (⟨time, .checkRateLimit caller⟩ :: calls) =
      (limiter.checkRateLimit time caller).2.answers clientId calls := by
  simp [RateLimiter.answers, other]

private theorem own_other (other : caller ≠ clientId) :
    own clientId (⟨time, .checkRateLimit caller⟩ :: calls) = own clientId calls := by
  simp [own, other]

end Calls

private theorem answers_eq_alone {entry : Option RateLimitInfo} (idle : Idle config limiter)
    (alike : Alike config now (limiter.limits clientId) entry)
    (after : ∀ call ∈ calls, now ≤ call.time) (ordered : Ordered calls) :
    limiter.answers clientId calls = answersAlone config entry ((own clientId calls).map fun call => call.time) := by
  induction calls generalizing limiter entry now with
  | nil => rfl
  | cons call calls ih =>
    obtain ⟨next, rest⟩ := List.pairwise_cons.mp ordered
    have alike := alike.later (after call List.mem_cons_self)
    obtain ⟨time, operation⟩ := call
    cases operation with
    | cleanupExpiredLimits =>
      rw [RateLimiter.answers, own, List.filter_cons_of_neg (by simp)]
      refine ih idle.cleanupExpiredLimits ?_ next rest
      intro later waits
      rw [← alike later waits, RateLimiter.cleanupExpiredLimits, idle.configured]
      exact current_cleaned (idle.full clientId) waits
    | checkRateLimit caller =>
      by_cases same : caller = clientId
      · subst same
        rw [answers_own idle, own, List.filter_cons_of_pos (by simp), List.map_cons, answersAlone, alike.check]
        congr 1
        refine ih idle.checkRateLimit ?_ next rest
        intro later _
        rw [checkRateLimit_own, idle.configured, alike.check]
      · rw [answers_other same, own_other same]
        refine ih idle.checkRateLimit ?_ next rest
        intro later waits
        rw [checkRateLimit_other (Ne.symm same)]
        exact alike later waits

private theorem answers_new (ordered : Ordered calls) : (RateLimiter.new config).answers clientId calls =
    answersAlone config none ((own clientId calls).map fun call => call.time) := by
  cases calls with
  | nil => rfl
  | cons call calls =>
    apply answers_eq_alone Idle.new (fun _ (_ : call.time ≤ _) => rfl) _ ordered
    intro other member
    rcases List.mem_cons.mp member with rfl | member
    · exact le_rfl
    · exact (List.pairwise_cons.mp ordered).1 other member

/-- A client is answered as if it were alone and nothing were ever cleaned up. -/
theorem answers_isolated (config : RateLimitConfig) (clientId : String) (calls : List LimiterCall)
    (ordered : Ordered calls) :
    (RateLimiter.new config).answers clientId calls = (RateLimiter.new config).answers clientId (own clientId calls) := by
  have fewer : Ordered (own clientId calls) := List.Pairwise.filter _ ordered
  rw [answers_new ordered, answers_new fewer, own, own, List.filter_filter]
  simp only [Bool.and_self]

private def mixedCalls : List LimiterCall :=
  [⟨0, .checkRateLimit "teller"⟩, ⟨0, .checkRateLimit "batch"⟩, ⟨60, .cleanupExpiredLimits⟩,
    ⟨60, .checkRateLimit "teller"⟩, ⟨61, .checkRateLimit "teller"⟩]

theorem answers_isolated_teller :
    Ordered mixedCalls ∧ (RateLimiter.new ⟨1, 1, 60⟩).answers "teller" mixedCalls =
      (RateLimiter.new ⟨1, 1, 60⟩).answers "teller" (own "teller" mixedCalls) := by
  have ordered : Ordered mixedCalls := by
    unfold Ordered
    decide
  exact ⟨ordered, answers_isolated ⟨1, 1, 60⟩ "teller" mixedCalls ordered⟩

end Isolation

section SlidingWindows
variable {config : RateLimitConfig} {clientId : String} {now later : Instant} {entry : Option RateLimitInfo}
  {info : RateLimitInfo} {times visits : List Instant}

def grantedAlone (config : RateLimitConfig) (entry : Option RateLimitInfo) (times : List Instant) : List Instant :=
  ((answersAlone config entry times).filter fun answer => answer.2).map fun answer => answer.1

private theorem granted_new {calls : List LimiterCall} (ordered : Ordered calls) :
    (RateLimiter.new config).granted clientId calls =
      grantedAlone config none ((own clientId calls).map fun call => call.time) := by
  rw [RateLimiter.granted, answers_new ordered, grantedAlone]

private theorem grantedAlone_cons : grantedAlone config entry (now :: times) =
    (if (config.check now entry).1 then [now] else []) ++
      grantedAlone config (some (config.check now entry).2) times := by
  unfold grantedAlone
  rw [answersAlone, List.filter_cons]
  split <;> rfl

/-- Every request in `times` was let through at the start of its window: those that are
less than a window ago belong to the window that runs. -/
structure Starts (config : RateLimitConfig) (now : Instant) (entry : Option RateLimitInfo) (times : List Instant) :
    Prop where
  started : ∀ info, entry = some info → info.windowStart ≤ now
  recent : ∀ time ∈ Windows.recent (config.windowSize : Int) now times,
    ∃ info, entry = some info ∧ time = info.windowStart
  counted : ∀ info, entry = some info →
    (Windows.recent (config.windowSize : Int) now times).length ≤ info.requests
  bounded : Windows.Bounded config.requestsPerMinute (config.windowSize : Int) times

/-- No window is left without a request. -/
def Used (config : RateLimitConfig) (entry : Option RateLimitInfo) : Prop :=
  ∀ info, entry = some info → 0 < config.requestsPerMinute → 0 < config.burstSize → 0 < info.requests

private theorem Starts.new : Starts config now none [] :=
  ⟨fun _ impossible => (by cases impossible), fun _ impossible => (by cases impossible),
    fun _ impossible => (by cases impossible), Windows.Bounded.nil⟩

private theorem Starts.current (starts : Starts config now entry times) (full : Full config entry)
    (waits : now ≤ later) :
    Starts config later (some (current config later entry)) times := by
  have older : (Windows.recent (config.windowSize : Int) later times).Sublist (Windows.recent config.windowSize now times) :=
    Windows.recent_sublist waits
  rcases current_cases later full with ⟨renewed, expired⟩ | ⟨info, rfl, _, running⟩
  · -- whatever was recent was let through at the start of a window that has ended
    have old : Windows.recent (config.windowSize : Int) later times = [] := by
      apply List.eq_nil_iff_forall_not_mem.mpr
      intro time member
      obtain ⟨info, found, rfl⟩ := starts.recent time (older.subset member)
      have ended : (config.windowSize : Int) ≤ (later - info.windowStart).toNat := Int.ofNat_le.mpr (expired info found)
      rw [Int.toNat_of_nonneg (sub_nonneg.mpr ((starts.started info found).trans waits))] at ended
      exact absurd (Windows.mem_recent.mp member).2 (not_lt.mpr (le_sub_iff_add_le'.mp ended))
    rw [renewed]
    refine ⟨?_, ?_, ?_, starts.bounded⟩
    · intro info found
      obtain rfl := Option.some.inj found
      exact le_rfl
    · simp [old]
    · simp [old]
  · rw [running]
    refine ⟨?_, ?_, ?_, starts.bounded⟩
    · intro other found
      exact (starts.started other found).trans waits
    · intro time member
      exact starts.recent time (older.subset member)
    · intro other found
      exact older.length_le.trans (starts.counted other found)

private theorem start_of_room (starts : Starts config now entry times) (full : Full config entry)
    (used : Used config entry)
    (waits : now ≤ later) (narrow : config.requestsPerMinute ≤ 1 ∨ config.windowSize ≤ 1)
    (room : (current config later entry).requests < config.requestsPerMinute) (burst : 0 < config.burstSize) :
    (current config later entry).windowStart = later := by
  rcases current_cases later full with ⟨renewed, _⟩ | ⟨info, rfl, young, running⟩
  · rw [renewed]
    rfl
  · rw [running] at room ⊢
    rcases narrow with single | instant
    · have taken := used info rfl (Nat.zero_lt_of_lt room) burst
      omega
    · have before := (starts.started info rfl).trans waits
      unfold RateLimitInfo.age at young
      have zero := Nat.lt_one_iff.mp (young.trans_le instant)
      exact le_antisymm before (sub_nonpos.mp (Int.toNat_eq_zero.mp zero))

private theorem Used.check (full : Full config entry) : Used config (some (config.check now entry).2) := by
  intro info found positive burst
  obtain rfl := Option.some.inj found
  rw [check_eq full]
  split
  next => exact Nat.succ_pos _
  next refused =>
    have spent : config.requestsPerMinute ≤ (current config now entry).requests := by
      by_contra room
      exact refused ⟨Nat.not_le.mp room, burst⟩
    exact positive.trans_le spent

private theorem Starts.check (starts : Starts config now entry times) (full : Full config entry)
    (used : Used config entry)
    (waits : now ≤ later) (narrow : config.requestsPerMinute ≤ 1 ∨ config.windowSize ≤ 1) :
    Starts config later (some (config.check later entry).2)
      (if (config.check later entry).1 then later :: times else times) := by
  have found := starts.current full waits
  rw [check_eq full]
  split
  next room =>
    have start := start_of_room starts full used waits narrow room.1 room.2
    have few := found.counted _ rfl
    rw [if_pos rfl]
    refine ⟨?_, ?_, ?_, found.bounded.cons (few.trans_lt room.1)⟩
    · intro info same
      obtain rfl := Option.some.inj same
      exact start.le
    · intro time member
      refine ⟨_, rfl, ?_⟩
      obtain ⟨member, recent⟩ := Windows.mem_recent.mp member
      rcases List.mem_cons.mp member with rfl | member
      · exact start.symm
      · obtain ⟨info, same, starting⟩ := found.recent time (Windows.mem_recent.mpr ⟨member, recent⟩)
        obtain rfl := Option.some.inj same
        exact starting
    · intro info same
      obtain rfl := Option.some.inj same
      exact Windows.recent_cons_length_le.trans (Nat.succ_le_succ few)
  next => exact found

private theorem grantedAlone_bounded (starts : Starts config now entry times) (full : Full config entry)
    (used : Used config entry) (narrow : config.requestsPerMinute ≤ 1 ∨ config.windowSize ≤ 1)
    (after : ∀ time ∈ visits, now ≤ time) (ordered : visits.Pairwise (· ≤ ·)) :
    Windows.Bounded config.requestsPerMinute (config.windowSize : Int)
      ((grantedAlone config entry visits).reverse ++ times) := by
  induction visits generalizing now entry times with
  | nil => exact starts.bounded
  | cons visit visits ih =>
    obtain ⟨next, rest⟩ := List.pairwise_cons.mp ordered
    have checked := starts.check full used (after visit List.mem_cons_self) narrow
    have bounded := ih checked (check_full full) (Used.check full) next rest
    rw [grantedAlone_cons, List.reverse_append, List.append_assoc]
    split at bounded
    next allowed => rwa [if_pos allowed]
    next refused => rwa [if_neg refused]

private theorem check_refuses (full : Full config entry) (closed : config.burstSize = 0) :
    (config.check now entry).1 = false := by
  rw [check_eq full, if_neg]
  intro room
  exact Nat.ne_of_gt room.2 closed

private theorem grantedAlone_of_closed (full : Full config entry) (closed : config.burstSize = 0) :
    grantedAlone config entry visits = [] := by
  induction visits generalizing entry with
  | nil => rfl
  | cons visit visits ih =>
    rw [grantedAlone_cons, check_refuses full closed, ih (check_full full)]
    rfl

theorem check_renewed (renewed : current config now entry = .fresh config now) (full : Full config entry)
    (positive : 0 < config.requestsPerMinute) (burst : 0 < config.burstSize) :
    config.check now entry = (true, ⟨1, now, .new config.burstSize⟩) := by
  rw [check_eq full, renewed, if_pos ⟨positive, burst⟩]
  rfl

private theorem grantedAlone_replicate (full : Full config (some info)) (burst : 0 < config.burstSize)
    (young : info.age now < config.windowSize) (count : Nat)
    (room : info.requests + count ≤ config.requestsPerMinute) :
    grantedAlone config (some info) (List.replicate count now ++ visits) =
      List.replicate count now ++ grantedAlone config (some { info with requests := info.requests + count }) visits := by
  induction count generalizing info with
  | zero => rfl
  | succ count ih =>
    have checked : config.check now (some info) = (true, { info with requests := info.requests + 1 }) := by
      rw [check_eq full, current_running young, if_pos ⟨by omega, burst⟩]
    have next : Full config (some { info with requests := info.requests + 1 }) := by
      intro other found
      obtain rfl := Option.some.inj found
      exact full info rfl
    rw [List.replicate_succ, List.cons_append, grantedAlone_cons, checked]
    dsimp only
    rw [ih next young (by dsimp only; omega), if_pos rfl]
    dsimp only
    rw [Nat.add_assoc, Nat.add_comm 1 count]
    rfl

/-- A window that has been used up at its last instant, and two requests right after it. -/
def crowd (config : RateLimitConfig) : List Instant :=
  0 :: (List.replicate (config.requestsPerMinute - 1) (config.windowSize - 1 : Int) ++
    [(config.windowSize : Int), (config.windowSize : Int)])

private theorem before_end {window : Nat} (lasting : 2 ≤ window) : ((window : Int) - 1 - 0).toNat < window := by omega

private theorem grantedAlone_crowd (several : 2 ≤ config.requestsPerMinute) (burst : 0 < config.burstSize)
    (lasting : 2 ≤ config.windowSize) : grantedAlone config none (crowd config) = crowd config := by
  have positive : 0 < config.requestsPerMinute := by omega
  have full requests start : Full config (some ⟨requests, start, .new config.burstSize⟩) := by
    intro info found
    obtain rfl := Option.some.inj found
    rfl
  have renewed requests : current config (config.windowSize : Int) (some ⟨requests, 0, .new config.burstSize⟩) =
      .fresh config (config.windowSize : Int) := by
    apply current_expired (full requests 0)
    simp [RateLimitInfo.age]
  have young : (⟨1, config.windowSize, .new config.burstSize⟩ : RateLimitInfo).age config.windowSize <
      config.windowSize := by
    simpa [RateLimitInfo.age] using Nat.zero_lt_of_lt lasting
  have again : config.check (config.windowSize : Int) (some ⟨1, config.windowSize, .new config.burstSize⟩) =
      (true, ⟨2, config.windowSize, .new config.burstSize⟩) := by
    rw [check_eq (full 1 _), current_running young, if_pos ⟨several, burst⟩]
  rw [crowd, grantedAlone_cons, check_renewed current_none Full.none positive burst]
  dsimp only
  rw [grantedAlone_replicate (full 1 0) burst (before_end lasting) _ (by dsimp only; omega)]
  rw [grantedAlone_cons, check_renewed (renewed _) (full _ 0) positive burst]
  dsimp only
  rw [grantedAlone_cons, again]
  rfl

private theorem crowd_not_bounded (several : 2 ≤ config.requestsPerMinute) (lasting : 2 ≤ config.windowSize) :
    ¬ Windows.Bounded config.requestsPerMinute (config.windowSize : Int) (crowd config) := by
  intro bounded
  have long : (2 : Int) ≤ config.windowSize := Int.ofNat_le.mpr lasting
  have counted := bounded (config.windowSize - 1 : Int)
  have inside : Windows.within (config.windowSize : Int) (config.windowSize - 1 : Int) (crowd config) =
      List.replicate (config.requestsPerMinute - 1) (config.windowSize - 1 : Int) ++
        [(config.windowSize : Int), (config.windowSize : Int)] := by
    have start : ¬ config.windowSize ≤ 1 := Nat.not_le.mpr lasting
    have last : (config.windowSize : Int) - 1 < config.windowSize - 1 + config.windowSize := by linarith
    have next : (config.windowSize : Int) < config.windowSize - 1 + config.windowSize := by linarith
    simp [Windows.within, crowd, start, last, next]
  rw [inside] at counted
  simp at counted
  omega

private theorem crowd_ordered (lasting : 2 ≤ config.windowSize) : (crowd config).Pairwise (· ≤ ·) := by
  have long : (2 : Int) ≤ config.windowSize := Int.ofNat_le.mpr lasting
  refine List.pairwise_cons.mpr ⟨?_, List.pairwise_append.mpr ⟨?_, ?_, ?_⟩⟩
  · intro time member
    rcases List.mem_append.mp member with last | next
    · rw [List.eq_of_mem_replicate last]
      linarith
    · have same : time = config.windowSize := by simpa using next
      linarith
  · exact List.pairwise_replicate.mpr (.inr le_rfl)
  · simp
  · intro last member time next
    have same : time = config.windowSize := by simpa using next
    rw [List.eq_of_mem_replicate member]
    linarith

def checksAt (clientId : String) (times : List Instant) : List LimiterCall :=
  times.map fun time => ⟨time, .checkRateLimit clientId⟩

private theorem checksAt_ordered (ordered : times.Pairwise (· ≤ ·)) : Ordered (checksAt clientId times) :=
  List.Pairwise.map _ (fun _ _ before => before) ordered

private theorem own_checksAt : (own clientId (checksAt clientId times)).map (fun call => call.time) = times := by
  simp [own, checksAt, List.filter_map, Function.comp_def]

private theorem granted_bounded {calls : List LimiterCall} (ordered : Ordered calls)
    (narrow : config.requestsPerMinute ≤ 1 ∨ config.windowSize ≤ 1) :
    Windows.Bounded config.requestsPerMinute (config.windowSize : Int)
      ((RateLimiter.new config).granted clientId calls) := by
  rw [granted_new ordered]
  have visits : ((own clientId calls).map fun call => call.time).Pairwise (· ≤ ·) :=
    List.pairwise_map.mpr (List.Pairwise.filter _ ordered)
  generalize (own clientId calls).map (fun call => call.time) = times at visits
  cases times with
  | nil => exact Windows.Bounded.nil
  | cons first times =>
    have after : ∀ time ∈ first :: times, first ≤ time := by
      intro time member
      rcases List.mem_cons.mp member with rfl | member
      · exact le_rfl
      · exact (List.pairwise_cons.mp visits).1 time member
    have fresh : Used config none := fun _ impossible => (by cases impossible)
    have bounded := grantedAlone_bounded Starts.new Full.none fresh narrow after visits
    rw [List.append_nil] at bounded
    exact Windows.bounded_reverse.mp bounded

/-- The limit holds for a window that slides exactly when no request is let through behind
the start of its window. -/
theorem sliding_window_iff (config : RateLimitConfig) :
    (∀ clientId calls, Ordered calls →
      Windows.Bounded config.requestsPerMinute (config.windowSize : Int)
        ((RateLimiter.new config).granted clientId calls)) ↔
      config.requestsPerMinute ≤ 1 ∨ config.burstSize = 0 ∨ config.windowSize ≤ 1 := by
  constructor
  · intro holds
    by_contra wide
    simp only [not_or, Nat.not_le] at wide
    obtain ⟨several, burst, lasting⟩ := wide
    have ordered : Ordered (checksAt "" (crowd config)) := checksAt_ordered (crowd_ordered lasting)
    have bounded := holds "" _ ordered
    rw [granted_new ordered, own_checksAt, grantedAlone_crowd several (Nat.pos_of_ne_zero burst) lasting] at bounded
    exact crowd_not_bounded several lasting bounded
  · intro narrow clientId calls ordered
    rcases narrow with single | closed | short
    · exact granted_bounded ordered (.inl single)
    · rw [granted_new ordered, grantedAlone_of_closed Full.none closed]
      exact Windows.Bounded.nil
    · exact granted_bounded ordered (.inr short)

/-- Two requests to a window of sixty: the second and the next two come within two instants. -/
theorem sliding_window_exceeded :
    Ordered (checksAt "teller" [0, 59, 60, 60]) ∧
      (RateLimiter.new ⟨2, 1, 60⟩).granted "teller" (checksAt "teller" [0, 59, 60, 60]) = [0, 59, 60, 60] ∧
      ¬ Windows.Bounded 2 (60 : Int) [0, 59, 60, 60] := by
  refine ⟨?_, rfl, ?_⟩
  · unfold Ordered
    decide
  · intro bounded
    exact absurd (bounded 59) (by decide)

end SlidingWindows
end BankingEs.Proofs.RateLimits
