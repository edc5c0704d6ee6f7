import Mathlib.Algebra.Order.Group.Int
import BankingEs.Auth.World
import BankingEs.Windows

/-! Guessing at a password. Between two locks there are no more guesses than the limit, and a lock
lasts as long as the window in which they are counted, but for the part of a microsecond that the
user table does not keep. -/

namespace BankingEs.Proofs.BruteForce
open Async AuthService AuthWorld UserTable Windows

/-- The world, and when a password was checked in it, the newest first. -/
structure Watched where
  world : AuthWorld
  checks : List DateTime := []

def isCheck {β : Type} : AuthCall β → Bool
  | .verifyPassword _ _ => true
  | _ => false

def watching (service : AuthService) (failures : Failures) : Serves AuthCall Watched :=
  fun before op reply after => step service failures before.world op reply after.world ∧
    after.checks = if isCheck op then before.world.now :: before.checks else before.checks

/-- How long an account is locked. -/
def lockout (service : AuthService) : Int := DateTime.minutes service.config.lockoutDurationMinutes

/-- The shortest time for which the lock as it is stored keeps an account locked. -/
def window (service : AuthService) : Int := lockout service - 999

private theorem window_le_stored {check now length : Int} (past : check ≤ now) :
    check + (length - 999) ≤ DateTime.stored (now + length) := by
  change check + (length - 999) ≤ now + length - (now + length) % 1000
  omega

/-- The row of a user counts the checks of its password that are less than a lock ago. -/
structure Unlocked (service : AuthService) (state : Watched) (user : User) : Prop where
  free : user.lockedUntil = none
  counted : ((recent (window service) state.world.now state.checks).length : Int) ≤ user.failedLoginAttempts
  below : user.failedLoginAttempts < service.config.maxFailedAttempts

/-- There is room for another check, or every check is a window before the end of a lock. -/
inductive Guarded (service : AuthService) (state : Watched) (user : User) : Prop where
  | unlocked (unlocked : Unlocked service state user)
  | locked {lockedUntil : DateTime} (lock : user.lockedUntil = some lockedUntil)
      (old : ∀ check ∈ state.checks, check + window service ≤ lockedUntil)

structure Tracked (service : AuthService) (username : String) (hash : String) (state : Watched) (user : User) : Prop where
  found : state.world.users.find username = some user
  hash : user.passwordHash = hash
  bounded : Bounded service.config.maxFailedAttempts (window service) state.checks
  past : ∀ check ∈ state.checks, check ≤ state.world.now

variable {service : AuthService} {failures : Failures} {username hash : String} {state before after : Watched} {user : User}

private theorem at_self (change : Change) (user : User) : change.at user.id user = change.apply user := if_pos rfl

/-- The row that was found is changed in its place. -/
theorem Tracked.change {change : Change} (tracked : Tracked service username hash before user)
    (keeps : (change.apply user).passwordHash = user.passwordHash)
    (changed : after = { before with world := { before.world with users := before.world.users.update user.id change } }) :
    Tracked service username hash after (change.apply user) := by
  subst changed
  refine ⟨?_, keeps.trans tracked.hash, tracked.bounded, tracked.past⟩
  rw [find_update, tracked.found, Option.map_some, at_self]

/-- The password is checked, with fewer checks than the limit less than a lock ago. -/
theorem Tracked.check (tracked : Tracked service username hash state user)
    (room : (recent (window service) state.world.now state.checks).length < service.config.maxFailedAttempts) :
    Tracked service username hash { state with checks := state.world.now :: state.checks } user :=
  ⟨tracked.found, tracked.hash, tracked.bounded.cons room, List.forall_mem_cons.mpr ⟨le_rfl, tracked.past⟩⟩

private theorem Tracked.updates {reply : Except UserRepositoryError Unit} {change : Change}
    (tracked : Tracked service username hash before user) (succeeds : ¬failures.repository)
    (served : Updates failures.repository before.world user.id change reply after.world)
    (same : after.checks = before.checks) :
    reply = .ok () ∧
      after = { before with world := { before.world with users := before.world.users.update user.id change } } := by
  obtain ⟨world, checks⟩ := after
  obtain rfl : checks = before.checks := same
  rcases served.of_mem (mem_of_find tracked.found) with ⟨rfl, rfl⟩ | ⟨fails, _⟩
  · exact ⟨rfl, rfl⟩
  · exact absurd fails succeeds

def Safe (service : AuthService) (username hash : String) (state : Watched) : Prop :=
  ∃ user, Tracked service username hash state user ∧ Guarded service state user

private theorem watching_utcNow {now : DateTime} (served : watching service failures before .utcNow now after) :
    now = before.world.now ∧ after = before := by
  obtain ⟨world, checks⟩ := after
  obtain ⟨⟨rfl, rfl⟩, rfl⟩ := served
  exact ⟨rfl, rfl⟩

private theorem Tracked.increments {reply : Except UserRepositoryError Int}
    (tracked : Tracked service username hash before user)
    (succeeds : ¬failures.repository) (fits : user.failedLoginAttempts + 1 < 2147483648)
    (served : watching service failures before (.incrementFailedAttempts user.id) reply after) :
    reply = .ok (user.failedLoginAttempts + 1) ∧
      after = { before with world := { before.world with users := before.world.users.update user.id countFailure } } := by
  obtain ⟨world, checks⟩ := after
  obtain ⟨increments, rfl⟩ := served
  have increments : Increments failures.repository before.world user.id reply world := increments
  rcases increments.of_mem (mem_of_find tracked.found) with ⟨rfl, rfl⟩ | ⟨fails | large, _⟩
  · exact ⟨rfl, rfl⟩
  · exact absurd fails succeeds
  · omega

/-- A wrong password was checked, and is counted. -/
theorem refuse_returns {copy : User} (succeeds : ¬failures.repository)
    (small : service.config.maxFailedAttempts < 2147483648)
    (tracked : Tracked service username hash state user) (own : copy.id = user.id) (free : user.lockedUntil = none)
    (counted : ((recent (window service) state.world.now state.checks).length : Int) ≤ user.failedLoginAttempts + 1)
    (below : user.failedLoginAttempts < service.config.maxFailedAttempts) :
    Returns (watching service failures) (fun _ => Safe service username hash) (service.refuse copy) state := by
  intro reply middle served
  rw [own] at served
  obtain ⟨rfl, rfl⟩ := tracked.increments succeeds (by omega) served
  have tracked : Tracked service username hash _ (countFailure.apply user) := tracked.change rfl rfl
  change Returns _ _ (if 2147483648 ≤ service.config.maxFailedAttempts then _ else _) _
  rw [if_neg (not_le.mpr small)]
  split
  next reached =>
    intro now after served
    obtain ⟨rfl, rfl⟩ := watching_utcNow served
    rintro reply last ⟨served, same⟩
    rw [own] at served
    obtain ⟨rfl, rfl⟩ := tracked.updates succeeds served same
    refine ⟨_, tracked.change rfl rfl, .locked rfl ?_⟩
    exact fun check member => window_le_stored (tracked.past check member)
  next short =>
    exact ⟨_, tracked, .unlocked ⟨free, counted, not_le.mp short⟩⟩

/-- A lock holds the login off or has run out, and with it every check was a window ago. -/
theorem unlock_returns (succeeds : ¬failures.repository) (positive : 1 ≤ service.config.maxFailedAttempts)
    (tracked : Tracked service username hash state user) (guarded : Guarded service state user) :
    Returns (watching service failures) (fun reply after => match reply with
      | .error _ => Safe service username hash after
      | .ok () => ∃ current, Tracked service username hash after current ∧ current.id = user.id ∧
          Unlocked service after current) (unlock user) state := by
  unfold unlock
  cases guarded with
  | unlocked unlocked =>
    rw [unlocked.free]
    exact ⟨user, tracked, rfl, unlocked⟩
  | @locked lockedUntil lock old =>
    rw [lock]
    intro now after served
    obtain ⟨rfl, rfl⟩ := watching_utcNow served
    change Returns _ _ (if after.world.now < lockedUntil then _ else _) _
    split
    next => exact ⟨user, tracked, .locked lock old⟩
    next elapsed =>
      rintro reply last ⟨served, same⟩
      obtain ⟨rfl, rfl⟩ := tracked.updates succeeds served same
      have none : recent (window service) after.world.now after.checks = [] :=
        recent_eq_nil fun check member => (old check member).trans (not_lt.mp elapsed)
      refine ⟨_, tracked.change rfl rfl, rfl, rfl, ?_, Int.ofNat_lt.mpr positive⟩
      exact (congrArg (fun times => (times.length : Int)) none).le

private theorem findUser_returns (succeeds : ¬failures.repository)
    (found : state.world.users.find username = some user) :
    Returns (watching service failures) (fun reply after => reply = .ok user ∧ after = state) (findUser username) state := by
  rintro reply ⟨world, checks⟩ ⟨⟨replied | ⟨fails, _⟩, rfl⟩, rfl⟩
  · rw [found] at replied
    subst replied
    exact ⟨rfl, rfl⟩
  · exact absurd fails succeeds

private theorem login_returns {password : String} (succeeds : ¬failures.repository)
    (positive : 1 ≤ service.config.maxFailedAttempts)
    (small : service.config.maxFailedAttempts < 2147483648) (wrong : service.libraries.verifies password hash = false)
    (safe : Safe service username hash state) :
    Returns (watching service failures) (fun _ => Safe service username hash) (service.login username password) state := by
  obtain ⟨user, tracked, guarded⟩ := safe
  apply (findUser_returns succeeds tracked.found).andThen_ok
  rintro after rfl
  split
  next => exact ⟨user, tracked, guarded⟩
  next =>
    apply (unlock_returns succeeds positive tracked guarded).andThen
    · exact fun _ _ safe => safe
    · rintro ⟨⟩ middle ⟨current, tracked', own, unlocked⟩
      split
      next => exact ⟨current, tracked', .unlocked unlocked⟩
      next =>
        rintro verified ⟨world, checks⟩ ⟨⟨rfl, rfl⟩, rfl⟩
        rw [tracked.hash, wrong]
        have counted := unlocked.counted
        have below := unlocked.below
        refine refuse_returns succeeds small (tracked'.check (by omega)) own.symm unlocked.free ?_ below
        have one : (recent (window service) middle.world.now (middle.world.now :: middle.checks)).length ≤ _ :=
          recent_cons_length_le
        exact (Int.ofNat_le.mpr one).trans (Int.add_le_add_right counted 1)

/-- Logins one after another, each at one time that is not before the last. -/
inductive Attempts (service : AuthService) (failures : Failures) (username : String) :
    Watched → List (DateTime × String) → Watched → Prop where
  | nil {state : Watched} : Attempts service failures username state [] state
  | cons {before middle after : Watched} {time : DateTime} {password : String} {attempts : List (DateTime × String)}
      {result : Except AuthError LoginResponse} (later : before.world.now ≤ time)
      (runs : Runs (watching service failures) { before with world := { before.world with now := time } }
        (service.login username password) result middle)
      (rest : Attempts service failures username middle attempts after) :
      Attempts service failures username before ((time, password) :: attempts) after

private theorem Safe.later {time : DateTime} (waits : state.world.now ≤ time)
    (safe : Safe service username hash state) :
    Safe service username hash { state with world := { state.world with now := time } } := by
  obtain ⟨user, tracked, guarded⟩ := safe
  refine ⟨user, ⟨tracked.found, tracked.hash, tracked.bounded, ?_⟩, ?_⟩
  · exact fun check member => (tracked.past check member).trans waits
  · cases guarded with
    | unlocked unlocked =>
      have fewer : (recent (window service) time state.checks).length ≤ _ := recent_length_le waits
      exact .unlocked ⟨unlocked.free, (Int.ofNat_le.mpr fewer).trans unlocked.counted, unlocked.below⟩
    | locked lock old => exact .locked lock old

private theorem attempts_safe {attempts : List (DateTime × String)} (succeeds : ¬failures.repository)
    (positive : 1 ≤ service.config.maxFailedAttempts) (small : service.config.maxFailedAttempts < 2147483648)
    (wrong : ∀ attempt ∈ attempts, service.libraries.verifies attempt.2 hash = false)
    (run : Attempts service failures username before attempts after) (safe : Safe service username hash before) :
    Safe service username hash after := by
  induction run with
  | nil => exact safe
  | cons later runs _ ih =>
    obtain ⟨refused, wrong⟩ := List.forall_mem_cons.mp wrong
    apply ih wrong
    exact (login_returns succeeds positive small refused (safe.later later)).runs runs

/-- However wrong passwords are tried, no window that is at least a microsecond shorter than a
lock, both ends included, has more checks of them than the limit. -/
theorem brute_force_bounded {world : AuthWorld} {attempts : List (DateTime × String)} (succeeds : ¬failures.repository)
    (positive : 1 ≤ service.config.maxFailedAttempts) (small : service.config.maxFailedAttempts < 2147483648)
    (found : world.users.find username = some user) (free : user.lockedUntil = none) (fresh : user.failedLoginAttempts = 0)
    (wrong : ∀ attempt ∈ attempts, service.libraries.verifies attempt.2 user.passwordHash = false)
    (run : Attempts service failures username { world } attempts after) (start : DateTime) :
    (within (window service) start after.checks).length ≤ service.config.maxFailedAttempts := by
  have initial : Safe service username user.passwordHash { world } := by
    refine ⟨user, ⟨found, rfl, .nil, fun check member => absurd member List.not_mem_nil⟩, .unlocked ⟨free, ?_, ?_⟩⟩
    · exact fresh.ge
    · exact fresh.trans_lt (Int.ofNat_lt.mpr positive)
  obtain ⟨_, tracked, _⟩ := attempts_safe succeeds positive small wrong run initial
  exact tracked.bounded start

def strict : AuthService where
  libraries := Sample.libraries
  config := { jwtSecret := "", refreshTokenSecret := "", maxFailedAttempts := 1 }

private theorem watched {service : AuthService} {failures : Failures} {β : Type} {before : Watched} {op : AuthCall β}
    {reply : β} {world : AuthWorld} (served : step service failures before.world op reply world) :
    watching service failures before op reply
      ⟨world, if isCheck op then before.world.now :: before.checks else before.checks⟩ := ⟨served, rfl⟩

private def lockedCustomer (lockedUntil : DateTime) : User :=
  { sampleCustomer with failedLoginAttempts := 1, lockedUntil := some lockedUntil.stored }

private theorem first_guess (time : DateTime) : Runs (watching strict ⟨False, False⟩)
    { world := { now := time, users := { rows := [sampleCustomer] } } } (strict.login "customer" "guess") (.error .accountLocked)
    { checks := [time], world := { now := time, users := { rows := [lockedCustomer (time + DateTime.minutes 30)] } } } :=
  .request _ (watched ⟨.inl rfl, rfl⟩) <| .request _ (watched ⟨rfl, rfl⟩) <|
    .request _ (watched (.done (List.mem_singleton_self _) rfl (by decide))) <| .request _ (watched ⟨rfl, rfl⟩) <|
    .request _ (watched (.done ⟨_, List.mem_singleton_self _, rfl⟩)) .pure

private theorem next_guess {lockedUntil now : DateTime} {checks : List DateTime}
    (elapsed : ¬ now < lockedUntil.stored) :
    Runs (watching strict ⟨False, False⟩) { checks, world := { now, users := { rows := [lockedCustomer lockedUntil] } } }
      (strict.login "customer" "guess") (.error .accountLocked)
      { checks := now :: checks, world := { now, users := { rows := [lockedCustomer (now + DateTime.minutes 30)] } } } := by
  refine .request _ (watched ⟨.inl rfl, rfl⟩) <| .request now (watched ⟨rfl, rfl⟩) ?_
  change Runs _ _ (Program.andThen (if now < lockedUntil.stored then _ else _) _) _ _
  rw [if_neg elapsed]
  exact .request _ (watched (.done ⟨_, List.mem_singleton_self _, rfl⟩)) <| .request _ (watched ⟨rfl, rfl⟩) <|
    .request _ (watched (.done (List.mem_singleton_self _) rfl (show (0 : Int) + 1 < 2147483648 by decide))) <| .request _ (watched ⟨rfl, rfl⟩) <|
    .request _ (watched (.done ⟨_, List.mem_singleton_self _, rfl⟩)) .pure

private theorem two_guesses {time : DateTime} (past : 0 ≤ time) (waits : time ≤ DateTime.minutes 30)
    (elapsed : ¬ DateTime.minutes 30 < DateTime.stored (time + DateTime.minutes 30)) : ∃ last,
    Attempts strict ⟨False, False⟩ "customer" { world := { users := { rows := [sampleCustomer] } } }
      [(time, "guess"), (DateTime.minutes 30, "guess")] last ∧ last.checks = [DateTime.minutes 30, time] := by
  exact ⟨_, .cons past (first_guess time) (.cons waits (next_guess elapsed) .nil), rfl⟩

/-- The second guess is checked when the lock of the first runs out. -/
theorem second_guess_waits : ∃ last,
    Attempts strict ⟨False, False⟩ "customer" { world := { users := { rows := [sampleCustomer] } } }
      [(0, "guess"), (DateTime.minutes 30, "guess")] last ∧
    last.checks = [DateTime.minutes 30, 0] ∧ ∀ start, (within (window strict) start last.checks).length ≤ 1 := by
  obtain ⟨last, run, checks⟩ := two_guesses le_rfl (by decide) (by decide)
  exact ⟨last, run, checks, brute_force_bounded id le_rfl (by decide) rfl rfl rfl (fun _ _ => rfl) run⟩

/-- The first guess comes 999 nanoseconds into a microsecond, and its lock ends that much early: two
passwords are checked within the time of one lock, where one is the limit. -/
theorem lock_ends_early : ∃ last,
    Attempts strict ⟨False, False⟩ "customer" { world := { users := { rows := [sampleCustomer] } } }
      [(999, "guess"), (DateTime.minutes 30, "guess")] last ∧
    strict.config.maxFailedAttempts = 1 ∧ (within (lockout strict) 999 last.checks).length = 2 := by
  obtain ⟨last, run, checks⟩ := @two_guesses 999 (by decide) (by decide) (by decide)
  refine ⟨last, run, rfl, ?_⟩
  rw [checks]
  decide

end BankingEs.Proofs.BruteForce
