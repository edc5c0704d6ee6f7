import BankingEs.Async.Interference
import BankingEs.Auth.World

/-! Logins of one user at the same time. Each works on the row as it read it. One that writes the
lock or returns only while no lock was written since it read the row takes back no lock that
still runs. -/

namespace BankingEs.Proofs.LoginRaces
open Async AuthService AuthWorld UserTable

/-- The world, how many locks were written in it, how many of them each login can have read, and
the world that the last call of each login left. -/
structure Racing (ι : Type) where
  world : AuthWorld
  locks : Nat := 0
  seen : ι → Nat := fun _ => 0
  left : ι → AuthWorld := fun _ => world

def isRead {β : Type} : AuthCall β → Bool
  | .findByUsername _ => true
  | _ => false

def isLock {β : Type} : AuthCall β → β → Bool
  | .updateLockout _ (some _) _, .ok () => true
  | _, _ => false

/-- The calls that write the lock, and those that give a login its tokens. -/
def decides {β : Type} : AuthCall β → Bool
  | .updateLockout _ _ _ => true
  | .updateLoginInfo _ _ _ _ => true
  | .newV4 => true
  | _ => false

section Serving
variable {ι : Type} [DecidableEq ι] (service : AuthService) (failures : Failures) (thread : ι)

def racing : Serves AuthCall (Racing ι) := fun before op reply after =>
  serves service failures before.world op reply after.world ∧
  after.locks = (if isLock op reply then before.locks + 1 else before.locks) ∧
  after.seen = (if isRead op then Function.update before.seen thread before.locks else before.seen) ∧
  after.left = Function.update before.left thread after.world

/-- No lock was written between the read of a login and its decision. -/
def orderly : Serves AuthCall (Racing ι) := fun before op reply after =>
  (decides op → before.seen thread = before.locks) ∧ racing service failures thread before op reply after

end Serving

/-- The lock in the row of a user. -/
def lock (username : String) (world : AuthWorld) : Option DateTime := (world.users.find username).bind User.lockedUntil

def Expired (username : String) (world : AuthWorld) : Prop :=
  ∀ lockedUntil, lock username world = some lockedUntil → lockedUntil ≤ world.now

/-- A lock that still runs is there, or one that runs longer. -/
structure Keeps (username : String) (before after : AuthWorld) : Prop where
  later : before.now ≤ after.now
  kept : ∀ lockedUntil, lock username before = some lockedUntil → after.now < lockedUntil →
    ∃ longer, lock username after = some longer ∧ lockedUntil ≤ longer

variable {username : String}

private theorem Keeps.refl (world : AuthWorld) : Keeps username world world :=
  ⟨le_rfl, fun lockedUntil locked _ => ⟨lockedUntil, locked, le_rfl⟩⟩

private theorem Keeps.trans {first second third : AuthWorld} (keeps : Keeps username first second)
    (more : Keeps username second third) : Keeps username first third := by
  refine ⟨keeps.later.trans more.later, ?_⟩
  intro lockedUntil locked running
  obtain ⟨longer, locked, le⟩ := keeps.kept lockedUntil locked (more.later.trans_lt running)
  obtain ⟨longest, locked, le'⟩ := more.kept longer locked (running.trans_le le)
  exact ⟨longest, locked, le.trans le'⟩

/-- What a call does to the lock of a user: nothing, or it is taken back. -/
def Frees (username : String) (before after : AuthWorld) : Prop :=
  lock username after = lock username before ∨ lock username after = none

private theorem Keeps.of_same {before after : AuthWorld} (later : before.now ≤ after.now)
    (same : lock username after = lock username before) : Keeps username before after :=
  ⟨later, fun lockedUntil locked _ => ⟨lockedUntil, same.trans locked, le_rfl⟩⟩

private theorem Keeps.of_expired {before after : AuthWorld} (later : before.now ≤ after.now)
    (expired : Expired username before) :
    Keeps username before after := by
  refine ⟨later, ?_⟩
  intro lockedUntil locked running
  exact absurd ((expired lockedUntil locked).trans later) (not_le.mpr running)

private theorem Expired.frees {before after : AuthWorld} (expired : Expired username before)
    (later : before.now ≤ after.now)
    (frees : Frees username before after) : Expired username after := by
  intro lockedUntil locked
  rcases frees with same | gone
  · exact (expired lockedUntil (same ▸ locked)).trans later
  · rw [gone] at locked
    cases locked

section Table
variable {service : AuthService} {failures : Failures} {world after : AuthWorld} {id : Uuid} {change : Change}

private theorem quiet_lock {β : Type} {op : AuthCall β} {reply : β}
    (served : serves service failures world op reply after)
    (quiet : ∀ world after, step service failures world op reply after → after = world) :
    world.now ≤ after.now ∧ lock username after = lock username world := by
  obtain ⟨now, later, served⟩ := served
  rw [quiet _ _ served]
  exact ⟨later, rfl⟩

private theorem lock_update : lock username { world with users := world.users.update id change } =
    (world.users.find username).bind fun user => (change.at id user).lockedUntil := by
  rw [lock, find_update, Option.bind_map]
  rfl

private theorem update_frees (clears : ∀ user, (change.apply user).lockedUntil = none) :
    Frees username world { world with users := world.users.update id change } := by
  unfold Frees
  rw [lock_update, lock]
  cases world.users.find username with
  | none => exact .inl rfl
  | some user =>
    dsimp only [Option.bind_some, Change.at]
    split
    next => exact .inr (clears user)
    next => exact .inl rfl

private theorem updates_frees {fails : Prop} {reply : Except UserRepositoryError Unit}
    (served : ∃ now, world.now ≤ now ∧ Updates fails { world with now } id change reply after)
    (clears : ∀ user, (change.apply user).lockedUntil = none) :
    world.now ≤ after.now ∧ Frees username world after := by
  obtain ⟨now, later, updates⟩ := served
  cases updates with
  | missing => exact ⟨later, .inl rfl⟩
  | fails => exact ⟨later, .inl rfl⟩
  | done => exact ⟨later, @update_frees username { world with now } id change clears⟩

private theorem updates_later {fails : Prop} {reply : Except UserRepositoryError Unit}
    (served : ∃ now, world.now ≤ now ∧ Updates fails { world with now } id change reply after) :
    world.now ≤ after.now ∧ ∀ error, reply = .error error → lock username after = lock username world := by
  obtain ⟨now, later, updates⟩ := served
  cases updates with
  | missing => exact ⟨later, fun _ _ => rfl⟩
  | fails => exact ⟨later, fun _ _ => rfl⟩
  | done => exact ⟨later, fun _ impossible => (by cases impossible)⟩

private theorem increments_lock {fails : Prop} {reply : Except UserRepositoryError Int}
    (served : ∃ now, world.now ≤ now ∧ Increments fails { world with now } id reply after) :
    world.now ≤ after.now ∧ lock username after = lock username world := by
  obtain ⟨now, later, increments⟩ := served
  cases increments with
  | missing => exact ⟨later, rfl⟩
  | fails => exact ⟨later, rfl⟩
  | overflows => exact ⟨later, rfl⟩
  | done =>
    refine ⟨later, ?_⟩
    rw [lock_update, lock]
    congr 1
    funext user
    unfold Change.at
    split
    next => rfl
    next => rfl

end Table

section Threads
variable {ι : Type} {thread : ι} {state before after : Racing ι} {holds : AuthWorld → Prop}

structure Guarantee (username : String) (thread : ι) (before after : Racing ι) : Prop where
  keeps : Keeps username before.world after.world
  locks : before.locks ≤ after.locks
  frees : after.locks = before.locks → Frees username before.world after.world
  others : ∀ other, other ≠ thread → after.seen other = before.seen other ∧ after.left other = before.left other

structure Rely (username : String) (thread : ι) (before after : Racing ι) : Prop where
  later : before.world.now ≤ after.world.now
  locks : before.locks ≤ after.locks
  frees : after.locks = before.locks → Frees username before.world after.world
  own : after.seen thread = before.seen thread ∧ after.left thread = before.left thread

/-- What a login knows of the lock as long as no other lock is written. -/
structure Knows (thread : ι) (holds : AuthWorld → Prop) (state : Racing ι) : Prop where
  past : state.seen thread ≤ state.locks
  current : state.seen thread = state.locks → holds state.world

def Lasting (username : String) (holds : AuthWorld → Prop) : Prop :=
  ∀ before after : AuthWorld, before.now ≤ after.now → Frees username before after → holds before → holds after

private theorem expired_lasting : Lasting username (Expired username) :=
  fun _ _ later frees expired => expired.frees later frees

private theorem Knows.relied (lasting : Lasting username holds) (rely : Rely username thread before after)
    (knows : Knows thread holds before) : Knows thread holds after := by
  obtain ⟨seen, _⟩ := rely.own
  refine ⟨?_, ?_⟩
  · rw [seen]
    exact knows.past.trans rely.locks
  · intro same
    rw [seen] at same
    -- The locks are between what was seen before and what is there after.
    have unchanged : after.locks = before.locks := le_antisymm (same ▸ knows.past) rely.locks
    exact lasting _ _ rely.later (rely.frees unchanged) (knows.current (same.trans unchanged))

/-- A login that succeeds leaves no lock that runs. -/
def Cleared (username : String) (thread : ι) (result : Except AuthError LoginResponse) (state : Racing ι) : Prop :=
  ∀ response, result = .ok response → Expired username (state.left thread)

private theorem cleared_error (error : AuthError) (state : Racing ι) :
    Cleared username thread (.error error) state := by
  intro response impossible
  cases impossible

private theorem Cleared.relied {result : Except AuthError LoginResponse} (rely : Rely username thread before after)
    (cleared : Cleared username thread result before) : Cleared username thread result after := by
  intro response same
  rw [rely.own.2]
  exact cleared response same

def Reads (username : String) (user : User) (world : AuthWorld) : Prop :=
  lock username world = user.lockedUntil ∨ lock username world = none

private theorem reads_lasting {user : User} : Lasting username (Reads username user) := by
  intro before after _ frees reads
  rcases frees with same | gone
  · unfold Reads
    rwa [same]
  · exact .inr gone

/-- A lock that was read to have run out has run out. -/
theorem Knows.expired {user : User} (knows : Knows thread (Reads username user) state)
    (elapsed : ∀ lockedUntil, user.lockedUntil = some lockedUntil → lockedUntil ≤ state.world.now) :
    Knows thread (Expired username) state := by
  refine ⟨knows.past, ?_⟩
  intro current lockedUntil locked
  rcases knows.current current with same | gone
  · exact elapsed lockedUntil (same ▸ locked)
  · rw [gone] at locked
    cases locked

variable [DecidableEq ι] {service : AuthService} {failures : Failures} {β : Type} {op : AuthCall β} {reply : β}

private theorem racing_others (served : racing service failures thread before op reply after) (other : ι)
    (different : other ≠ thread) :
    after.seen other = before.seen other ∧ after.left other = before.left other := by
  obtain ⟨_, _, seen, left⟩ := served
  refine ⟨?_, ?_⟩
  · rw [seen]
    split
    next => exact Function.update_of_ne different ..
    next => rfl
  · rw [left, Function.update_of_ne different]

private theorem racing_frame (served : racing service failures thread before op reply after)
    (unread : isRead op = false)
    (unlocked : isLock op reply = false) : after.locks = before.locks ∧ after.seen = before.seen := by
  obtain ⟨_, locks, seen, _⟩ := served
  rw [unlocked, if_neg Bool.false_ne_true] at locks
  rw [unread, if_neg Bool.false_ne_true] at seen
  exact ⟨locks, seen⟩

private theorem same_step (lasting : Lasting username holds)
    (served : racing service failures thread before op reply after)
    (unread : isRead op = false) (unlocked : isLock op reply = false) (later : before.world.now ≤ after.world.now)
    (same : lock username after.world = lock username before.world) (knows : Knows thread holds before) :
    Guarantee username thread before after ∧ Knows thread holds after := by
  have others := racing_others served
  obtain ⟨locks, seen⟩ := racing_frame served unread unlocked
  refine ⟨⟨.of_same later same, locks.ge, fun _ => .inl same, others⟩, ?_, ?_⟩
  · rw [seen, locks]
    exact knows.past
  · intro current
    rw [seen, locks] at current
    exact lasting _ _ later (.inl same) (knows.current current)

private theorem decided_step (served : orderly service failures thread before op reply after) (decided : decides op)
    (unread : isRead op = false) (unlocked : isLock op reply = false) (later : before.world.now ≤ after.world.now)
    (frees : Frees username before.world after.world) (knows : Knows thread (Expired username) before) :
    Guarantee username thread before after ∧ Knows thread (Expired username) after ∧ Expired username after.world := by
  obtain ⟨current, served⟩ := served
  have expired := knows.current (current decided)
  have expiredAfter := expired.frees later frees
  have others := racing_others served
  obtain ⟨locks, seen⟩ := racing_frame served unread unlocked
  refine ⟨⟨.of_expired later expired, locks.ge, fun _ => frees, others⟩, ⟨?_, fun _ => expiredAfter⟩, expiredAfter⟩
  rw [seen, locks]
  exact knows.past

/-- A lock is written where another has run out. -/
theorem lock_step (served : orderly service failures thread before op reply after) (decided : decides op)
    (locked : isLock op reply) (later : before.world.now ≤ after.world.now)
    (knows : Knows thread (Expired username) before) : Guarantee username thread before after := by
  obtain ⟨current, served⟩ := served
  have expired := knows.current (current decided)
  have others := racing_others served
  obtain ⟨_, locks, _, _⟩ := served
  rw [if_pos locked] at locks
  refine ⟨.of_expired later expired, by omega, ?_, others⟩
  intro same
  omega

section Rules
variable {α : Type} {post : α → Racing ι → Prop} {resume : β → Program AuthCall α}

private theorem same_guards (lasting : Lasting username holds) (unread : isRead op = false)
    (unlocked : ∀ reply, isLock op reply = false)
    (same : ∀ before reply after, serves service failures before op reply after →
      before.now ≤ after.now ∧ lock username after = lock username before)
    (rest : ∀ before reply after, racing service failures thread before op reply after → Knows thread holds after →
      Guards (orderly service failures thread) (Rely username thread) (Guarantee username thread) post (resume reply) after)
    (knows : Knows thread holds state) :
    Guards (orderly service failures thread) (Rely username thread) (Guarantee username thread) post
      (.request op resume) state := by
  refine Guards.request (fun _ _ => Knows.relied lasting) ?_ knows
  rintro before reply after knows ⟨_, served⟩
  obtain ⟨later, same⟩ := same _ _ _ served.1
  obtain ⟨guarantee, knows⟩ := same_step lasting served unread (unlocked reply) later same knows
  exact ⟨guarantee, rest before reply after served knows⟩

private theorem utcNow_guards {resume : DateTime → Program AuthCall α} (lasting : Lasting username holds)
    (rest : ∀ (after : Racing ι), Knows thread holds after →
      Guards (orderly service failures thread) (Rely username thread) (Guarantee username thread) post
        (resume after.world.now) after)
    (knows : Knows thread holds state) :
    Guards (orderly service failures thread) (Rely username thread) (Guarantee username thread) post
      (.request .utcNow resume) state := by
  refine same_guards lasting rfl (fun _ => rfl) ?_ ?_ knows
  · exact fun _ _ _ served => quiet_lock served fun _ _ step => step.2
  intro before now after served knows
  have clock : after.world.now = now := by
    obtain ⟨⟨_, _, rfl, world⟩, _⟩ := served
    rw [world]
  subst clock
  exact rest after knows

private theorem decided_guards (decided : decides op) (unread : isRead op = false)
    (unlocked : ∀ reply, isLock op reply = false)
    (frees : ∀ before reply after, serves service failures before op reply after →
      before.now ≤ after.now ∧ Frees username before after)
    (rest : ∀ reply after, Knows thread (Expired username) after → Expired username (after.left thread) →
      Guards (orderly service failures thread) (Rely username thread) (Guarantee username thread) post (resume reply) after)
    (knows : Knows thread (Expired username) state) :
    Guards (orderly service failures thread) (Rely username thread) (Guarantee username thread) post
      (.request op resume) state := by
  refine Guards.request (fun _ _ => Knows.relied expired_lasting) ?_ knows
  intro before reply after knows served
  obtain ⟨later, frees⟩ := frees _ _ _ served.2.1
  obtain ⟨guarantee, knows, expired⟩ := decided_step served decided unread (unlocked reply) later frees knows
  refine ⟨guarantee, rest reply after knows ?_⟩
  rw [served.2.2.2.2, Function.update_self]
  exact expired

end Rules

private theorem error_guards {error : AuthError} :
    Guards (orderly service failures thread) (Rely username thread) (Guarantee username thread)
      (Cleared username thread) (.pure (.error error)) state :=
  Guards.pure (cleared_error error state) fun _ _ => Cleared.relied

private theorem generateToken_guards {name : String} {roles : List UserRole} {tokenType : TokenType}
    (knows : Knows thread (Expired username) state) :
    Guards (orderly service failures thread) (Rely username thread) (Guarantee username thread)
      (fun _ state => Knows thread (Expired username) state ∧ Expired username (state.left thread))
      (service.generateToken name roles tokenType) state := by
  refine utcNow_guards expired_lasting ?_ knows
  intro _ knows
  refine decided_guards rfl rfl (fun _ => rfl) ?_ ?_ knows
  · intro before jti after served
    obtain ⟨later, same⟩ := quiet_lock served fun _ _ step => step
    exact ⟨later, .inl same⟩
  intro jti after knows expired
  refine Guards.pure ⟨knows, expired⟩ ?_
  rintro before after rely ⟨knows, expired⟩
  exact ⟨knows.relied expired_lasting rely, rely.own.2 ▸ expired⟩

private theorem tokens_guards {user : User} (knows : Knows thread (Expired username) state) :
    Guards (orderly service failures thread) (Rely username thread) (Guarantee username thread)
      (Cleared username thread) (service.tokens user) state := by
  refine (generateToken_guards knows).andThen (fun error state _ => cleared_error error state) ?_
  rintro accessToken state ⟨knows, _⟩
  refine (generateToken_guards knows).andThen (fun error state _ => cleared_error error state) ?_
  rintro refreshToken state ⟨_, expired⟩
  exact Guards.pure (fun _ _ => expired) fun _ _ => Cleared.relied

private theorem succeed_guards {user : User} (knows : Knows thread (Expired username) state) :
    Guards (orderly service failures thread) (Rely username thread) (Guarantee username thread)
      (Cleared username thread) (service.succeed user) state := by
  refine utcNow_guards expired_lasting ?_ knows
  intro _ knows
  refine decided_guards rfl rfl (fun _ => rfl) ?_ ?_ knows
  · exact fun _ _ _ served => updates_frees served fun _ => rfl
  intro reply after knows _
  cases reply with
  | error error => exact error_guards
  | ok _ => exact tokens_guards knows

private theorem lockout_guards {user : User} {lockedUntil : DateTime} {attempts : Int}
    (knows : Knows thread (Expired username) state) :
    Guards (orderly service failures thread) (Rely username thread) (Guarantee username thread) (Cleared username thread)
      ((repository (.updateLockout user.id (some lockedUntil) attempts)).andThen fun _ => .pure (.error .accountLocked))
      state := by
  refine Guards.request (fun _ _ => Knows.relied expired_lasting) ?_ knows
  intro before reply after knows served
  obtain ⟨later, refused⟩ := updates_later served.2.1
  cases reply with
  | error error =>
    obtain ⟨guarantee, _⟩ := same_step expired_lasting served.2 rfl rfl later (refused error rfl) knows
    exact ⟨guarantee, error_guards⟩
  | ok _ => exact ⟨lock_step served rfl rfl later knows, error_guards⟩

private theorem refuse_guards {user : User} (knows : Knows thread (Expired username) state) :
    Guards (orderly service failures thread) (Rely username thread) (Guarantee username thread)
      (Cleared username thread) (service.refuse user) state := by
  refine same_guards expired_lasting rfl (fun _ => rfl) (fun _ _ _ => increments_lock) ?_ knows
  intro _ reply _ _ knows
  cases reply with
  | error error => exact error_guards
  | ok failedAttempts =>
    change Guards _ _ _ _ (if _ then _ else if _ then _ else _) _
    split
    next => exact error_guards
    next =>
      split
      next => exact utcNow_guards expired_lasting (fun _ knows => lockout_guards knows) knows
      next => exact error_guards

private theorem unlock_guards {user : User} (knows : Knows thread (Reads username user) state) :
    Guards (orderly service failures thread) (Rely username thread) (Guarantee username thread)
      (fun reply state => reply = .ok () → Knows thread (Expired username) state) (unlock user) state := by
  have stable : ∀ before after, Rely username thread before after → ∀ reply : Except AuthError Unit,
      (reply = .ok () → Knows thread (Expired username) before) → reply = .ok () → Knows thread (Expired username) after :=
    fun _ _ rely _ knows same => (knows same).relied expired_lasting rely
  unfold unlock
  split
  next free =>
    refine Guards.pure (fun _ => knows.expired ?_) fun before after rely => stable before after rely _
    intro lockedUntil impossible
    rw [free] at impossible
    cases impossible
  next lockedUntil copy =>
    refine utcNow_guards reads_lasting ?_ knows
    intro after knows
    change Guards _ _ _ _ (if after.world.now < lockedUntil then _ else _) _
    split
    next =>
      refine Guards.pure ?_ fun before after rely => stable before after rely _
      intro impossible
      cases impossible
    next elapsed =>
      have knows : Knows thread (Expired username) after := knows.expired fun other same => by
        rw [copy, Option.some.injEq] at same
        rw [← same]
        exact not_lt.mp elapsed
      refine decided_guards rfl rfl (fun _ => rfl) ?_ ?_ knows
      · exact fun _ _ _ served => updates_frees served fun _ => rfl
      · exact fun reply after knows _ => Guards.pure (fun _ => knows) fun before after rely => stable before after rely _

/-- A read knows every lock that was written. -/
theorem find_step {found : Except UserRepositoryError (Option User)}
    (served : racing service failures thread before (.findByUsername username) found after) :
    Guarantee username thread before after ∧
      ∀ user, found = .ok (some user) → Knows thread (Reads username user) after := by
  obtain ⟨later, same⟩ := quiet_lock served.1 fun _ _ served => served.2
  have others := racing_others served
  obtain ⟨⟨now, _, replied, world⟩, locks, seen, _⟩ := served
  refine ⟨⟨.of_same later same, locks.ge, fun _ => .inl same, others⟩, ?_⟩
  rintro user rfl
  rcases replied with replied | ⟨_, _, impossible⟩
  · have seen : after.seen thread = before.locks := by
      rw [seen]
      exact Function.update_self ..
    refine ⟨(seen.trans locks.symm).le, fun _ => .inl ?_⟩
    rw [same, lock, ← Except.ok.inj replied]
    rfl
  · cases impossible

private theorem login_guards {password : String} :
    Guards (orderly service failures thread) (Rely username thread) (Guarantee username thread)
      (Cleared username thread) (service.login username password) state := by
  refine Guards.request (fun _ _ _ (_ : True) => trivial) ?_ trivial
  intro before found after _ served
  obtain ⟨guarantee, reads⟩ := find_step served.2
  refine ⟨guarantee, ?_⟩
  rcases found with error | ⟨_ | user⟩
  · exact error_guards
  · exact error_guards
  change Guards _ _ _ _ (if !user.isActive then _ else _) _
  split
  next => exact error_guards
  next =>
    refine (unlock_guards (reads user rfl)).andThen (fun error state _ => cleared_error error state) ?_
    intro _ state knows
    split
    next => exact error_guards
    next =>
      refine same_guards expired_lasting rfl (fun _ => rfl) ?_ ?_ (knows rfl)
      · exact fun _ _ _ served => quiet_lock served fun _ _ step => step.2
      intro _ verified _ _ knows
      cases verified with
      | true => exact succeed_guards knows
      | false => exact refuse_guards knows

end Threads

section Runs
variable {ι : Type} [DecidableEq ι] {service : AuthService} {failures : Failures} {passwords : ι → String}
  {world : AuthWorld} {history : List (Served ι AuthCall (Racing ι))}
  {threads : ι → Program AuthCall (Except AuthError LoginResponse)} {last : Racing ι}

private theorem logins_guard (run : Interleaves (orderly service failures) (fun thread => service.login username (passwords thread))
      ({ world } : Racing ι) history threads last) (thread : ι) :
    Guards (orderly service failures thread) (Rely username thread) (Guarantee username thread)
      (Cleared username thread) (threads thread) last := by
  refine (Interleaves.guards ?_ (fun _ => login_guards) run).2 thread
  intro thread other before after different guarantee
  exact ⟨guarantee.keeps.later, guarantee.locks, guarantee.frees, guarantee.others other different.symm⟩

/-- However the logins interleave, if none of them writes the lock or draws the id of a token after
a lock was written that it has not read, then a lock is there until it runs out, and a login that
succeeds leaves no lock that runs. -/
theorem locks_hold (run : Interleaves (orderly service failures) (fun thread => service.login username (passwords thread))
      ({ world } : Racing ι) history threads last) :
    (∀ entry ∈ history, Keeps username entry.world.world last.world) ∧
      ∀ thread response, threads thread = .pure (.ok response) → Expired username (last.left thread) := by
  refine ⟨?_, ?_⟩
  · induction run with
    | start => exact fun entry member => absurd member List.not_mem_nil
    | @serve history threads before after β op resume thread reply run pending served ih =>
      have active := logins_guard run thread
      rw [pending] at active
      have keeps := (active before reply after .refl served).1.keeps
      intro entry member
      rcases List.mem_append.mp member with member | member
      · exact (ih entry member).trans keeps
      · obtain rfl := List.mem_singleton.mp member
        exact .refl _
  · intro thread response returned
    have guards := logins_guard run thread
    rw [returned] at guards
    exact guards last .refl response rfl

end Runs

def checking : AuthService where
  libraries := { Sample.libraries with verifies := fun password _ => password == "right" }
  config := { jwtSecret := "", refreshTokenSecret := "", maxFailedAttempts := 1 }

def attempts (thread : Nat) : Program AuthCall (Except AuthError LoginResponse) :=
  checking.login "customer" (if thread = 0 then "right" else "wrong")

private theorem raced {thread : Nat} {β : Type} {before : Racing Nat} {op : AuthCall β} {reply : β} {world : AuthWorld}
    (served : step checking ⟨False, False⟩ before.world op reply world) :
    racing checking ⟨False, False⟩ thread before op reply
      { world, locks := if isLock op reply then before.locks + 1 else before.locks
        seen := if isRead op then Function.update before.seen thread before.locks else before.seen
        left := Function.update before.left thread world } :=
  ⟨⟨before.world.now, le_rfl, served⟩, rfl, rfl, rfl⟩

private theorem stored_half_hour : DateTime.stored (0 + DateTime.minutes 30) = DateTime.minutes 30 := by decide

/-- A login succeeds before another locks the account, and leaves no lock. -/
theorem first_login_leaves_no_lock : ∃ history threads response last,
    Interleaves (orderly checking ⟨False, False⟩) attempts ({ world := { users := { rows := [sampleCustomer] } } } : Racing Nat)
      history threads last ∧
    threads 0 = .pure (.ok response) ∧ Expired "customer" (last.left 0) ∧
    lock "customer" last.world = some (DateTime.minutes 30) ∧
    ∀ entry ∈ history, Keeps "customer" entry.world.world last.world := by
  have run : Interleaves (orderly checking ⟨False, False⟩) attempts
      ({ world := { users := { rows := [sampleCustomer] } } } : Racing Nat) [] attempts _ := .start
  have run := Interleaves.serve 0 _ run rfl ⟨fun _ => rfl, raced ⟨.inl rfl, rfl⟩⟩
  have run := Interleaves.serve 0 _ run rfl ⟨fun _ => rfl, raced ⟨rfl, rfl⟩⟩
  have run := Interleaves.serve 0 _ run rfl ⟨fun _ => rfl, raced ⟨rfl, rfl⟩⟩
  have run := Interleaves.serve 0 _ run rfl ⟨fun _ => rfl, raced (.done ⟨_, List.mem_singleton_self _, rfl⟩)⟩
  have run := Interleaves.serve 0 _ run rfl ⟨fun _ => rfl, raced ⟨rfl, rfl⟩⟩
  have run := Interleaves.serve 0 ⟨1⟩ run rfl ⟨fun _ => rfl, raced rfl⟩
  have run := Interleaves.serve 0 _ run rfl ⟨fun _ => rfl, raced ⟨rfl, rfl⟩⟩
  have run := Interleaves.serve 0 ⟨2⟩ run rfl ⟨fun _ => rfl, raced rfl⟩
  have run := Interleaves.serve 1 _ run rfl ⟨fun _ => rfl, raced ⟨.inl rfl, rfl⟩⟩
  have run := Interleaves.serve 1 _ run rfl ⟨fun _ => rfl, raced ⟨rfl, rfl⟩⟩
  have run := Interleaves.serve 1 _ run rfl
    ⟨fun _ => rfl, raced (.done (List.mem_singleton_self _) rfl (by decide))⟩
  have run := Interleaves.serve 1 _ run rfl ⟨fun _ => rfl, raced ⟨rfl, rfl⟩⟩
  have run := Interleaves.serve 1 _ run rfl ⟨fun _ => rfl, raced (.done ⟨_, List.mem_singleton_self _, rfl⟩)⟩
  obtain ⟨keeps, expired⟩ := locks_hold run
  exact ⟨_, _, _, _, run, rfl, expired 0 _ rfl, congrArg some stored_half_hour, keeps⟩

/-- A login takes back a lock that was written after it read the user, and succeeds while another
lock runs. -/
theorem stale_login_unlocks : ∃ history threads last later threads' response last',
    Interleaves (racing checking ⟨False, False⟩) attempts ({ world := { users := { rows := [sampleCustomer] } } } : Racing Nat)
      history threads last ∧
    (∃ entry ∈ history, lock "customer" entry.world.world = some (DateTime.minutes 30)) ∧
    lock "customer" last.world = none ∧ last.world.now = 0 ∧
    Interleaves (racing checking ⟨False, False⟩) attempts ({ world := { users := { rows := [sampleCustomer] } } } : Racing Nat)
      later threads' last' ∧
    threads' 0 = .pure (.ok response) ∧ lock "customer" (last'.left 0) = some (DateTime.minutes 30) ∧
    (last'.left 0).now = 0 := by
  have run : Interleaves (racing checking ⟨False, False⟩) attempts
      ({ world := { users := { rows := [sampleCustomer] } } } : Racing Nat) [] attempts _ := .start
  have run := Interleaves.serve 0 _ run rfl (raced ⟨.inl rfl, rfl⟩)
  have run := Interleaves.serve 1 _ run rfl (raced ⟨.inl rfl, rfl⟩)
  have run := Interleaves.serve 2 _ run rfl (raced ⟨.inl rfl, rfl⟩)
  have run := Interleaves.serve 0 _ run rfl (raced ⟨rfl, rfl⟩)
  have run := Interleaves.serve 1 _ run rfl (raced ⟨rfl, rfl⟩)
  have run := Interleaves.serve 1 _ run rfl (raced (.done (List.mem_singleton_self _) rfl (by decide)))
  have run := Interleaves.serve 1 _ run rfl (raced ⟨rfl, rfl⟩)
  have run := Interleaves.serve 1 _ run rfl (raced (.done ⟨_, List.mem_singleton_self _, rfl⟩))
  have run := Interleaves.serve 0 _ run rfl (raced ⟨rfl, rfl⟩)
  have unlocked := Interleaves.serve 0 _ run rfl (raced (.done ⟨_, List.mem_singleton_self _, rfl⟩))
  have run := Interleaves.serve 2 _ unlocked rfl (raced ⟨rfl, rfl⟩)
  have run := Interleaves.serve 2 _ run rfl (raced (.done (List.mem_singleton_self _) rfl (by decide)))
  have run := Interleaves.serve 2 _ run rfl (raced ⟨rfl, rfl⟩)
  have run := Interleaves.serve 2 _ run rfl (raced (.done ⟨_, List.mem_singleton_self _, rfl⟩))
  have run := Interleaves.serve 0 _ run rfl (raced ⟨rfl, rfl⟩)
  have run := Interleaves.serve 0 ⟨1⟩ run rfl (raced rfl)
  have run := Interleaves.serve 0 _ run rfl (raced ⟨rfl, rfl⟩)
  have run := Interleaves.serve 0 ⟨2⟩ run rfl (raced rfl)
  refine ⟨_, _, _, _, _, _, _, unlocked, ?_, rfl, rfl, run, rfl, congrArg some stored_half_hour, rfl⟩
  refine ⟨_, List.mem_append_left _ (List.mem_append_left _ (List.mem_append_right _ (List.mem_singleton_self _))),
    congrArg some stored_half_hour⟩

end BankingEs.Proofs.LoginRaces
