import BankingEs.Auth.World

/-! What a logout is worth. The entry that blacklists a token is dropped when the token
expires, and the token is accepted for a minute more. -/

namespace BankingEs.Proofs.Logout
open Async AuthService AuthWorld

variable {service : AuthService} {failures : Failures} {world before after : AuthWorld} {token : String}

section Validation

def Blacklisted (world : AuthWorld) (token : String) : Prop :=
  isBlacklisted (.ok ((world.live (blacklistKey token)).map RedisValue.data)) = true

instance : Decidable (Blacklisted world token) := inferInstanceAs (Decidable (_ = true))

private theorem blacklisted_iff : Blacklisted world token ↔
    ∃ value, world.redis (blacklistKey token) = some value ∧ value.isLive world.now ∧ value.data = "1" := by
  unfold Blacklisted live
  cases world.redis (blacklistKey token) with
  | none => simp [isBlacklisted]
  | some value => by_cases running : value.isLive world.now <;> simp [isBlacklisted, Option.filter, running]

/-- What `validate_token` makes of a token when Redis answers. -/
def verdict (service : AuthService) (world : AuthWorld) (token : String) (expectedType : TokenType) :
    Except AuthError Claims :=
  if Blacklisted world token then .error .tokenBlacklisted else service.decodeToken world.now token expectedType

private theorem validateToken_returns (answers : ¬failures.redis) (expectedType : TokenType) :
    Returns (step service failures) (fun result after => result = verdict service world token expectedType ∧ after = world)
      (service.validateToken token expectedType) world := by
  rintro connection after (⟨rfl, rfl⟩ | ⟨impossible, _⟩)
  · rintro reply after (⟨rfl, rfl⟩ | ⟨impossible, _⟩)
    · change Returns _ _ (if Blacklisted after token then _ else _) _
      unfold verdict
      split
      next => exact ⟨rfl, rfl⟩
      next =>
        rintro now after ⟨rfl, rfl⟩
        exact ⟨rfl, rfl⟩
    · exact absurd impossible answers
  · exact absurd impossible answers

private theorem validateToken_runs (expectedType : TokenType) : Runs (step service failures) world
    (service.validateToken token expectedType) (verdict service world token expectedType) world := by
  refine .request (.ok ()) (.inl ⟨rfl, rfl⟩) (.request _ (.inl ⟨rfl, rfl⟩) ?_)
  change Runs _ _ (if Blacklisted world token then _ else _) _ _
  unfold verdict
  split
  next => exact .pure
  next => exact .request world.now ⟨rfl, rfl⟩ .pure

/-- The entry that a logout leaves. -/
def retire (world : AuthWorld) (token : String) (claims : Claims) : AuthWorld :=
  if 0 < claims.exp - world.now.timestamp then
    world.setKey (blacklistKey token)
      (some ⟨"1", some (world.now + DateTime.seconds (claims.exp - world.now.timestamp))⟩)
  else world

def logout (service : AuthService) (world : AuthWorld) (token : String) : Except AuthError Unit × AuthWorld :=
  match verdict service world token .access with
  | .ok claims => (.ok (), retire world token claims)
  | .error error => (.error error, world)

private theorem logout_of_ok {claims : Claims} (accepted : verdict service world token .access = .ok claims) :
    logout service world token = (.ok (), retire world token claims) := by
  rw [logout, accepted]

private theorem logout_of_error {error : AuthError} (rejected : verdict service world token .access = .error error) :
    logout service world token = (.error error, world) := by
  rw [logout, rejected]

private theorem expire_setKey {key value : String} {seconds : Int} (positive : 0 < seconds) :
    (world.setKey key (some ⟨value, some (world.now + DateTime.seconds seconds)⟩)).expire key seconds =
      world.setKey key (some ⟨value, some (world.now + DateTime.seconds seconds)⟩) := by
  have running : world.now < world.now + DateTime.seconds seconds :=
    lt_add_of_pos_right _ (Int.mul_pos positive (by decide))
  have present : (world.setKey key (some ⟨value, some (world.now + DateTime.seconds seconds)⟩)).live key =
      some ⟨value, some (world.now + DateTime.seconds seconds)⟩ := by
    simp [live, setKey, RedisValue.isLive, running]
  rw [expire, present]
  simp [positive, setKey]

private theorem blacklistToken_returns (answers : ¬failures.redis) :
    Returns (step service failures) (fun result after => (result, after) = logout service world token)
      (service.blacklistToken token) world := by
  refine (validateToken_returns answers .access).andThen ?_ ?_
  · rintro error after ⟨same, rfl⟩
    exact (logout_of_error same.symm).symm
  · rintro claims after ⟨same, rfl⟩
    rw [logout_of_ok same.symm]
    rintro connection after (⟨rfl, rfl⟩ | ⟨impossible, _⟩)
    · rintro now after ⟨rfl, rfl⟩
      change Returns _ _ (if 0 < claims.exp - after.now.timestamp then _ else _) _
      unfold retire
      split
      next positive =>
        rintro reply middle (⟨rfl, rfl⟩ | ⟨impossible, _⟩)
        · rintro reply last (⟨rfl, rfl⟩ | ⟨impossible, _⟩)
          · exact congrArg _ (expire_setKey positive)
          · exact absurd impossible answers
        · exact absurd impossible answers
      next => rfl
    · exact absurd impossible answers

private theorem blacklistToken_runs : Runs (step service failures) world (service.blacklistToken token)
    (logout service world token).1 (logout service world token).2 := by
  refine (validateToken_runs .access).bind ?_
  cases accepted : verdict service world token .access with
  | error error =>
    rw [logout_of_error accepted]
    exact .pure
  | ok claims =>
    rw [logout_of_ok accepted]
    refine .request (.ok ()) (.inl ⟨rfl, rfl⟩) (.request world.now ⟨rfl, rfl⟩ ?_)
    change Runs _ _ (if 0 < claims.exp - world.now.timestamp then _ else _) _ _
    unfold retire
    split
    next positive =>
      refine .request (.ok ()) (.inl ⟨rfl, rfl⟩) (.request (.ok ()) (.inl ⟨rfl, ?_⟩) .pure)
      exact (expire_setKey positive).symm
    next => exact .pure

end Validation

section Frame

/-- The calls that may change a key of Redis. -/
def Touches (key : String) : {β : Type} → AuthCall β → Prop
  | _, .redisSetEx other _ _ => other = key
  | _, .redisExpire other _ => other = key
  | _, .redisIncr other => other = key
  | _, _ => False

private theorem setKey_redis {key other : String} {value : Option RedisValue} (differs : other ≠ key) :
    (world.setKey other value).redis key = world.redis key :=
  Function.update_of_ne (Ne.symm differs) _ _

private theorem expire_redis {key other : String} {seconds : Int} (differs : other ≠ key) :
    (world.expire other seconds).redis key = world.redis key := by
  unfold expire
  split
  next =>
    split
    next => exact setKey_redis differs
    next => exact setKey_redis differs
  next => rfl

private theorem expire_now {key : String} {seconds : Int} : (world.expire key seconds).now = world.now := by
  unfold expire
  split
  next => split <;> rfl
  next => rfl

private theorem step_frame {β : Type} {op : AuthCall β} {reply : β}
    (served : step service failures before op reply after) :
    after.now = before.now ∧ ∀ key, ¬Touches key op → after.redis key = before.redis key := by
  cases op with
  | utcNow | verifyPassword _ _ | findByUsername _ =>
    obtain ⟨_, rfl⟩ := served
    exact ⟨rfl, fun _ _ => rfl⟩
  | newV4 | generateSalt =>
    obtain rfl := served
    exact ⟨rfl, fun _ _ => rfl⟩
  | create _ | updateLoginInfo _ _ _ _ | updatePasswordHash _ _ | incrementFailedAttempts _ | updateLockout _ _ _ =>
    cases served <;> exact ⟨rfl, fun _ _ => rfl⟩
  | getAsyncConnection | redisGet _ =>
    rcases served with ⟨_, rfl⟩ | ⟨_, _, rfl⟩ <;> exact ⟨rfl, fun _ _ => rfl⟩
  | redisSetEx other value seconds =>
    rcases served with ⟨_, rfl⟩ | ⟨_, _, rfl⟩
    · exact ⟨rfl, fun _ apart => setKey_redis apart⟩
    · exact ⟨rfl, fun _ _ => rfl⟩
  | redisExpire other seconds =>
    rcases served with ⟨_, rfl⟩ | ⟨_, _, rfl⟩
    · exact ⟨expire_now, fun _ apart => expire_redis apart⟩
    · exact ⟨rfl, fun _ _ => rfl⟩
  | redisIncr other =>
    rcases served with counts | ⟨_, _, rfl⟩
    · cases counts with
      | starts | adds => exact ⟨rfl, fun _ apart => setKey_redis apart⟩
      | refuses => exact ⟨rfl, fun _ _ => rfl⟩
    · exact ⟨rfl, fun _ _ => rfl⟩

private theorem runs_now {α : Type} {program : Program AuthCall α} {value : α}
    (run : Runs (step service failures) before program value after) : after.now = before.now := by
  have keeps : Returns (step service failures) (fun _ world => world.now = before.now) program before :=
    Returns.of_uses (fun world : AuthWorld => world.now = before.now) (Program.Uses.of_all (fun _ => trivial) program)
      (fun _ _ _ _ _ served same => (step_frame served).1.trans same) rfl
  exact keeps.runs run

def Leaves {α : Type} (key : String) (program : Program AuthCall α) : Prop := program.Uses fun op => ¬Touches key op

variable {key : String} {α β : Type}

private theorem leaves_pure (value : α) : Leaves key (.pure value) := trivial

private theorem Leaves.send {op : AuthCall β} {next : β → Program AuthCall α} (apart : ¬Touches key op)
    (rest : ∀ reply, Leaves key (next reply)) : Leaves key (Program.send op >>= next) :=
  Program.Uses.bind ⟨apart, fun _ => trivial⟩ rest

private theorem Leaves.andThen {ε : Type} {program : Program AuthCall (Except ε α)}
    {next : α → Program AuthCall (Except ε β)}
    (leaves : Leaves key program) (rest : ∀ value, Leaves key (next value)) : Leaves key (program.andThen next) :=
  Program.Uses.andThen leaves rest

private theorem leaves_repository {op : AuthCall (Except UserRepositoryError α)} (apart : ¬Touches key op) :
    Leaves key (repository op) :=
  Leaves.send apart fun _ => leaves_pure _

private theorem leaves_redis {op : AuthCall (Except RedisError α)} (apart : ¬Touches key op) :
    Leaves key (AuthService.redis op) :=
  Leaves.send apart fun _ => leaves_pure _

private theorem leaves_findUser (username : String) : Leaves key (findUser username) := by
  refine (leaves_repository id).andThen ?_
  intro found
  cases found with
  | none => exact leaves_pure _
  | some user => exact leaves_pure _

private theorem leaves_generateToken (username : String) (roles : List UserRole) (tokenType : TokenType) :
    Leaves key (service.generateToken username roles tokenType) :=
  Leaves.send id fun _ => Leaves.send id fun _ => leaves_pure _

private theorem leaves_tokens (user : User) : Leaves key (service.tokens user) :=
  (leaves_generateToken _ _ _).andThen fun _ => (leaves_generateToken _ _ _).andThen fun _ => leaves_pure _

private theorem leaves_validateToken (token : String) (expectedType : TokenType) :
    Leaves key (service.validateToken token expectedType) := by
  refine (leaves_redis id).andThen fun _ => Leaves.send id fun reply => ?_
  split
  next => exact leaves_pure _
  next => exact Leaves.send id fun _ => leaves_pure _

private theorem leaves_refuse (user : User) : Leaves key (service.refuse user) := by
  refine (leaves_repository id).andThen fun attempts => ?_
  split
  next => exact leaves_pure _
  next =>
    split
    next => exact Leaves.send id fun _ => (leaves_repository id).andThen fun _ => leaves_pure _
    next => exact leaves_pure _

private theorem leaves_unlock (user : User) : Leaves key (unlock user) := by
  unfold unlock
  split
  next => exact leaves_pure _
  next =>
    refine Leaves.send id fun now => ?_
    split
    next => exact leaves_pure _
    next => exact leaves_repository id

private theorem leaves_login (username password : String) : Leaves key (service.login username password) := by
  refine (leaves_findUser username).andThen fun user => ?_
  split
  next => exact leaves_pure _
  next =>
    refine (leaves_unlock user).andThen fun _ => ?_
    split
    next => exact leaves_pure _
    next =>
      refine Leaves.send id fun verified => ?_
      split
      next => exact Leaves.send id fun _ => (leaves_repository id).andThen fun _ => leaves_tokens user
      next => exact leaves_refuse user

private theorem leaves_changePassword (username current new : String) :
    Leaves key (service.changePassword username current new) := by
  refine (leaves_findUser username).andThen fun user => ?_
  split
  next => exact leaves_pure _
  next =>
    refine Leaves.send id fun verified => ?_
    split
    next =>
      refine Leaves.send id fun salt => ?_
      split
      next => exact leaves_pure _
      next => exact leaves_repository id
    next => exact leaves_pure _

private theorem leaves_registerUser (username email password : String) (roles : List UserRole) :
    Leaves key (service.registerUser username email password roles) := by
  refine Leaves.send id fun salt => ?_
  split
  next => exact leaves_pure _
  next => exact leaves_repository id

private theorem leaves_refreshToken (token : String) : Leaves key (service.refreshToken token) := by
  refine (leaves_validateToken token .refresh).andThen fun claims => (leaves_findUser _).andThen fun user => ?_
  split
  next => exact leaves_pure _
  next => exact leaves_tokens user

private theorem leaves_blacklistToken {other : String} (apart : blacklistKey other ≠ key) :
    Leaves key (service.blacklistToken other) := by
  refine (leaves_validateToken other .access).andThen fun claims => (leaves_redis id).andThen fun _ =>
    Leaves.send id fun now => ?_
  have sets : ∀ value seconds, Leaves key (AuthService.redis (.redisSetEx (blacklistKey other) value seconds)) :=
    fun _ _ => leaves_redis apart
  have expires : ∀ seconds, Leaves key (AuthService.redis (.redisExpire (blacklistKey other) seconds)) :=
    fun _ => leaves_redis apart
  dsimp only
  split
  next => exact (sets _ _).andThen fun _ => expires _
  next => exact leaves_pure _

private theorem leaves_checkRateLimit {other : String} (apart : rateLimitKey other ≠ key) :
    Leaves key (service.checkRateLimit other) := by
  have counts : Leaves key (AuthService.redis (.redisIncr (rateLimitKey other))) := leaves_redis apart
  have expires : ∀ seconds, Leaves key (AuthService.redis (.redisExpire (rateLimitKey other) seconds)) :=
    fun _ => leaves_redis apart
  refine (leaves_redis id).andThen fun _ => counts.andThen fun current => ?_
  dsimp only
  split
  next => exact (expires _).andThen fun _ => leaves_pure _
  next => exact leaves_pure _

private theorem rateLimitKey_ne (key token : String) : rateLimitKey key ≠ blacklistKey token := by
  intro same
  have heads := congrArg (fun text => text.toList.head?) same
  simp [rateLimitKey, blacklistKey] at heads

/-- Only a logout with the token itself can change its entry. -/
theorem leaves_call {method : Method} (other : method ≠ .blacklistToken token) :
    Leaves (blacklistKey token) (service.call method) := by
  cases method with
  | registerUser username email password roles => exact (leaves_registerUser _ _ _ _).bind fun _ => leaves_pure _
  | login username password => exact (leaves_login _ _).bind fun _ => leaves_pure _
  | refreshToken token => exact (leaves_refreshToken _).bind fun _ => leaves_pure _
  | changePassword username current new => exact (leaves_changePassword _ _ _).bind fun _ => leaves_pure _
  | validateToken token expectedType => exact (leaves_validateToken _ _).bind fun _ => leaves_pure _
  | blacklistToken another =>
    have apart : blacklistKey another ≠ blacklistKey token := by
      intro same
      exact other (congrArg _ ((String.append_right_inj "blacklist:").mp same))
    exact (leaves_blacklistToken apart).bind fun _ => leaves_pure _
  | checkRateLimit key => exact (leaves_checkRateLimit (rateLimitKey_ne key token)).bind fun _ => leaves_pure _

private theorem Leaves.runs {program : Program AuthCall α} {value : α} (leaves : Leaves key program)
    (run : Runs (step service failures) before program value after) : after.redis key = before.redis key := by
  have keeps : Returns (step service failures) (fun _ world => world.redis key = before.redis key) program before :=
    Returns.of_uses (fun world : AuthWorld => world.redis key = before.redis key) leaves
      (fun _ _ _ _ apart served same => ((step_frame served).2 key apart).trans same) rfl
  exact keeps.runs run

end Frame

section Retired

private theorem timestamp_mono {first last : DateTime} (later : first ≤ last) : first.timestamp ≤ last.timestamp :=
  Int.ediv_le_ediv (by decide) later

private theorem timestamp_reached (start now exp : Int)
    (late : start + DateTime.seconds (exp - DateTime.timestamp start) ≤ now) : exp ≤ DateTime.timestamp now := by
  unfold DateTime.seconds DateTime.timestamp at *
  omega

/-- What is not blacklisted is not blacklisted later, if its entry stays as it is. -/
theorem not_blacklisted_later (fine : ¬Blacklisted before token)
    (same : after.redis (blacklistKey token) = before.redis (blacklistKey token)) (later : before.now ≤ after.now) :
    ¬Blacklisted after token := by
  intro blacklisted
  obtain ⟨value, held, running, data⟩ := blacklisted_iff.mp blacklisted
  refine fine (blacklisted_iff.mpr ⟨value, same ▸ held, ?_, data⟩)
  obtain ⟨data, expiresAt⟩ := value
  cases expiresAt with
  | none => rfl
  | some expiresAt =>
    have running : after.now < expiresAt := of_decide_eq_true running
    exact decide_eq_true (later.trans_lt running)

variable {claims : Claims}

private theorem decodeToken_ok {now : DateTime} {expectedType : TokenType} :
    service.decodeToken now token expectedType = .ok claims ↔
    service.libraries.decode (service.secret expectedType) token = .ok claims ∧ now.timestamp ≤ claims.exp + 60 ∧
      claims.tokenType = expectedType := by
  unfold decodeToken
  cases service.libraries.decode (service.secret expectedType) token with
  | error message => simp
  | ok read =>
    dsimp only
    split
    next expired =>
      refine ⟨fun impossible => (by cases impossible), ?_⟩
      rintro ⟨same, fresh, _⟩
      cases same
      exact absurd (of_decide_eq_true expired) (not_lt.mpr fresh)
    next fresh =>
      have fresh : now.timestamp ≤ read.exp + 60 := not_lt.mp fun expired => fresh (decide_eq_true expired)
      split
      next other =>
        refine ⟨fun impossible => (by cases impossible), ?_⟩
        rintro ⟨same, _, typed⟩
        cases same
        exact absurd typed other
      next same =>
        constructor
        · intro equal
          cases equal
          exact ⟨rfl, fresh, not_not.mp same⟩
        · rintro ⟨equal, _, _⟩
          cases equal
          rfl

private theorem verdict_ok {expectedType : TokenType} : verdict service world token expectedType = .ok claims ↔
    ¬Blacklisted world token ∧ service.libraries.decode (service.secret expectedType) token = .ok claims ∧
      world.now.timestamp ≤ claims.exp + 60 ∧ claims.tokenType = expectedType := by
  unfold verdict
  split
  next blacklisted => simp [blacklisted]
  next fine => rw [decodeToken_ok, and_iff_right fine]

/-- After a logout the token is blacklisted up to the end of its entry, and never again. -/
theorem retired_blacklisted (fine : ¬Blacklisted before token)
    (same : after.redis (blacklistKey token) = (retire before token claims).redis (blacklistKey token))
    (later : before.now ≤ after.now) :
    Blacklisted after token ↔ before.now.timestamp < claims.exp ∧
      after.now < before.now + DateTime.seconds (claims.exp - before.now.timestamp) := by
  unfold retire at same
  split at same
  next positive =>
    have held : after.redis (blacklistKey token) = some ⟨"1", _⟩ := same.trans (Function.update_self ..)
    rw [blacklisted_iff, held]
    simp [RedisValue.isLive, sub_pos.mp positive]
  next expired =>
    have early : ¬before.now.timestamp < claims.exp := fun early => expired (sub_pos.mpr early)
    simp [not_blacklisted_later fine same later, early]

end Retired

section Runs
variable {first last : AuthWorld} {events more : List Called} {claims : Claims}

private theorem calls_append (calls : service.Calls failures first (events ++ more) last) :
    ∃ middle, service.Calls failures first events middle ∧ service.Calls failures middle more last := by
  induction events generalizing first with
  | nil => exact ⟨first, .nil, calls⟩
  | cons event events ih =>
    cases calls with
    | cons later runs rest =>
      obtain ⟨middle, head, tail⟩ := ih rest
      exact ⟨middle, .cons later runs head, tail⟩

private theorem blacklistToken_call {reply : Reply} (answers : ¬failures.redis)
    (run : Runs (step service failures) before (service.call (.blacklistToken token)) reply after) :
    reply = .done (logout service before token).1 ∧ after = (logout service before token).2 := by
  have returns : Returns (step service failures) (fun reply after =>
      reply = .done (logout service before token).1 ∧ after = (logout service before token).2)
      (service.call (.blacklistToken token)) before := by
    refine (blacklistToken_returns answers).bind ?_
    intro result after same
    rw [← same]
    exact ⟨rfl, rfl⟩
  exact returns.runs run

private theorem validateToken_call {reply : Reply} {expectedType : TokenType} (answers : ¬failures.redis)
    (run : Runs (step service failures) before (service.call (.validateToken token expectedType)) reply after) :
    reply = .claims (verdict service before token expectedType) := by
  have returns : Returns (step service failures) (fun reply _ => reply = .claims (verdict service before token expectedType))
      (service.call (.validateToken token expectedType)) before := by
    refine (validateToken_returns answers expectedType).bind ?_
    rintro result after ⟨same, _⟩
    exact congrArg Reply.claims same
  exact returns.runs run

/-- A second logout with the token finds its entry, or a token that has expired: either way it
writes nothing. -/
theorem logout_again {retired : AuthWorld} (accepted : verdict service retired token .access = .ok claims)
    (same : world.redis (blacklistKey token) = (retire retired token claims).redis (blacklistKey token))
    (later : retired.now ≤ world.now) : (logout service world token).2 = world := by
  obtain ⟨fine, decoded, _, _⟩ := verdict_ok.mp accepted
  cases again : verdict service world token .access with
  | error error => rw [logout_of_error again]
  | ok read =>
    obtain ⟨still, reads, _, _⟩ := verdict_ok.mp again
    obtain rfl : claims = read := Except.ok.inj (decoded.symm.trans reads)
    rw [logout_of_ok again]
    refine if_neg (not_lt.mpr (sub_nonpos.mpr ?_))
    rw [retired_blacklisted fine same later, not_and_or, not_lt, not_lt] at still
    rcases still with expired | ended
    · exact expired.trans (timestamp_mono later)
    · exact timestamp_reached _ _ _ ended

private theorem calls_keep {retired : AuthWorld} (answers : ¬failures.redis)
    (accepted : verdict service retired token .access = .ok claims)
    (same : first.redis (blacklistKey token) = (retire retired token claims).redis (blacklistKey token))
    (later : retired.now ≤ first.now) (calls : service.Calls failures first events last) :
    last.redis (blacklistKey token) = (retire retired token claims).redis (blacklistKey token) ∧ retired.now ≤ last.now := by
  induction calls with
  | nil => exact ⟨same, later⟩
  | @cons before middle after event events waits runs rest ih =>
    have time : middle.now = event.time := runs_now runs
    have later : retired.now ≤ event.time := later.trans waits
    refine ih ?_ (time ▸ later)
    by_cases again : event.method = .blacklistToken token
    · rw [again] at runs
      rw [(blacklistToken_call answers runs).2]
      have still : (logout service { before with now := event.time } token).2 = _ := logout_again accepted same later
      rw [still]
      exact same
    · exact ((leaves_call again).runs runs).trans same

private theorem retire_now : (retire world token claims).now = world.now := by
  unfold retire
  split <;> rfl

private theorem retires {time : DateTime} (answers : ¬failures.redis)
    (run : Runs (step service failures) { before with now := time } (service.call (.blacklistToken token))
      (.done (.ok ())) after) :
    ∃ retired claims, retired.now = time ∧ verdict service retired token .access = .ok claims ∧
      after = retire retired token claims := by
  obtain ⟨reply, rfl⟩ := blacklistToken_call answers run
  cases accepted : verdict service { before with now := time } token .access with
  | error error =>
    rw [logout_of_error accepted] at reply
    cases reply
  | ok claims => exact ⟨_, claims, rfl, accepted, by rw [logout_of_ok accepted]⟩

private theorem retired_rejected {retired : AuthWorld} (accepted : verdict service retired token .access = .ok claims)
    (same : after.redis (blacklistKey token) = (retire retired token claims).redis (blacklistKey token))
    (later : retired.now ≤ after.now) (expectedType : TokenType) :
    (∀ read, verdict service after token expectedType ≠ .ok read) ↔
      expectedType = .refresh ∨ claims.exp + 60 < after.now.timestamp ∨
        (retired.now.timestamp < claims.exp ∧
          after.now < retired.now + DateTime.seconds (claims.exp - retired.now.timestamp)) := by
  obtain ⟨fine, decoded, _, typed⟩ := verdict_ok.mp accepted
  rw [← retired_blacklisted fine same later]
  cases expectedType with
  | refresh =>
    refine ⟨fun _ => .inl rfl, ?_⟩
    intro _ read asRefresh
    obtain ⟨_, decodedToo, _, typedToo⟩ := verdict_ok.mp asRefresh
    -- the payload is the same under either secret, and its type is not
    have equal := service.libraries.payload _ _ token claims read decoded decodedToo
    rw [equal, typed] at typedToo
    cases typedToo
  | access =>
    constructor
    · intro rejected
      by_contra accepting
      simp only [reduceCtorEq, false_or, not_or, not_lt] at accepting
      exact rejected claims (verdict_ok.mpr ⟨accepting.2, decoded, accepting.1, typed⟩)
    · rintro (impossible | expired | blacklisted) read again
      · cases impossible
      · obtain ⟨_, decodedToo, fresh, _⟩ := verdict_ok.mp again
        obtain rfl : claims = read := Except.ok.inj (decoded.symm.trans decodedToo)
        exact absurd expired (not_lt.mpr fresh)
      · exact (verdict_ok.mp again).1 blacklisted

/-- After a logout the token is turned down exactly if it is asked for as a refresh token,
after the minute that follows its expiry, or while the entry that the logout wrote is there. -/
theorem logout_holds_iff {logoutTime validationTime : DateTime} {expectedType : TokenType}
    {result : Except AuthError Claims} {past between rest : List Called} (answers : ¬failures.redis)
    (calls : service.Calls failures first (past ++ ⟨logoutTime, .blacklistToken token, .done (.ok ())⟩ ::
      (between ++ ⟨validationTime, .validateToken token expectedType, .claims result⟩ :: rest)) last) :
    ∃ claims, service.libraries.decode service.config.jwtSecret token = .ok claims ∧
      ((∀ read, result ≠ .ok read) ↔ expectedType = .refresh ∨ claims.exp + 60 < validationTime.timestamp ∨
        (logoutTime.timestamp < claims.exp ∧
          validationTime < logoutTime + DateTime.seconds (claims.exp - logoutTime.timestamp))) := by
  obtain ⟨earlier, _, calls⟩ := calls_append calls
  cases calls with
  | cons _ runs calls =>
    obtain ⟨retired, claims, time, accepted, rfl⟩ := retires answers runs
    obtain ⟨middle, kept, calls⟩ := calls_append calls
    obtain ⟨same, later⟩ := calls_keep answers accepted rfl (le_of_eq retire_now.symm) kept
    cases calls with
    | cons waits runs _ =>
      obtain rfl : result = verdict service { middle with now := validationTime } token expectedType :=
        Reply.claims.inj (validateToken_call answers runs)
      have rejected := @retired_rejected service { middle with now := validationTime } token claims retired accepted same
        (later.trans waits) expectedType
      rw [time] at rejected
      exact ⟨claims, (verdict_ok.mp accepted).2.1, rejected⟩

def session : Claims where
  sub := "customer"
  exp := 100
  iat := 0
  roles := [.customer]
  tokenType := .access
  jti := ⟨1⟩
  company := "ACME"

def signing : AuthService where
  libraries :=
    { parsesHash := fun _ => .ok ()
      verifies := fun _ _ => true
      hashPassword := fun password _ => .ok password
      encode := fun _ _ => .ok "token"
      decode := fun secret token => if secret = "jwt" ∧ token = "token" then .ok session else .error "InvalidSignature"
      payload := by
        intro secret other token claims read decoded decodedToo
        split at decoded
        · split at decodedToo
          · cases decoded
            cases decodedToo
            rfl
          · cases decodedToo
        · cases decoded }
  config := { jwtSecret := "jwt", refreshTokenSecret := "refresh" }

private theorem signing_accepts {time : DateTime} (early : time.timestamp ≤ 160) :
    verdict signing { now := time } "token" .access = .ok session :=
  verdict_ok.mpr ⟨by simp [blacklisted_iff], by rfl, early, rfl⟩

private theorem logout_validation {logoutTime validationTime : DateTime} (starts : 0 ≤ logoutTime)
    (early : logoutTime.timestamp ≤ 160) (later : logoutTime ≤ validationTime) :
    signing.Calls ⟨False, False⟩ {}
      [⟨logoutTime, .blacklistToken "token", .done (.ok ())⟩,
        ⟨validationTime, .validateToken "token" .access, .claims
          (verdict signing { retire { now := logoutTime } "token" session with now := validationTime } "token" .access)⟩]
      { retire { now := logoutTime } "token" session with now := validationTime } := by
  have runs : Runs (step signing ⟨False, False⟩) { now := logoutTime } (signing.blacklistToken "token") _ _ :=
    blacklistToken_runs
  rw [logout_of_ok (signing_accepts early)] at runs
  refine .cons starts (runs.bind .pure) (.cons ?_ ((validateToken_runs .access).bind .pure) .nil)
  rw [retire_now]
  exact later

/-- Ten seconds after the logout the token is turned down. -/
theorem logout_holds_at_first : ∃ result last, signing.Calls ⟨False, False⟩ {}
      [⟨DateTime.seconds 40, .blacklistToken "token", .done (.ok ())⟩,
        ⟨DateTime.seconds 50, .validateToken "token" .access, .claims result⟩] last ∧
    ∀ read, result ≠ .ok read := by
  have starts : (0 : DateTime) ≤ DateTime.seconds 40 := by decide
  have later : DateTime.seconds 40 ≤ DateTime.seconds 50 := by decide
  have calls := logout_validation starts (by decide) later
  refine ⟨_, _, calls, ?_⟩
  obtain ⟨claims, decoded, holds⟩ := @logout_holds_iff _ _ _ _ _ _ _ _ _ [] [] [] id calls
  obtain rfl : session = claims := Except.ok.inj decoded
  exact holds.mpr (.inr (.inr (by decide)))

/-- The entry of the logout is gone when the token expires, and half a minute later the token
is accepted again. -/
theorem logged_out_token_accepted : ∃ last, signing.Calls ⟨False, False⟩ {}
    [⟨DateTime.seconds 40, .blacklistToken "token", .done (.ok ())⟩,
      ⟨DateTime.seconds 130, .validateToken "token" .access, .claims (.ok session)⟩] last := by
  have starts : (0 : DateTime) ≤ DateTime.seconds 40 := by decide
  have later : DateTime.seconds 40 ≤ DateTime.seconds 130 := by decide
  have calls := logout_validation starts (by decide) later
  have accepted : verdict signing
      { retire { now := DateTime.seconds 40 } "token" session with now := DateTime.seconds 130 } "token" .access =
      .ok session := by
    refine verdict_ok.mpr ⟨?_, by rfl, by decide, rfl⟩
    decide
  rw [accepted] at calls
  exact ⟨_, calls⟩

end Runs
end BankingEs.Proofs.Logout
