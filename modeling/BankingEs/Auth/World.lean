import BankingEs.Auth.Service

/-! The user table, the keys in Redis and the clock that serve the calls of `AuthService`,
and sequences of its methods, each taken at one time. -/

namespace BankingEs
open Async

structure RedisValue where
  data : String
  expiresAt : Option DateTime

def RedisValue.isLive (now : DateTime) (value : RedisValue) : Bool :=
  match value.expiresAt with
  | some expiresAt => now < expiresAt
  | none => true

/-- The rows of `users`, with its primary key and its unique names. -/
structure UserTable where
  rows : List User := []
  ids : (rows.map User.id).Nodup := by simp
  usernames : (rows.map User.username).Nodup := by simp

namespace UserTable

def find (table : UserTable) (username : String) : Option User := table.rows.find? fun user => user.username = username

/-- An update that leaves the keys alone. -/
structure Change where
  apply : User → User
  id : ∀ user, (apply user).id = user.id
  username : ∀ user, (apply user).username = user.username

def Change.at (change : Change) (id : Uuid) (user : User) : User := if user.id = id then change.apply user else user

theorem Change.at_id (change : Change) (id : Uuid) (user : User) : (change.at id user).id = user.id := by
  unfold Change.at
  split
  next => exact change.id user
  next => rfl

theorem Change.at_username (change : Change) (id : Uuid) (user : User) :
    (change.at id user).username = user.username := by
  unfold Change.at
  split
  next => exact change.username user
  next => rfl

def update (table : UserTable) (id : Uuid) (change : Change) : UserTable where
  rows := table.rows.map (change.at id)
  ids := by simpa [Function.comp_def, change.at_id] using table.ids
  usernames := by simpa [Function.comp_def, change.at_username] using table.usernames

def insert (table : UserTable) (user : User) (fresh : ∀ other ∈ table.rows, other.id ≠ user.id)
    (unnamed : ∀ other ∈ table.rows, other.username ≠ user.username) : UserTable where
  rows := table.rows ++ [user]
  ids := by simpa [List.nodup_append, table.ids] using fresh
  usernames := by simpa [List.nodup_append, table.usernames] using unnamed

theorem find_update (table : UserTable) (id : Uuid) (change : Change) (username : String) :
    (table.update id change).find username = (table.find username).map (change.at id) := by
  have same : (fun user => decide (user.username = username)) ∘ change.at id =
      fun user => decide (user.username = username) := by
    funext user
    rw [Function.comp_apply, change.at_username]
  rw [find, find, update, List.find?_map, same]

theorem mem_of_find {table : UserTable} {username : String} {user : User} (found : table.find username = some user) :
    user ∈ table.rows := List.mem_of_find?_eq_some found

theorem eq_of_id {table : UserTable} {user other : User} (member : user ∈ table.rows) (memberToo : other ∈ table.rows)
    (same : user.id = other.id) : user = other := List.inj_on_of_nodup_map table.ids member memberToo same

end UserTable

structure AuthWorld where
  now : DateTime := 0
  users : UserTable := {}
  redis : String → Option RedisValue := fun _ => none

/-- Which calls can fail without being carried out. -/
structure Failures where
  redis : Prop
  repository : Prop

namespace AuthWorld

inductive Updates (fails : Prop) (world : AuthWorld) (id : Uuid) (change : UserTable.Change) :
    Except UserRepositoryError Unit → AuthWorld → Prop where
  | done (found : ∃ user ∈ world.users.rows, user.id = id) :
      Updates fails world id change (.ok ()) { world with users := world.users.update id change }
  | missing (absent : ∀ user ∈ world.users.rows, user.id ≠ id) :
      Updates fails world id change (.error (.notFoundById id)) world
  | fails {message : String} (allowed : fails) : Updates fails world id change (.error (.databaseError message)) world

/-- The update of a row that is there is made, or fails. -/
theorem Updates.of_mem {fails : Prop} {world after : AuthWorld} {user : User} {change : UserTable.Change}
    {reply : Except UserRepositoryError Unit} (updates : Updates fails world user.id change reply after)
    (member : user ∈ world.users.rows) :
    (reply = .ok () ∧ after = { world with users := world.users.update user.id change }) ∨
      (fails ∧ (∃ error, reply = .error error) ∧ after = world) := by
  cases updates with
  | done => exact .inl ⟨rfl, rfl⟩
  | missing absent => exact absurd rfl (absent user member)
  | fails allowed => exact .inr ⟨allowed, ⟨_, rfl⟩, rfl⟩

def setLockout (lockedUntil : Option DateTime) (failedAttempts : Int) : UserTable.Change :=
  ⟨fun user => { user with lockedUntil := lockedUntil.map .stored, failedLoginAttempts := failedAttempts },
    fun _ => rfl, fun _ => rfl⟩

def setLoginInfo (lastLoginAt : DateTime) (failedLoginAttempts : Int) (lockedUntil : Option DateTime) :
    UserTable.Change :=
  ⟨fun user => { user with
      lastLoginAt := some lastLoginAt.stored, failedLoginAttempts, lockedUntil := lockedUntil.map .stored },
    fun _ => rfl, fun _ => rfl⟩

def setPasswordHash (passwordHash : String) : UserTable.Change :=
  ⟨fun user => { user with passwordHash }, fun _ => rfl, fun _ => rfl⟩

def countFailure : UserTable.Change :=
  ⟨fun user => { user with failedLoginAttempts := user.failedLoginAttempts + 1 }, fun _ => rfl, fun _ => rfl⟩

/-- `SET failed_login_attempts = failed_login_attempts + 1 … RETURNING`, on a column of 32 bits. -/
inductive Increments (fails : Prop) (world : AuthWorld) (id : Uuid) : Except UserRepositoryError Int → AuthWorld → Prop where
  | done {user : User} (found : user ∈ world.users.rows) (same : user.id = id)
      (fits : user.failedLoginAttempts + 1 < 2147483648) :
      Increments fails world id (.ok (user.failedLoginAttempts + 1))
        { world with users := world.users.update id countFailure }
  | overflows {user : User} {message : String} (found : user ∈ world.users.rows) (same : user.id = id)
      (large : 2147483648 ≤ user.failedLoginAttempts + 1) :
      Increments fails world id (.error (.databaseError message)) world
  | missing (absent : ∀ user ∈ world.users.rows, user.id ≠ id) :
      Increments fails world id (.error (.notFoundById id)) world
  | fails {message : String} (allowed : fails) : Increments fails world id (.error (.databaseError message)) world

theorem Increments.of_mem {fails : Prop} {world after : AuthWorld} {user : User}
    {reply : Except UserRepositoryError Int}
    (increments : Increments fails world user.id reply after) (member : user ∈ world.users.rows) :
    (reply = .ok (user.failedLoginAttempts + 1) ∧ after = { world with users := world.users.update user.id countFailure }) ∨
      ((fails ∨ 2147483648 ≤ user.failedLoginAttempts + 1) ∧ (∃ error, reply = .error error) ∧ after = world) := by
  cases increments with
  | done found same fits =>
    obtain rfl := UserTable.eq_of_id found member same
    exact .inl ⟨rfl, rfl⟩
  | overflows found same large =>
    obtain rfl := UserTable.eq_of_id found member same
    exact .inr ⟨.inr large, ⟨_, rfl⟩, rfl⟩
  | missing absent => exact absurd rfl (absent user member)
  | fails allowed => exact .inr ⟨.inl allowed, ⟨_, rfl⟩, rfl⟩

def newRow (id : Uuid) (now : DateTime) (user : NewUser) : User :=
  { id, username := user.username, email := some user.email, passwordHash := user.passwordHash, roles := user.roles
    isActive := true, registeredAt := now.stored, lastLoginAt := none, failedLoginAttempts := 0, lockedUntil := none }

def sampleCustomer : User := newRow ⟨0⟩ 0 { username := "customer", email := "", passwordHash := "hash", roles := [] }

inductive Creates (fails : Prop) (world : AuthWorld) (user : NewUser) :
    Except UserRepositoryError User → AuthWorld → Prop where
  | done {id : Uuid} (fresh : ∀ other ∈ world.users.rows, other.id ≠ id)
      (username : ∀ other ∈ world.users.rows, other.username ≠ user.username)
      (email : ∀ other ∈ world.users.rows, other.email ≠ some user.email) :
      Creates fails world user (.ok (newRow id world.now user))
        { world with users := world.users.insert (newRow id world.now user) fresh username }
  | username (taken : ∃ other ∈ world.users.rows, other.username = user.username) :
      Creates fails world user (.error (.usernameExists user.username)) world
  | email (taken : ∃ other ∈ world.users.rows, other.email = some user.email) :
      Creates fails world user (.error (.emailExists user.email)) world
  | fails {message : String} (allowed : fails) : Creates fails world user (.error (.databaseError message)) world

def live (world : AuthWorld) (key : String) : Option RedisValue :=
  (world.redis key).filter fun value => value.isLive world.now

def setKey (world : AuthWorld) (key : String) (value : Option RedisValue) : AuthWorld :=
  { world with redis := Function.update world.redis key value }

/-- `INCR`; only a number can be counted up. -/
inductive Counts (world : AuthWorld) (key : String) : Except RedisError Int → AuthWorld → Prop where
  | starts (absent : world.live key = none) : Counts world key (.ok 1) (world.setKey key (some ⟨"1", none⟩))
  | adds {value : RedisValue} {count : Int} (present : world.live key = some value)
      (number : value.data.toInt? = some count) :
      Counts world key (.ok (count + 1)) (world.setKey key (some { value with data := toString (count + 1) }))
  | refuses {value : RedisValue} {error : RedisError} (present : world.live key = some value)
      (other : value.data.toInt? = none) : Counts world key (.error error) world

def expire (world : AuthWorld) (key : String) (seconds : Int) : AuthWorld :=
  match world.live key with
  | some value =>
    if 0 < seconds then world.setKey key (some { value with expiresAt := some (world.now + DateTime.seconds seconds) })
    else world.setKey key none
  | none => world

def Fails (allowed : Prop) {α : Type} (reply : Except RedisError α) (world after : AuthWorld) : Prop :=
  allowed ∧ (∃ error, reply = .error error) ∧ after = world

def step (service : AuthService) (failures : Failures) : {β : Type} → AuthWorld → AuthCall β → β → AuthWorld → Prop
  | _, world, .utcNow, now, after => now = world.now ∧ after = world
  | _, world, .newV4, _, after => after = world
  | _, world, .generateSalt, _, after => after = world
  | _, world, .verifyPassword password hash, verified, after =>
    verified = service.libraries.verifies password hash ∧ after = world
  | _, world, .findByUsername username, reply, after =>
    (reply = .ok (world.users.find username) ∨
      failures.repository ∧ ∃ message, reply = .error (.databaseError message)) ∧ after = world
  | _, world, .create user, reply, after => Creates failures.repository world user reply after
  | _, world, .updateLoginInfo id lastLoginAt failedLoginAttempts lockedUntil, reply, after =>
    Updates failures.repository world id (setLoginInfo lastLoginAt failedLoginAttempts lockedUntil) reply after
  | _, world, .updatePasswordHash id passwordHash, reply, after =>
    Updates failures.repository world id (setPasswordHash passwordHash) reply after
  | _, world, .incrementFailedAttempts id, reply, after => Increments failures.repository world id reply after
  | _, world, .updateLockout id lockedUntil failedAttempts, reply, after =>
    Updates failures.repository world id (setLockout lockedUntil failedAttempts) reply after
  | _, world, .getAsyncConnection, reply, after =>
    (reply = .ok () ∧ after = world) ∨ Fails failures.redis reply world after
  | _, world, .redisGet key, reply, after =>
    (reply = .ok ((world.live key).map RedisValue.data) ∧ after = world) ∨ Fails failures.redis reply world after
  | _, world, .redisSetEx key value seconds, reply, after =>
    (reply = .ok () ∧ after = world.setKey key (some ⟨value, some (world.now + DateTime.seconds seconds)⟩)) ∨
      Fails failures.redis reply world after
  | _, world, .redisExpire key seconds, reply, after =>
    (reply = .ok () ∧ after = world.expire key seconds) ∨ Fails failures.redis reply world after
  | _, world, .redisIncr key, reply, after => Counts world key reply after ∨ Fails failures.redis reply world after

def serves (service : AuthService) (failures : Failures) : Serves AuthCall AuthWorld :=
  fun before op reply after => ∃ now, before.now ≤ now ∧ step service failures { before with now } op reply after

end AuthWorld

namespace AuthService

inductive Method where
  | registerUser (username email password : String) (roles : List UserRole)
  | login (username password : String)
  | refreshToken (token : String)
  | changePassword (username currentPassword newPassword : String)
  | validateToken (token : String) (expectedType : TokenType)
  | blacklistToken (token : String)
  | checkRateLimit (key : String)

inductive Reply where
  | user (result : Except AuthError User)
  | response (result : Except AuthError LoginResponse)
  | claims (result : Except AuthError Claims)
  | done (result : Except AuthError Unit)

def call (service : AuthService) : Method → Program AuthCall Reply
  | .registerUser username email password roles => do return .user (← service.registerUser username email password roles)
  | .login username password => do return .response (← service.login username password)
  | .refreshToken token => do return .response (← service.refreshToken token)
  | .changePassword username current new => do return .done (← service.changePassword username current new)
  | .validateToken token expectedType => do return .claims (← service.validateToken token expectedType)
  | .blacklistToken token => do return .done (← service.blacklistToken token)
  | .checkRateLimit key => do return .done (← service.checkRateLimit key)

structure Called where
  time : DateTime
  method : Method
  reply : Reply

/-- Methods are called one after another, each at one time that is not before the last. -/
inductive Calls (service : AuthService) (failures : Failures) : AuthWorld → List Called → AuthWorld → Prop where
  | nil {world : AuthWorld} : Calls service failures world [] world
  | cons {before middle after : AuthWorld} {event : Called} {events : List Called} (later : before.now ≤ event.time)
      (runs : Runs (AuthWorld.step service failures) { before with now := event.time } (service.call event.method)
        event.reply middle)
      (rest : Calls service failures middle events after) : Calls service failures before (event :: events) after

end AuthService
end BankingEs
