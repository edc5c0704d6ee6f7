import BankingEs.Async.Interference
import BankingEs.Auth.World

/-! Where sessions come from. Any methods of `AuthService` are called at the same time. Whoever gets
tokens was registered by one of them, with the roles that the tokens carry, and has logged in with a
password that goes back to the one of the registration. -/

namespace BankingEs.Proofs.Sessions
open Async AuthService AuthWorld

variable {ι : Type} {methods : ι → Method} {service : AuthService} {failures : Failures}
  {before after world : AuthWorld} {username : String}

section Origins

/-- Some call registers the user with these roles. -/
def Registered (methods : ι → Method) (username : String) (roles : List UserRole) : Prop :=
  ∃ thread email password, methods thread = .registerUser username email password roles

/-- The hashes that the password of a user can have: the one of the registration, and the ones that
a call has set which knew a password for such a hash. -/
inductive Lineage (methods : ι → Method) (service : AuthService) (username : String) : String → Prop where
  | registered {thread : ι} {email password salt hash : String} {roles : List UserRole}
      (method : methods thread = .registerUser username email password roles)
      (hashed : service.libraries.hashPassword password salt = .ok hash) : Lineage methods service username hash
  | changed {thread : ι} {current new salt old hash : String}
      (method : methods thread = .changePassword username current new) (known : Lineage methods service username old)
      (verified : service.libraries.verifies current old) (hashed : service.libraries.hashPassword new salt = .ok hash) :
      Lineage methods service username hash

def Genuine (methods : ι → Method) (service : AuthService) (user : User) : Prop :=
  (∃ roles, Registered methods user.username roles ∧ user.roles = roles.map UserRole.display) ∧
    Lineage methods service user.username user.passwordHash

def Authentic (methods : ι → Method) (service : AuthService) (world : AuthWorld) : Prop :=
  ∀ user ∈ world.users.rows, Genuine methods service user

/-- The row of an id has a name and roles, for good. -/
def Enrolled (id : Uuid) (username : String) (roles : List String) (world : AuthWorld) : Prop :=
  ∃ user ∈ world.users.rows, user.id = id ∧ user.username = username ∧ user.roles = roles

/-- What every call does to the table: it keeps the names, the roles and the origins of its rows. -/
structure Advances (methods : ι → Method) (service : AuthService) (before after : AuthWorld) : Prop where
  enrolled : ∀ id username roles, Enrolled id username roles before → Enrolled id username roles after
  authentic : Authentic methods service before → Authentic methods service after

private theorem Advances.of_users (same : after.users = before.users) : Advances methods service before after := by
  constructor
  · intro id username roles enrolled
    rwa [Enrolled, same]
  · intro authentic
    rwa [Authentic, same]

private theorem parse_display (roles : List UserRole) : (roles.map UserRole.display).map UserRole.parse = roles := by
  rw [List.map_map]
  conv_rhs => rw [← List.map_id roles]
  apply List.map_congr_left
  intro role _
  cases role <;> simp [UserRole.display, UserRole.parse]

end Origins

section Calls

def KeepsRoles (change : UserTable.Change) : Prop := ∀ user, (change.apply user).roles = user.roles

private theorem update_enrolled {id other : Uuid} {change : UserTable.Change} {roles : List String}
    (keeps : KeepsRoles change)
    (enrolled : Enrolled other username roles world) :
    Enrolled other username roles { world with users := world.users.update id change } := by
  obtain ⟨user, member, rfl, rfl, rfl⟩ := enrolled
  refine ⟨change.at id user, List.mem_map_of_mem member, change.at_id id user, change.at_username id user, ?_⟩
  unfold UserTable.Change.at
  split
  next => exact keeps user
  next => rfl

/-- An update of one row that leaves it with its origin. -/
theorem update_advances {id : Uuid} {change : UserTable.Change} (keeps : KeepsRoles change)
    (genuine : ∀ user ∈ world.users.rows, user.id = id → Genuine methods service user →
      Genuine methods service (change.apply user)) :
    Advances methods service world { world with users := world.users.update id change } := by
  refine ⟨fun _ _ _ enrolled => update_enrolled keeps enrolled, ?_⟩
  intro authentic user member
  obtain ⟨old, stored, rfl⟩ := List.mem_map.mp member
  unfold UserTable.Change.at
  split
  next same => exact genuine old stored same (authentic old stored)
  next => exact authentic old stored

private theorem updates_advances {fails : Prop} {id : Uuid} {change : UserTable.Change}
    {reply : Except UserRepositoryError Unit}
    (updates : Updates fails world id change reply after) (keeps : KeepsRoles change)
    (genuine : ∀ user ∈ world.users.rows, user.id = id → Genuine methods service user →
      Genuine methods service (change.apply user)) : Advances methods service world after := by
  cases updates with
  | done => exact update_advances keeps genuine
  | missing => exact .of_users rfl
  | fails => exact .of_users rfl

def Neutral {β : Type} : AuthCall β → Prop
  | .create _ => False
  | .updatePasswordHash _ _ => False
  | _ => True

private theorem neutral_step {β : Type} {op : AuthCall β} {reply : β}
    (served : step service failures before op reply after)
    (neutral : Neutral op) : Advances methods service before after := by
  cases op with
  | create => exact neutral.elim
  | updatePasswordHash => exact neutral.elim
  | updateLoginInfo => exact updates_advances served (fun _ => rfl) fun _ _ _ genuine => genuine
  | updateLockout => exact updates_advances served (fun _ => rfl) fun _ _ _ genuine => genuine
  | incrementFailedAttempts =>
    cases served with
    | done => exact update_advances (fun _ => rfl) fun _ _ _ genuine => genuine
    | _ => exact .of_users rfl
  | utcNow => exact .of_users (by rw [served.2])
  | newV4 => exact .of_users (by rw [show after = before from served])
  | generateSalt => exact .of_users (by rw [show after = before from served])
  | verifyPassword => exact .of_users (by rw [served.2])
  | findByUsername => exact .of_users (by rw [served.2])
  | getAsyncConnection =>
    rcases served with ⟨_, rfl⟩ | ⟨_, _, rfl⟩ <;> exact .of_users rfl
  | redisGet =>
    rcases served with ⟨_, rfl⟩ | ⟨_, _, rfl⟩ <;> exact .of_users rfl
  | redisSetEx =>
    rcases served with ⟨_, rfl⟩ | ⟨_, _, rfl⟩ <;> exact .of_users rfl
  | redisExpire key seconds =>
    rcases served with ⟨_, rfl⟩ | ⟨_, _, rfl⟩
    · apply Advances.of_users
      unfold expire
      split
      · split <;> rfl
      · rfl
    · exact .of_users rfl
  | redisIncr =>
    rcases served with counts | ⟨_, _, rfl⟩
    · cases counts <;> exact .of_users rfl
    · exact .of_users rfl

private theorem Advances.trans {third : AuthWorld} (one : Advances methods service before world)
    (two : Advances methods service world third) : Advances methods service before third :=
  ⟨fun id username roles enrolled => two.enrolled id username roles (one.enrolled id username roles enrolled),
    fun authentic => two.authentic (one.authentic authentic)⟩

private theorem creates_advances {fails : Prop} {user : NewUser} {reply : Except UserRepositoryError User}
    {roles : List UserRole}
    (creates : Creates fails world user reply after) (registered : Registered methods user.username roles)
    (display : user.roles = roles.map UserRole.display) (lineage : Lineage methods service user.username user.passwordHash) :
    Advances methods service world after := by
  cases creates with
  | done fresh unnamed unmailed =>
    constructor
    · intro id username roles enrolled
      obtain ⟨old, member, same⟩ := enrolled
      exact ⟨old, List.mem_append_left _ member, same⟩
    · intro authentic row member
      rcases List.mem_append.mp member with old | new
      · exact authentic row old
      · rw [List.mem_singleton.mp new]
        exact ⟨⟨roles, registered, display⟩, lineage⟩
  | username => exact .of_users rfl
  | email => exact .of_users rfl
  | fails => exact .of_users rfl

end Calls

section Tokens

/-- The token carries the name and the roles of a user. -/
def Token (service : AuthService) (username : String) (roles : List UserRole) (tokenType : TokenType) (token : String) :
    Prop :=
  ∃ claims, service.libraries.encode (service.secret tokenType) claims = .ok token ∧ claims.sub = username ∧
    claims.roles = roles ∧ claims.tokenType = tokenType

def Issued (service : AuthService) (username : String) (roles : List UserRole) (response : LoginResponse) : Prop :=
  response.roles = roles ∧ Token service username roles .access response.accessToken ∧
    Token service username roles .refresh response.refreshToken

/-- The calls that get tokens for a user: its logins, and the refreshes with its refresh tokens. -/
def Session (methods : ι → Method) (service : AuthService) (username : String) (thread : ι) : Prop :=
  (∃ password, methods thread = .login username password) ∨
    ∃ token claims, methods thread = .refreshToken token ∧
      service.libraries.decode service.config.refreshTokenSecret token = .ok claims ∧ claims.sub = username

end Tokens

section Knowledge
variable {thread : ι}

/-- What a method goes by: the users that it has found by their names, and the passwords that were
right for a hash. -/
structure Known where
  found : String → User → Prop
  verified : String → String → Prop

def learns : {β : Type} → Known → AuthCall β → β → Known
  | _, known, .findByUsername username, reply =>
    { known with found := fun name user => name = username ∧ reply = .ok (some user) }
  | _, known, .verifyPassword password hash, reply =>
    { known with verified := fun given stored => given = password ∧ stored = hash ∧ reply = true }
  | _, known, _, _ => known

def permits (service : AuthService) (method : Method) : {β : Type} → Known → AuthCall β → Prop
  | _, _, .create user => ∃ email password roles salt, method = .registerUser user.username email password roles ∧
      user.roles = roles.map UserRole.display ∧ service.libraries.hashPassword password salt = .ok user.passwordHash
  | _, known, .updatePasswordHash id hash => ∃ username user current new salt,
      method = .changePassword username current new ∧ known.found username user ∧ user.id = id ∧
      known.verified current user.passwordHash ∧ service.libraries.hashPassword new salt = .ok hash
  | _, _, _ => True

structure Truth (methods : ι → Method) (service : AuthService) (known : Known) (world : AuthWorld) : Prop where
  authentic : Authentic methods service world
  found : ∀ username user, known.found username user → user.username = username ∧
    Lineage methods service username user.passwordHash ∧ Enrolled user.id username user.roles world
  verified : ∀ password hash, known.verified password hash → service.libraries.verifies password hash

private theorem Truth.later (known : Known) (before after : AuthWorld)
    (advances : Advances methods service before after)
    (truth : Truth methods service known before) : Truth methods service known after := by
  refine ⟨advances.authentic truth.authentic, ?_, truth.verified⟩
  intro username user found
  obtain ⟨name, lineage, enrolled⟩ := truth.found username user found
  exact ⟨name, lineage, advances.enrolled _ _ _ enrolled⟩

private theorem Truth.registered {known : Known} {user : User} (truth : Truth methods service known world)
    (found : known.found username user) : ∃ row ∈ world.users.rows, row.username = username ∧
      row.roles = user.roles ∧ Registered methods username (row.roles.map UserRole.parse) := by
  obtain ⟨_, _, row, member, _, rfl, roles⟩ := truth.found username user found
  obtain ⟨⟨registered, known, display⟩, _⟩ := truth.authentic row member
  have own : row.roles.map UserRole.parse = registered := by rw [display, parse_display]
  exact ⟨row, member, rfl, roles, own ▸ known⟩

private theorem replaces_advances {fails : Prop} {known : Known} {id : Uuid} {hash : String}
    {reply : Except UserRepositoryError Unit}
    (permitted : permits service (methods thread) known (.updatePasswordHash id hash))
    (truth : Truth methods service known world) (updates : Updates fails world id (setPasswordHash hash) reply after) :
    Advances methods service world after := by
  obtain ⟨username, user, current, new, salt, method, found, rfl, verified, hashed⟩ := permitted
  obtain ⟨_, lineage, owner, stored, own, name, _⟩ := truth.found username user found
  refine updates_advances updates (fun _ => rfl) ?_
  intro row member same genuine
  have mine : row.username = username := by
    rw [UserTable.eq_of_id member stored (same.trans own.symm)]
    exact name
  refine ⟨genuine.1, ?_⟩
  change Lineage methods service row.username hash
  rw [mine]
  exact .changed method lineage (truth.verified _ _ verified) hashed

private theorem step_truth {β : Type} {known : Known} {op : AuthCall β} {reply : β}
    (permitted : permits service (methods thread) known op) (served : step service failures before op reply after)
    (truth : Truth methods service known before) :
    Advances methods service before after ∧ Truth methods service (learns known op reply) after := by
  cases op with
  | create user =>
    obtain ⟨email, password, roles, salt, method, display, hashed⟩ := permitted
    have advances := creates_advances served ⟨thread, email, password, method⟩ display (.registered method hashed)
    exact ⟨advances, truth.later known _ _ advances⟩
  | updatePasswordHash =>
    have advances := replaces_advances permitted truth served
    exact ⟨advances, truth.later known _ _ advances⟩
  | findByUsername username =>
    have advances : Advances methods service before after := neutral_step served trivial
    refine ⟨advances, advances.authentic truth.authentic, ?_, truth.verified⟩
    intro name user learned
    obtain ⟨rfl, rfl⟩ := learned
    rcases served with ⟨same | ⟨_, _, impossible⟩, rfl⟩
    · have found : after.users.find name = some user := (Except.ok.inj same).symm
      have member := UserTable.mem_of_find found
      have own : user.username = name := by simpa using List.find?_some found
      exact ⟨own, own ▸ (truth.authentic user member).2, user, member, rfl, own, rfl⟩
    · cases impossible
  | verifyPassword password hash =>
    have advances : Advances methods service before after := neutral_step served trivial
    refine ⟨advances, advances.authentic truth.authentic, (truth.later known _ _ advances).found, ?_⟩
    intro given stored learned
    obtain ⟨rfl, rfl, rfl⟩ := learned
    exact served.1.symm
  | _ =>
    have advances : Advances methods service before after := neutral_step served trivial
    exact ⟨advances, truth.later known _ _ advances⟩

private theorem serves_truth {β : Type} (known : Known) (op : AuthCall β) (before : AuthWorld) (reply : β)
    (after : AuthWorld)
    (permitted : permits service (methods thread) known op) (served : serves service failures before op reply after)
    (truth : Truth methods service known before) :
    Advances methods service before after ∧ Truth methods service (learns known op reply) after := by
  obtain ⟨now, _, served⟩ := served
  have passes : Advances methods service before { before with now } := .of_users rfl
  obtain ⟨advances, truth⟩ := step_truth permitted served (truth.later known _ _ passes)
  exact ⟨passes.trans advances, truth⟩

end Knowledge

section Methods
variable {method : Method} {known : Known}

def OnSuccess {ε α : Type} (post : α → Prop) (result : Except ε α) : Prop := ∀ value, result = .ok value → post value

private theorem OnSuccess.error {ε α : Type} {post : α → Prop} {error : ε} : OnSuccess post (.error error) :=
  fun _ impossible => by cases impossible

private theorem OnSuccess.ok {ε α : Type} {post : α → Prop} {value : α} (holds : post value) :
    OnSuccess post (.ok value : Except ε α) := by
  intro other same
  cases same
  exact holds

abbrev Steady {α : Type} (service : AuthService) (method : Method) (known : Known) (post : α → Prop) (program : Program AuthCall α) :
    Prop :=
  program.Follows (permits service method) learns (fun now value => now = known ∧ post value) known

private theorem Steady.andThen {ε α β : Type} {middle : Except ε α → Prop} {post : Known → Except ε β → Prop}
    {program : Program AuthCall (Except ε α)} {next : α → Program AuthCall (Except ε β)}
    (steady : Steady service method known middle program) (fails : ∀ error, post known (.error error))
    (rest : ∀ value, middle (.ok value) → (next value).Follows (permits service method) learns post known) :
    (program.andThen next).Follows (permits service method) learns post known := by
  refine Program.Follows.andThen steady ?_ ?_
  · intro now error holds
    rw [holds.1]
    exact fails error
  · intro now value holds
    rw [holds.1]
    exact rest value holds.2

private theorem generateToken_steady (roles : List UserRole) (tokenType : TokenType) :
    Steady service method known (OnSuccess (Token service username roles tokenType))
      (service.generateToken username roles tokenType) := by
  refine ⟨trivial, fun now => ⟨trivial, fun jti => ⟨rfl, ?_⟩⟩⟩
  intro token issued
  cases encoded : service.libraries.encode (service.secret tokenType) _ with
  | error error =>
    rw [encoded] at issued
    cases issued
  | ok text =>
    rw [encoded] at issued
    cases issued
    exact ⟨_, encoded, rfl, rfl, rfl⟩

private theorem tokens_steady (user : User) :
    Steady service method known (OnSuccess (Issued service user.username (user.roles.map UserRole.parse)))
      (service.tokens user) := by
  refine Steady.andThen (generateToken_steady _ .access) (fun _ => ⟨rfl, .error⟩) fun accessToken access => ?_
  refine Steady.andThen (generateToken_steady _ .refresh) (fun _ => ⟨rfl, .error⟩) fun refreshToken refresh => ?_
  exact ⟨rfl, .ok ⟨rfl, access accessToken rfl, refresh refreshToken rfl⟩⟩

private theorem repository_steady {α : Type} {op : AuthCall (Except UserRepositoryError α)}
    (permitted : permits service method known op) (same : ∀ reply, learns known op reply = known) :
    Steady service method known (fun _ => True) (repository op) :=
  ⟨permitted, fun reply => ⟨same reply, trivial⟩⟩

private theorem redis_steady {α : Type} {op : AuthCall (Except RedisError α)}
    (permitted : permits service method known op)
    (same : ∀ reply, learns known op reply = known) : Steady service method known (fun _ => True) (redis op) :=
  ⟨permitted, fun reply => ⟨same reply, trivial⟩⟩

private theorem findUser_follows : (findUser username).Follows (permits service method) learns
    (fun now => OnSuccess fun user => now.found username user) known := by
  refine ⟨trivial, fun reply => ?_⟩
  rcases reply with error | _ | user
  · exact .error
  · exact .error
  · exact .ok ⟨rfl, rfl⟩

private theorem unlock_steady (user : User) : Steady service method known (fun _ => True) (unlock user) := by
  unfold unlock
  cases user.lockedUntil with
  | none => exact ⟨rfl, trivial⟩
  | some lockedUntil =>
    refine ⟨trivial, fun now => ?_⟩
    change Steady service method known (fun _ => True) (if now < lockedUntil then _ else _)
    split
    · exact ⟨rfl, trivial⟩
    · exact repository_steady trivial fun _ => rfl

private theorem refuse_steady (user : User) (post : LoginResponse → Prop) :
    Steady service method known (OnSuccess post) (service.refuse user) := by
  refine Steady.andThen (repository_steady trivial fun _ => rfl) (fun _ => ⟨rfl, .error⟩) fun failedAttempts _ => ?_
  split
  · exact ⟨rfl, .error⟩
  · split
    · refine ⟨trivial, fun now => ?_⟩
      exact Steady.andThen (repository_steady trivial fun _ => rfl) (fun _ => ⟨rfl, .error⟩) fun _ _ => ⟨rfl, .error⟩
    · exact ⟨rfl, .error⟩

/-- The sessions that a method may grant: for a user that it has found, with the roles of the row, by
the password of its hash or by a refresh token. -/
def Grants (service : AuthService) (method : Method) (known : Known) (response : LoginResponse) : Prop :=
  ∃ username user, known.found username user ∧ Issued service user.username (user.roles.map UserRole.parse) response ∧
    ((∃ password, method = .login username password ∧ known.verified password user.passwordHash) ∨
      ∃ token claims, method = .refreshToken token ∧
        service.libraries.decode service.config.refreshTokenSecret token = .ok claims ∧ claims.sub = username)

private theorem login_follows (username password : String) :
    (service.login username password).Follows (permits service method) learns
      (fun now => OnSuccess (Grants service (.login username password) now)) known := by
  refine findUser_follows.andThen (fun _ _ _ => .error) fun known user found => ?_
  have found := found user rfl
  split
  · exact .error
  · refine Steady.andThen (unlock_steady user) (fun _ => .error) fun _ _ => ?_
    split
    · exact .error
    · refine ⟨trivial, fun verified => ?_⟩
      cases verified with
      | true =>
        refine ⟨trivial, fun now => ?_⟩
        refine Steady.andThen (repository_steady trivial fun _ => rfl) (fun _ => .error) fun _ _ => ?_
        refine (tokens_steady user).mono fun known result holds response success => ?_
        rw [holds.1]
        exact ⟨username, user, found, holds.2 response success, .inl ⟨password, rfl, rfl, rfl, rfl⟩⟩
      | false => exact (refuse_steady user fun _ => False).mono fun _ _ holds response success => (holds.2 response success).elim

private theorem validateToken_steady (token : String) (tokenType : TokenType) :
    Steady service method known (OnSuccess fun claims => service.libraries.decode (service.secret tokenType) token = .ok claims)
      (service.validateToken token tokenType) := by
  refine Steady.andThen (redis_steady trivial fun _ => rfl) (fun _ => ⟨rfl, .error⟩) fun _ _ => ⟨trivial, fun reply => ?_⟩
  change Steady service method known _ (if isBlacklisted reply then _ else _)
  split
  · exact ⟨rfl, .error⟩
  · refine ⟨trivial, fun now => ⟨rfl, ?_⟩⟩
    intro claims accepted
    unfold decodeToken at accepted
    split at accepted
    · cases accepted
    next read decoded =>
      split at accepted
      · cases accepted
      · split at accepted
        · cases accepted
        · cases accepted
          exact decoded

private theorem refreshToken_follows (token : String) :
    (service.refreshToken token).Follows (permits service method) learns
      (fun now => OnSuccess (Grants service (.refreshToken token) now)) known := by
  refine Steady.andThen (validateToken_steady token .refresh) (fun _ => .error) fun claims decoded => ?_
  refine findUser_follows.andThen (fun _ _ _ => .error) fun known user found => ?_
  split
  · exact .error
  · refine (tokens_steady user).mono fun known result holds response success => ?_
    rw [holds.1]
    exact ⟨claims.sub, user, found user rfl, holds.2 response success, .inr ⟨token, claims, rfl, decoded claims rfl, rfl⟩⟩

def storing (service : AuthService) (username email password : String) (roles : List UserRole) (salt : String) :
    Program AuthCall (Except AuthError User) :=
  match service.libraries.hashPassword password salt with
  | .error message => .pure (.error (.passwordHashError message))
  | .ok passwordHash => repository (.create { username, email, passwordHash, roles := roles.map UserRole.display })

private theorem registerUser_follows (username email password : String) (roles : List UserRole) :
    (service.registerUser username email password roles).Follows
      (permits service (.registerUser username email password roles)) learns (fun _ _ => True) known := by
  refine ⟨trivial, fun salt => ?_⟩
  change (storing service username email password roles salt).Follows _ _ _ _
  unfold storing
  split
  · trivial
  next passwordHash hashed => exact ⟨⟨email, password, roles, salt, rfl, rfl, hashed⟩, fun _ => trivial⟩

def replacing (service : AuthService) (user : User) (new salt : String) : Program AuthCall (Except AuthError Unit) :=
  match service.libraries.hashPassword new salt with
  | .error message => .pure (.error (.passwordHashError message))
  | .ok hash => repository (.updatePasswordHash user.id hash)

private theorem changePassword_follows (username current new : String) :
    (service.changePassword username current new).Follows (permits service (.changePassword username current new)) learns
      (fun _ _ => True) known := by
  refine findUser_follows.andThen (fun _ _ _ => trivial) fun known user found => ?_
  split
  · trivial
  · refine ⟨trivial, fun verified => ?_⟩
    cases verified with
    | true =>
      refine ⟨trivial, fun salt => ?_⟩
      change (replacing service user new salt).Follows _ _ _ _
      unfold replacing
      split
      · trivial
      next hash hashed =>
        exact ⟨⟨username, user, current, new, salt, rfl, found user rfl, rfl, ⟨rfl, rfl, rfl⟩, hashed⟩, fun _ => trivial⟩
    | false => trivial

private theorem blacklistToken_follows (token : String) :
    (service.blacklistToken token).Follows (permits service method) learns (fun _ _ => True) known := by
  refine Steady.andThen (validateToken_steady token .access) (fun _ => trivial) fun claims _ => ?_
  refine Steady.andThen (redis_steady trivial fun _ => rfl) (fun _ => trivial) fun _ _ => ⟨trivial, fun now => ?_⟩
  change Program.Follows _ _ _ _ (if 0 < claims.exp - DateTime.timestamp now then _ else _)
  split
  · refine Steady.andThen (redis_steady trivial fun _ => rfl) (fun _ => trivial) fun _ _ => ?_
    exact ⟨trivial, fun _ => trivial⟩
  · trivial

private theorem checkRateLimit_follows (key : String) :
    (service.checkRateLimit key).Follows (permits service method) learns (fun _ _ => True) known := by
  refine Steady.andThen (redis_steady trivial fun _ => rfl) (fun _ => trivial) fun _ _ => ?_
  refine Steady.andThen (redis_steady trivial fun _ => rfl) (fun _ => trivial) fun current _ => ?_
  by_cases first : current = 1
  · rw [if_pos first]
    exact Steady.andThen (redis_steady trivial fun _ => rfl) (fun _ => trivial) fun _ _ => trivial
  · rw [if_neg first]
    trivial

def Replies (service : AuthService) (method : Method) (known : Known) (reply : Reply) : Prop :=
  ∀ response, reply = .response (.ok response) → Grants service method known response

private theorem call_follows (method : Method) :
    (service.call method).Follows (permits service method) learns (Replies service method) known := by
  cases method with
  | registerUser username email password roles =>
    exact (registerUser_follows username email password roles).bind fun _ _ _ _ impossible => by cases impossible
  | login username password =>
    exact (login_follows username password).bind fun _ _ granted _ success => granted _ (Reply.response.inj success)
  | refreshToken token =>
    exact (refreshToken_follows token).bind fun _ _ granted _ success => granted _ (Reply.response.inj success)
  | changePassword username current new =>
    exact (changePassword_follows username current new).bind fun _ _ _ _ impossible => by cases impossible
  | validateToken token expectedType =>
    exact (validateToken_steady token expectedType).bind fun _ _ _ _ impossible => by cases impossible
  | blacklistToken token => exact (blacklistToken_follows token).bind fun _ _ _ _ impossible => by cases impossible
  | checkRateLimit key => exact (checkRateLimit_follows key).bind fun _ _ _ _ impossible => by cases impossible

end Methods

section Runs
variable [DecidableEq ι] {start : AuthWorld} {history : List (Served ι AuthCall AuthWorld)}
  {threads : ι → Program AuthCall Reply}

private theorem run_truth (empty : start.users.rows = [])
    (run : Interleaves (fun _ => serves service failures) (fun thread => service.call (methods thread)) start history threads
      world) {thread : ι} {reply : Reply} (replied : threads thread = .pure reply) :
    ∃ known, Truth methods service known world ∧ Replies service (methods thread) known reply := by
  have nothing : Truth methods service ⟨fun _ _ => False, fun _ _ => False⟩ start := by
    refine ⟨?_, fun _ _ impossible => impossible.elim, fun _ _ impossible => impossible.elim⟩
    intro user member
    rw [empty] at member
    cases member
  have compatible (thread other : ι) (before after : AuthWorld) (_ : thread ≠ other)
      (advances : Advances methods service before after) : Advances methods service before after := advances
  have starts (thread : ι) := Guards.of_follows (Truth methods service) (@call_follows service _ (methods thread))
    Truth.later (@serves_truth ι methods service failures thread) nothing
  have returned := (Interleaves.guards compatible starts run).2 thread
  rw [replied] at returned
  exact returned world .refl

private theorem session_granted (empty : start.users.rows = [])
    (run : Interleaves (fun _ => serves service failures) (fun thread => service.call (methods thread)) start history threads
      world) {thread : ι} {response : LoginResponse} (session : Session methods service username thread)
    (replied : threads thread = .pure (.response (.ok response))) :
    ∃ row ∈ world.users.rows, row.username = username ∧ Registered methods username (row.roles.map UserRole.parse) ∧
      Issued service username (row.roles.map UserRole.parse) response := by
  obtain ⟨known, truth, replies⟩ := run_truth empty run replied
  obtain ⟨name, user, found, issued, asked⟩ := replies response rfl
  have same : name = username := by
    rcases asked with ⟨password, method, _⟩ | ⟨token, claims, method, decoded, rfl⟩
    · rcases session with ⟨_, again⟩ | ⟨_, _, again, _⟩
      · exact (Method.login.inj (method.symm.trans again)).1
      · cases method.symm.trans again
    · rcases session with ⟨_, again⟩ | ⟨_, _, again, other, rfl⟩
      · cases method.symm.trans again
      · obtain rfl := Method.refreshToken.inj (method.symm.trans again)
        rw [Except.ok.inj (decoded.symm.trans other)]
  subst same
  obtain ⟨row, member, own, roles, registered⟩ := truth.registered found
  refine ⟨row, member, own, registered, ?_⟩
  rw [roles, ← (truth.found name user found).1]
  exact issued

/-- Any methods run at the same time, on a table that is empty at first. All sessions of a name, by
a login or by a refresh, have the same roles in the response and in both tokens, and these are the
roles of one of the calls that registered the name. -/
theorem sessions_carry_registered_roles (empty : start.users.rows = [])
    (run : Interleaves (fun _ => serves service failures) (fun thread => service.call (methods thread)) start history threads
      world) (username : String) :
    ∃ roles, ∀ thread response, Session methods service username thread →
      threads thread = .pure (.response (.ok response)) →
      Registered methods username roles ∧ Issued service username roles response := by
  by_cases some : ∃ thread response, Session methods service username thread ∧
    threads thread = .pure (.response (.ok response))
  · obtain ⟨first, response, session, replied⟩ := some
    obtain ⟨user, member, name, registered, _⟩ := session_granted empty run session replied
    refine ⟨user.roles.map UserRole.parse, ?_⟩
    intro thread response session replied
    obtain ⟨other, memberToo, nameToo, _, issued⟩ := session_granted empty run session replied
    obtain rfl : user = other := List.inj_on_of_nodup_map world.users.usernames member memberToo (name.trans nameToo.symm)
    exact ⟨registered, issued⟩
  · exact ⟨[], fun thread response session replied => absurd ⟨thread, response, session, replied⟩ some⟩

/-- A login succeeds only with a password for the hash of a registration, or for one that was set by
a call which itself knew a password for an earlier such hash. -/
theorem logins_need_known_password (empty : start.users.rows = [])
    (run : Interleaves (fun _ => serves service failures) (fun thread => service.call (methods thread)) start history threads
      world) {thread : ι} {password : String} {response : LoginResponse}
    (method : methods thread = .login username password) (replied : threads thread = .pure (.response (.ok response))) :
    ∃ hash, Lineage methods service username hash ∧ service.libraries.verifies password hash := by
  obtain ⟨known, truth, replies⟩ := run_truth empty run replied
  obtain ⟨name, user, found, _, asked⟩ := replies response rfl
  rcases asked with ⟨given, again, verified⟩ | ⟨_, _, again, _⟩
  · obtain ⟨rfl, rfl⟩ := Method.login.inj (method.symm.trans again)
    exact ⟨user.passwordHash, (truth.found _ user found).2.1, truth.verified _ _ verified⟩
  · cases method.symm.trans again

end Runs

section Sample

/-- Passwords are kept as they are, and a token is the name it is for. -/
def plain : AuthService where
  libraries := { Sample.libraries with verifies := fun password hash => password = hash }
  config := { jwtSecret := "access", refreshTokenSecret := "refresh" }

def manager : Bool → Method
  | false => .registerUser "ada" "ada@bank" "secret" [.bankManager]
  | true => .login "ada" "secret"

def reliable : Failures := { repository := False, redis := False }

def managed : User :=
  newRow ⟨7⟩ 0 { username := "ada", email := "ada@bank", passwordHash := "secret", roles := ["bank_manager"] }

def registered : AuthWorld := { users := { rows := [managed] } }

def session : LoginResponse :=
  { accessToken := "ada", refreshToken := "ada", tokenType := "Bearer", expiresIn := 3600, userId := ⟨7⟩
    roles := managed.roles.map UserRole.parse }

private theorem manager_registers : Runs (serves plain reliable) {} (plain.call (manager false))
    (.user (.ok managed)) registered := by
  refine .request "salt" ⟨0, le_refl _, rfl⟩ (.request (.ok managed) ⟨0, le_refl _, ?_⟩ .pure)
  exact .done (by simp) (by simp) (by simp)

def loggedIn : AuthWorld := { users := registered.users.update managed.id (setLoginInfo 0 0 none) }

private theorem manager_logs_in :
    Runs (serves plain reliable) registered (plain.call (manager true)) (.response (.ok session)) loggedIn := by
  refine .request (.ok (some managed)) ⟨0, le_refl _, .inl rfl, rfl⟩ ?_
  refine .request true ⟨0, le_refl _, rfl, rfl⟩ ?_
  refine .request 0 ⟨0, le_refl _, rfl, rfl⟩ ?_
  refine .request (.ok ()) ⟨0, le_refl _, .done ⟨managed, List.mem_singleton_self _, rfl⟩⟩ ?_
  refine .request 0 ⟨0, le_refl _, rfl, rfl⟩ (.request ⟨1⟩ ⟨0, le_refl _, rfl⟩ ?_)
  exact .request 0 ⟨0, le_refl _, rfl, rfl⟩ (.request ⟨2⟩ ⟨0, le_refl _, rfl⟩ .pure)

private theorem manager_run : ∃ history threads,
    Interleaves (fun _ => serves plain reliable) (fun thread => plain.call (manager thread)) {} history threads loggedIn ∧
      threads true = .pure (.response (.ok session)) := by
  have began : Interleaves (fun _ => serves plain reliable) (fun thread => plain.call (manager thread)) {} []
      (fun thread => plain.call (manager thread)) {} := .start
  obtain ⟨history, run⟩ := began.alone rfl manager_registers
  obtain ⟨longer, run⟩ := run.alone (show Function.update _ _ _ true = _ from rfl) manager_logs_in
  exact ⟨longer, _, run, Function.update_self ..⟩

theorem manager_session : ∃ history threads,
    Interleaves (fun _ => serves plain reliable) (fun thread => plain.call (manager thread)) {} history threads loggedIn ∧
      threads true = .pure (.response (.ok session)) ∧
      ∃ roles, Registered manager "ada" roles ∧ Issued plain "ada" roles session := by
  obtain ⟨history, threads, run, replied⟩ := manager_run
  obtain ⟨roles, all⟩ := sessions_carry_registered_roles rfl run "ada"
  exact ⟨history, threads, run, replied, roles, all true session (.inl ⟨"secret", rfl⟩) replied⟩

theorem manager_password : ∃ history threads,
    Interleaves (fun _ => serves plain reliable) (fun thread => plain.call (manager thread)) {} history threads loggedIn ∧
      threads true = .pure (.response (.ok session)) ∧
      ∃ hash, Lineage manager plain "ada" hash ∧ plain.libraries.verifies "secret" hash := by
  obtain ⟨history, threads, run, replied⟩ := manager_run
  exact ⟨history, threads, run, replied, logins_need_known_password rfl run rfl replied⟩

end Sample
end BankingEs.Proofs.Sessions
