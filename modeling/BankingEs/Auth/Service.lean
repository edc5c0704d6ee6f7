import BankingEs.Async.Sequential
import BankingEs.EventStore.Table
import BankingEs.Redis.CircuitBreaker

/-! `AuthService`: logins with a lock against guessing, tokens and their blacklist, and the
rate limit. Every call to the user table, to Redis, to the clock and to the password hash is
a request. -/

namespace BankingEs
open Async

def DateTime.timestamp (time : DateTime) : Int := time / 1000000000

def DateTime.seconds (count : Int) : Int := count * 1000000000

def DateTime.minutes (count : Int) : Int := count * 60000000000

structure User where
  id : Uuid
  username : String
  email : Option String
  passwordHash : String
  roles : List String
  isActive : Bool
  registeredAt : DateTime
  lastLoginAt : Option DateTime
  failedLoginAttempts : Int
  lockedUntil : Option DateTime
  deriving DecidableEq

structure NewUser where
  username : String
  email : String
  passwordHash : String
  roles : List String

inductive UserRepositoryError where
  | notFoundById (id : Uuid)
  | usernameExists (username : String)
  | emailExists (email : String)
  | databaseError (message : String)

inductive AuthError where
  | invalidCredentials
  | invalidToken
  | tokenBlacklisted
  | rateLimitExceeded
  | userNotFound
  | passwordHashError (message : String)
  | redisError (error : RedisError)
  | jwtError (message : String)
  | internalError (message : String)
  | usernameAlreadyExists (username : String)
  | emailAlreadyExists (email : String)
  | userRepositoryError (message : String)
  | accountLocked
  deriving DecidableEq

def AuthError.ofRepository : UserRepositoryError → AuthError
  | .notFoundById _ => .userNotFound
  | .usernameExists username => .usernameAlreadyExists username
  | .emailExists email => .emailAlreadyExists email
  | .databaseError message => .userRepositoryError message

inductive TokenType where
  | access
  | refresh
  deriving DecidableEq

inductive UserRole where
  | admin
  | bankManager
  | customer
  deriving DecidableEq

namespace UserRole

def display : UserRole → String
  | .admin => "admin"
  | .bankManager => "bank_manager"
  | .customer => "customer"

/-- `UserRole::from_str(s).unwrap_or(UserRole::Customer)`. -/
def parse (text : String) : UserRole :=
  if text = "admin" then .admin else if text = "bank_manager" then .bankManager else .customer

end UserRole

structure Claims where
  sub : String
  exp : Int
  iat : Int
  roles : List UserRole
  tokenType : TokenType
  jti : Uuid
  company : String
  deriving DecidableEq

structure AuthConfig where
  jwtSecret : String
  refreshTokenSecret : String
  accessTokenExpiry : Int := 3600
  refreshTokenExpiry : Int := 604800
  rateLimitRequests : Nat := 100
  rateLimitWindow : Nat := 60
  maxFailedAttempts : Nat := 5
  lockoutDurationMinutes : Nat := 30

structure LoginResponse where
  accessToken : String
  refreshToken : String
  tokenType : String
  expiresIn : Int
  userId : Uuid
  roles : List UserRole

/-- The libraries behind the service. `decode` checks the signature and reads the claims; the
payload of a token is in the token, so it does not depend on the secret. -/
structure AuthLibraries where
  parsesHash : String → Except String Unit
  verifies : (password hash : String) → Bool
  hashPassword : (password salt : String) → Except String String
  encode : (secret : String) → Claims → Except String String
  decode : (secret token : String) → Except String Claims
  payload : ∀ secret other token claims read, decode secret token = .ok claims → decode other token = .ok read →
    read = claims

/-- Nothing is read from tokens none of which decodes. -/
theorem payload_of_none (_ _ _ : String) (claims read : Claims)
    (decoded : (Except.error "" : Except String Claims) = .ok claims) (_ : (Except.error "" : Except String Claims) = .ok read) :
    read = claims := by
  cases decoded

def Sample.libraries : AuthLibraries :=
  { parsesHash := fun _ => .ok (), verifies := fun _ _ => false, hashPassword := fun password _ => .ok password
    encode := fun _ claims => .ok claims.sub, decode := fun _ _ => .error "", payload := payload_of_none }

inductive AuthCall : Type → Type where
  | utcNow : AuthCall DateTime
  | newV4 : AuthCall Uuid
  | generateSalt : AuthCall String
  | verifyPassword (password hash : String) : AuthCall Bool
  | findByUsername (username : String) : AuthCall (Except UserRepositoryError (Option User))
  | create (user : NewUser) : AuthCall (Except UserRepositoryError User)
  | updateLoginInfo (userId : Uuid) (lastLoginAt : DateTime) (failedLoginAttempts : Int)
      (lockedUntil : Option DateTime) : AuthCall (Except UserRepositoryError Unit)
  | updatePasswordHash (userId : Uuid) (hash : String) : AuthCall (Except UserRepositoryError Unit)
  | incrementFailedAttempts (userId : Uuid) : AuthCall (Except UserRepositoryError Int)
  | updateLockout (userId : Uuid) (lockedUntil : Option DateTime) (failedAttempts : Int) :
      AuthCall (Except UserRepositoryError Unit)
  | getAsyncConnection : AuthCall (Except RedisError Unit)
  | redisGet (key : String) : AuthCall (Except RedisError (Option String))
  | redisSetEx (key value : String) (seconds : Int) : AuthCall (Except RedisError Unit)
  | redisExpire (key : String) (seconds : Int) : AuthCall (Except RedisError Unit)
  | redisIncr (key : String) : AuthCall (Except RedisError Int)

structure AuthService where
  libraries : AuthLibraries
  config : AuthConfig

namespace AuthService
variable (service : AuthService)

def repository {α : Type} (op : AuthCall (Except UserRepositoryError α)) : Program AuthCall (Except AuthError α) := do
  return (← Program.send op).mapError .ofRepository

def redis {α : Type} (op : AuthCall (Except RedisError α)) : Program AuthCall (Except AuthError α) := do
  return (← Program.send op).mapError .redisError

def findUser (username : String) : Program AuthCall (Except AuthError User) :=
  (repository (.findByUsername username)).andThen fun found =>
    match found with
    | some user => .pure (.ok user)
    | none => .pure (.error .userNotFound)

def registerUser (username email password : String) (roles : List UserRole) :
    Program AuthCall (Except AuthError User) := do
  let salt ← Program.send .generateSalt
  match service.libraries.hashPassword password salt with
  | .error message => return .error (.passwordHashError message)
  | .ok passwordHash => repository (.create { username, email, passwordHash, roles := roles.map UserRole.display })

def secret (tokenType : TokenType) : String :=
  match tokenType with
  | .access => service.config.jwtSecret
  | .refresh => service.config.refreshTokenSecret

def generateToken (username : String) (roles : List UserRole) (tokenType : TokenType) :
    Program AuthCall (Except AuthError String) := do
  let now ← Program.send .utcNow
  let duration := match tokenType with
    | .access => DateTime.seconds service.config.accessTokenExpiry
    | .refresh => DateTime.seconds service.config.refreshTokenExpiry
  let jti ← Program.send .newV4
  let claims : Claims :=
    { sub := username, exp := DateTime.timestamp (now + duration), iat := now.timestamp, roles, tokenType, jti
      company := "ACME" }
  return (service.libraries.encode (service.secret tokenType) claims).mapError .jwtError

def tokens (user : User) : Program AuthCall (Except AuthError LoginResponse) :=
  let roles := user.roles.map UserRole.parse
  (service.generateToken user.username roles .access).andThen fun accessToken =>
    (service.generateToken user.username roles .refresh).andThen fun refreshToken =>
      .pure (.ok
        { accessToken, refreshToken, tokenType := "Bearer", expiresIn := service.config.accessTokenExpiry
          userId := user.id, roles })

def unlock (user : User) : Program AuthCall (Except AuthError Unit) :=
  match user.lockedUntil with
  | none => .pure (.ok ())
  | some lockedUntil => do
    let now ← Program.send .utcNow
    if now < lockedUntil then return .error (.internalError "Account is locked")
    else repository (.updateLockout user.id none 0)

/-- A limit that is no `i32` panics. -/
def refuse (user : User) : Program AuthCall (Except AuthError LoginResponse) :=
  (repository (.incrementFailedAttempts user.id)).andThen fun failedAttempts =>
    if 2147483648 ≤ service.config.maxFailedAttempts then .pure (.error (.internalError "TryFromIntError"))
    else if service.config.maxFailedAttempts ≤ failedAttempts then do
      let now ← Program.send .utcNow
      let lockedUntil := now + DateTime.minutes service.config.lockoutDurationMinutes
      (repository (.updateLockout user.id (some lockedUntil) failedAttempts)).andThen fun _ =>
        .pure (.error .accountLocked)
    else .pure (.error .invalidCredentials)

def succeed (user : User) : Program AuthCall (Except AuthError LoginResponse) := do
  let now ← Program.send .utcNow
  (repository (.updateLoginInfo user.id now 0 none)).andThen fun _ => service.tokens user

def login (username password : String) : Program AuthCall (Except AuthError LoginResponse) :=
  (findUser username).andThen fun user =>
    if !user.isActive then .pure (.error (.internalError "Account is not active"))
    else (unlock user).andThen fun _ =>
      match service.libraries.parsesHash user.passwordHash with
      | .error message => .pure (.error (.passwordHashError message))
      | .ok () => do
        let verified ← Program.send (.verifyPassword password user.passwordHash)
        if verified then service.succeed user else service.refuse user

def blacklistKey (token : String) : String := "blacklist:" ++ token

/-- `get` as a `bool`, and false when that fails. -/
def isBlacklisted (reply : Except RedisError (Option String)) : Bool :=
  match reply with
  | .ok (some value) => value = "1"
  | _ => false

/-- `jsonwebtoken` accepts a token for sixty seconds after it expires. -/
def isExpired (now : DateTime) (claims : Claims) : Bool := claims.exp + 60 < now.timestamp

def decodeToken (now : DateTime) (token : String) (expectedType : TokenType) : Except AuthError Claims :=
  match service.libraries.decode (service.secret expectedType) token with
  | .error message => .error (.jwtError message)
  | .ok claims =>
    if isExpired now claims then .error (.jwtError "ExpiredSignature")
    else if claims.tokenType ≠ expectedType then .error .invalidToken
    else .ok claims

def validateToken (token : String) (expectedType : TokenType) : Program AuthCall (Except AuthError Claims) :=
  (redis .getAsyncConnection).andThen fun _ => do
    let reply ← Program.send (.redisGet (blacklistKey token))
    if isBlacklisted reply then return .error .tokenBlacklisted
    else
      let now ← Program.send .utcNow
      return service.decodeToken now token expectedType

def blacklistToken (token : String) : Program AuthCall (Except AuthError Unit) :=
  (service.validateToken token .access).andThen fun claims =>
    (redis .getAsyncConnection).andThen fun _ => do
      let now ← Program.send .utcNow
      let ttl := claims.exp - now.timestamp
      if 0 < ttl then
        (redis (.redisSetEx (blacklistKey token) "1" ttl)).andThen fun _ => redis (.redisExpire (blacklistKey token) ttl)
      else return .ok ()

def refreshToken (token : String) : Program AuthCall (Except AuthError LoginResponse) :=
  (service.validateToken token .refresh).andThen fun claims =>
    (findUser claims.sub).andThen fun user =>
      if !user.isActive then .pure (.error (.internalError "Account is inactive")) else service.tokens user

def changePassword (username currentPassword newPassword : String) : Program AuthCall (Except AuthError Unit) :=
  (findUser username).andThen fun user =>
    match service.libraries.parsesHash user.passwordHash with
    | .error message => .pure (.error (.passwordHashError message))
    | .ok () => do
      let verified ← Program.send (.verifyPassword currentPassword user.passwordHash)
      if verified then
        let salt ← Program.send .generateSalt
        match service.libraries.hashPassword newPassword salt with
        | .error message => return .error (.passwordHashError message)
        | .ok hash => repository (.updatePasswordHash user.id hash)
      else return .error .invalidCredentials

def rateLimitKey (key : String) : String := "rate_limit:" ++ key

def checkRateLimit (key : String) : Program AuthCall (Except AuthError Unit) :=
  (redis .getAsyncConnection).andThen fun _ =>
    (redis (.redisIncr (rateLimitKey key))).andThen fun current =>
      let limited : Except AuthError Unit :=
        if service.config.rateLimitRequests < current then .error .rateLimitExceeded else .ok ()
      if current = 1 then
        (redis (.redisExpire (rateLimitKey key) service.config.rateLimitWindow)).andThen fun _ => .pure limited
      else .pure limited

end AuthService
end BankingEs
