import BankingEs.Async.Program
import BankingEs.EventStore.Table

/-! The calls that the application layer awaits, and the account repository over
them. Everything that a call does is left to the world that serves it. -/

namespace BankingEs
open Async

/-- Nanoseconds. -/
abbrev Duration := Nat

def Duration.fromSecs (seconds : Nat) : Duration := seconds * 1000000000

def Duration.fromMillis (millis : Nat) : Duration := millis * 1000000

def Duration.asSecs (duration : Duration) : Nat := duration / 1000000000

structure SaveRequest where
  aggregateId : Uuid
  events : List AccountEvent
  expectedVersion : Int
  deriving DecidableEq

structure AccountProjection (Amount : Type := Decimal) where
  id : Uuid
  ownerName : String
  balance : Amount
  isActive : Bool
  createdAt : DateTime
  updatedAt : DateTime
  deriving DecidableEq

structure TransactionProjection where
  id : Uuid
  accountId : Uuid
  transactionType : String
  amount : Decimal
  timestamp : DateTime
  deriving DecidableEq

/-- `DECIMAL(20,2)` keeps cents and rounds a half away from zero. -/
def Decimal.rounded (value : Decimal) : Decimal :=
  let cents : Int := Rat.floor (|value| * 100 + 1 / 2)
  if value < 0 then -(cents / 100) else cents / 100

def TransactionProjection.stored (transaction : TransactionProjection) : TransactionProjection :=
  { transaction with amount := Decimal.rounded transaction.amount, timestamp := transaction.timestamp.stored }

def Sample.row (id : Uuid) (balance : Decimal) : AccountProjection :=
  { id, ownerName := "", balance, isActive := true, createdAt := 0, updatedAt := 0 }

inductive Call (Value : Type) : Type → Type where
  | newV4 : Call Value Uuid
  | utcNow : Call Value DateTime
  | isDuplicateCommand (commandId : Uuid) : Call Value Bool
  | getEvents (aggregateId : Uuid) (fromVersion : Option Int) :
      Call Value (Except EventStoreError (List (Event Value)))
  | saveEvents (request : SaveRequest) : Call Value (Except EventStoreError Unit)
  | upsertAccountsBatch (accounts : List AccountProjection) : Call Value (Except String Unit)
  | insertTransactionsBatch (transactions : List TransactionProjection) : Call Value (Except String Unit)
  | projectionsGetAccount (accountId : Uuid) : Call Value (Except String (Option AccountProjection))
  | cacheGetAccount (accountId : Uuid) : Call Value (Except String (Option Account))
  | cacheSetAccount (account : Account) (ttl : Option Duration) : Call Value (Except String Unit)

variable {Value : Type}

namespace Account
variable {Amount ε : Type} {codec : Codec Value} {failed : String → ε} {event : Event Value} {stored : List (Event Value)}

/-- The loop of a rehydration over stored events, with an error for data that is no event. There
is no result where `apply_event` panics. -/
def applyStored? [Money Amount] (codec : Codec Value Amount) (failed : String → ε) (account : Account Amount) :
    List (Event Value) → Option (Except ε (Account Amount))
  | [] => some (.ok account)
  | event :: stored =>
    match codec.fromValue event.eventData with
    | .error error => some (.error (failed error))
    | .ok accountEvent => (account.applyEvent? accountEvent).bind fun next => next.applyStored? codec failed stored

def applyStored (codec : Codec Value) (failed : String → ε) (account : Account) (stored : List (Event Value)) :
    Except ε Account :=
  (account.applyStored? codec failed stored).getD (.ok account)

theorem applyStored?_decoded [Money Amount] {codec : Codec Value Amount} {events : List (AccountEvent Amount)}
    (account : Account Amount) (decoded : stored.map (fun row => codec.fromValue row.eventData) = events.map .ok) :
    account.applyStored? codec failed stored = (account.replay? events).map .ok := by
  induction stored generalizing account events with
  | nil =>
    obtain rfl := List.map_eq_nil_iff.mp decoded.symm
    rfl
  | cons row stored ih =>
    cases events with
    | nil => cases decoded
    | cons event events =>
      obtain ⟨first, rest⟩ := List.cons.inj decoded
      simp only at first
      rw [applyStored?, first, replay?_cons]
      dsimp only
      cases account.applyEvent? event with
      | none => rfl
      | some next => exact ih next rest

theorem applyStored_decoded {events : List AccountEvent} (account : Account)
    (decoded : stored.map (fun row => codec.fromValue row.eventData) = events.map .ok) :
    account.applyStored codec failed stored = .ok (account.replay events) := by
  rw [applyStored, applyStored?_decoded account decoded, replay?_decimal]
  rfl

private theorem applyStored_total (account : Account) (codec : Codec Value) (failed : String → ε)
    (stored : List (Event Value)) :
    ∃ result, account.applyStored? codec failed stored = some result := by
  induction stored generalizing account with
  | nil => exact ⟨_, rfl⟩
  | cons row stored ih =>
    rw [applyStored?]
    cases codec.fromValue row.eventData with
    | error error => exact ⟨_, rfl⟩
    | ok event =>
      dsimp only
      rw [applyEvent?_decimal, Option.bind_some]
      exact ih _

theorem applyStored_error {error : String} (account : Account)
    (undecoded : codec.fromValue event.eventData = .error error) :
    account.applyStored codec failed (event :: stored) = .error (failed error) := by
  rw [applyStored, applyStored?, undecoded]
  rfl

theorem applyStored_ok {accountEvent : AccountEvent} (account : Account)
    (decoded : codec.fromValue event.eventData = .ok accountEvent) :
    account.applyStored codec failed (event :: stored) =
      (account.applyEvent accountEvent).applyStored codec failed stored := by
  obtain ⟨result, found⟩ := (account.applyEvent accountEvent).applyStored_total codec failed stored
  rw [applyStored, applyStored, applyStored?, decoded]
  dsimp only
  rw [applyEvent?_decimal, Option.bind_some, found]
  rfl

end Account

namespace AccountRepository

def save (account : Account) (events : List AccountEvent) : Program (Call Value) (Except EventStoreError Unit) :=
  .send (.saveEvents ⟨account.id, events, account.version⟩)

def deserializationError (error : String) : AccountError := .infrastructureError ("Deserialization error: " ++ error)

/-- `Account::default()` with its id set, before any event is applied. -/
def blank {Amount : Type} [Money Amount] (id : Uuid) : Account Amount := { Account.default id with id }

/-- What `get_by_id` makes of the answer of the event store, unless `apply_event` panics. -/
def rehydrate? {Amount : Type} [Money Amount] (codec : Codec Value Amount) (id : Uuid) :
    Except EventStoreError (List (Event Value)) → Option (Except AccountError (Option (Account Amount)))
  | .error error => some (.error (.infrastructureError ("Event store error: " ++ error.display)))
  | .ok [] => some (.ok none)
  | .ok (event :: stored) =>
    ((blank id).applyStored? codec deserializationError (event :: stored)).map fun result => result.map some

def rehydrate (codec : Codec Value) (id : Uuid) (reply : Except EventStoreError (List (Event Value))) :
    Except AccountError (Option Account) :=
  (rehydrate? codec id reply).getD (.ok none)

theorem rehydrate?_decimal (codec : Codec Value) (id : Uuid) (reply : Except EventStoreError (List (Event Value))) :
    rehydrate? codec id reply = some (rehydrate codec id reply) := by
  cases reply with
  | error error => rfl
  | ok stored =>
    cases stored with
    | nil => rfl
    | cons event stored =>
      obtain ⟨result, found⟩ := (blank id).applyStored_total codec deserializationError (event :: stored)
      rw [rehydrate, rehydrate?, found]
      rfl

theorem rehydrate_cons (codec : Codec Value) (id : Uuid) (event : Event Value) (stored : List (Event Value)) :
    rehydrate codec id (.ok (event :: stored)) =
      ((blank id).applyStored codec deserializationError (event :: stored)).map some := by
  obtain ⟨result, found⟩ := (blank id).applyStored_total codec deserializationError (event :: stored)
  rw [rehydrate, rehydrate?, Account.applyStored, found]
  rfl

def getById (codec : Codec Value) (id : Uuid) : Program (Call Value) (Except AccountError (Option Account)) := do
  let stored ← .send (.getEvents id none)
  return rehydrate codec id stored

end AccountRepository

/-- An error of a collaborator as the callers of the application layer see it. -/
def infrastructure {ε α : Type} (display : ε → String) (result : Except ε α) : Except AccountError α :=
  result.mapError fun error => .infrastructureError (display error)

/-- `handle_command` with the random transaction id it draws. -/
def decideCommand (account : Account) (command : AccountCommand) :
    Program (Call Value) (Except AccountError (List AccountEvent)) := do
  let transactionId ← .send .newV4
  return account.handleCommand command transactionId

/-- Read an existing account and decide a command against it: the common head of
every deposit, withdrawal and closing. -/
def readAndDecide (codec : Codec Value) (accountId : Uuid) (command : AccountCommand) :
    Program (Call Value) (Except AccountError (Account × List AccountEvent)) :=
  (AccountRepository.getById codec accountId).andThen fun found =>
    match found with
    | none => .pure (.error .notFound)
    | some account => (decideCommand account command).andThen fun events => .pure (.ok (account, events))

def saveAccount (account : Account) (events : List AccountEvent) :
    Program (Call Value) (Except AccountError Unit) := do
  let result ← AccountRepository.save account events
  return infrastructure EventStoreError.display result

end BankingEs
