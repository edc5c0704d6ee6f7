import BankingEs.Cache.Service
import BankingEs.EventStore.Snapshot
import BankingEs.Kafka.DeadLetterQueue
import BankingEs.Serde

/-! The documents of the types that leave the process: events in the table, accounts in Redis, and
the messages on the topics. -/

namespace BankingEs
open Serde

/-- The texts of ids, amounts and times. An amount is read from a number as well. -/
structure Texts where
  parseUuid : String → Option Uuid
  parsesUuid : ∀ id : Uuid, parseUuid id.display = some id
  displayDecimal : Decimal → String
  parseDecimal : String → Option Decimal
  parsesDecimal : ∀ amount, parseDecimal (displayDecimal amount) = some amount
  decimalOfInteger : Int → Option Decimal
  decimalOfFloat : ℚ → Option Decimal
  displayDateTime : DateTime → String
  parseDateTime : String → Option DateTime
  parsesDateTime : ∀ time, parseDateTime (displayDateTime time) = some time

namespace Texts
variable (texts : Texts)

def uuid : Format Uuid := .text Uuid.display texts.parseUuid texts.parsesUuid

def decimal : Format Decimal :=
  .number texts.displayDecimal texts.parseDecimal texts.decimalOfInteger texts.decimalOfFloat texts.parsesDecimal

def dateTime : Format DateTime := .text texts.displayDateTime texts.parseDateTime texts.parsesDateTime

@[simp] theorem uuid_fits (id : Uuid) : texts.uuid.Fits id := trivial

@[simp] theorem decimal_fits (amount : Decimal) : texts.decimal.Fits amount := trivial

@[simp] theorem dateTime_fits (time : DateTime) : texts.dateTime.Fits time := trivial

end Texts

variable (texts : Texts)

namespace AccountEvent

/-- The name of the variant, which `#[serde(tag = "type")]` writes. -/
def tag : AccountEvent → String
  | accountCreated .. => "AccountCreated"
  | moneyDeposited .. => "MoneyDeposited"
  | moneyWithdrawn .. => "MoneyWithdrawn"
  | accountClosed .. => "AccountClosed"

def createdVariant : Variant AccountEvent where
  Payload := Uuid × String × Decimal × Unit
  record := .required "account_id" texts.uuid (.required "owner_name" .string
    (.required "initial_balance" texts.decimal .empty (by simp)) (by simp)) (by simp)
  make payload := .accountCreated payload.1 payload.2.1 payload.2.2.1
  view
    | .accountCreated accountId ownerName initialBalance => some (accountId, ownerName, initialBalance, ())
    | _ => none
  viewed value payload viewed := by
    cases value <;> cases viewed
    rfl
  views _ := rfl

def amountRecord : Record (Uuid × Decimal × Uuid × Unit) :=
  .required "account_id" texts.uuid (.required "amount" texts.decimal
    (.required "transaction_id" texts.uuid .empty (by simp)) (by simp)) (by simp)

def depositedVariant : Variant AccountEvent where
  Payload := Uuid × Decimal × Uuid × Unit
  record := amountRecord texts
  make payload := .moneyDeposited payload.1 payload.2.1 payload.2.2.1
  view
    | .moneyDeposited accountId amount transactionId => some (accountId, amount, transactionId, ())
    | _ => none
  viewed value payload viewed := by
    cases value <;> cases viewed
    rfl
  views _ := rfl

def withdrawnVariant : Variant AccountEvent where
  Payload := Uuid × Decimal × Uuid × Unit
  record := amountRecord texts
  make payload := .moneyWithdrawn payload.1 payload.2.1 payload.2.2.1
  view
    | .moneyWithdrawn accountId amount transactionId => some (accountId, amount, transactionId, ())
    | _ => none
  viewed value payload viewed := by
    cases value <;> cases viewed
    rfl
  views _ := rfl

def closedVariant : Variant AccountEvent where
  Payload := Uuid × String × Unit
  record := .required "account_id" texts.uuid (.required "reason" .string .empty (by simp)) (by simp)
  make payload := .accountClosed payload.1 payload.2.1
  view
    | .accountClosed accountId reason => some (accountId, reason, ())
    | _ => none
  viewed value payload viewed := by
    cases value <;> cases viewed
    rfl
  views _ := rfl

def variant (name : String) : Option (Variant AccountEvent) :=
  if name = "AccountCreated" then some (createdVariant texts)
  else if name = "MoneyDeposited" then some (depositedVariant texts)
  else if name = "MoneyWithdrawn" then some (withdrawnVariant texts)
  else if name = "AccountClosed" then some (closedVariant texts)
  else none

private theorem variant_cases {name : String} {found : Variant AccountEvent} (known : variant texts name = some found) :
    (name = "AccountCreated" ∧ found = createdVariant texts) ∨ (name = "MoneyDeposited" ∧ found = depositedVariant texts) ∨
      (name = "MoneyWithdrawn" ∧ found = withdrawnVariant texts) ∨ (name = "AccountClosed" ∧ found = closedVariant texts) := by
  unfold variant at known
  split at known
  next same => exact .inl ⟨same, (Option.some.inj known).symm⟩
  next =>
    split at known
    next same => exact .inr (.inl ⟨same, (Option.some.inj known).symm⟩)
    next =>
      split at known
      next same => exact .inr (.inr (.inl ⟨same, (Option.some.inj known).symm⟩))
      next =>
        split at known
        next same => exact .inr (.inr (.inr ⟨same, (Option.some.inj known).symm⟩))
        next => cases known

def tagged : Tagged AccountEvent where
  tagName := "type"
  tag := tag
  variant := variant texts
  complete event := by
    cases event with
    | accountCreated => exact ⟨createdVariant texts, by simp [variant, tag], rfl⟩
    | moneyDeposited => exact ⟨depositedVariant texts, by simp [variant, tag], rfl⟩
    | moneyWithdrawn => exact ⟨withdrawnVariant texts, by simp [variant, tag], rfl⟩
    | accountClosed => exact ⟨closedVariant texts, by simp [variant, tag], rfl⟩
  tagged name found known payload := by
    rcases variant_cases texts known with ⟨rfl, rfl⟩ | ⟨rfl, rfl⟩ | ⟨rfl, rfl⟩ | ⟨rfl, rfl⟩ <;> rfl
  untagged name found known := by
    rcases variant_cases texts known with ⟨rfl, rfl⟩ | ⟨rfl, rfl⟩ | ⟨rfl, rfl⟩ | ⟨rfl, rfl⟩ <;>
      simp [createdVariant, depositedVariant, withdrawnVariant, closedVariant, amountRecord]

def format : Format AccountEvent := (tagged texts).format

@[simp] theorem format_fits (event : AccountEvent) : (format texts).Fits event := by
  apply Tagged.fits_of
  intro name found known payload
  rcases variant_cases texts known with ⟨rfl, rfl⟩ | ⟨rfl, rfl⟩ | ⟨rfl, rfl⟩ | ⟨rfl, rfl⟩
  · exact ⟨trivial, trivial, trivial, trivial⟩
  · exact ⟨trivial, trivial, trivial, trivial⟩
  · exact ⟨trivial, trivial, trivial, trivial⟩
  · exact ⟨trivial, trivial, trivial⟩

end AccountEvent

def Account.record : Record Account :=
  Record.via (.required "id" texts.uuid (.required "owner_name" .string (.required "balance" texts.decimal
      (.required "is_active" .bool (.required "version" .i64 .empty (by simp)) (by simp)) (by simp)) (by simp)) (by simp))
    { toFun account := (account.id, account.ownerName, account.balance, account.isActive, account.version, ())
      invFun fields := ⟨fields.1, fields.2.1, fields.2.2.1, fields.2.2.2.1, fields.2.2.2.2.1⟩ }

/-- A batch as it is sent, with the time at which it was. -/
structure StampedBatch where
  batch : EventBatch
  timestamp : DateTime

def StampedBatch.record : Record StampedBatch :=
  Record.via (.required "account_id" texts.uuid (.required "events" (.list (AccountEvent.format texts))
      (.required "version" .i64 (.required "timestamp" texts.dateTime .empty (by simp)) (by simp)) (by simp)) (by simp))
    { toFun stamped := (stamped.batch.accountId, stamped.batch.events, stamped.batch.version, stamped.timestamp, ())
      invFun fields := ⟨⟨fields.1, fields.2.1, fields.2.2.1⟩, fields.2.2.2.1⟩ }

/-- A dead letter that was never retried may lack `last_retry`. -/
def DeadLetterMessage.record : Record DeadLetterMessage :=
  Record.via (.required "account_id" texts.uuid (.required "events" (.list (AccountEvent.format texts))
      (.required "version" .i64 (.required "original_timestamp" texts.dateTime (.required "failure_reason" .string
        (.required "retry_count" .u32 (.field "last_retry" (.option texts.dateTime (fun _ same => by cases same)) (some none) .empty
          (by simp) (by simp [Format.option])) (by simp)) (by simp)) (by simp)) (by simp)) (by simp)) (by simp))
    { toFun message := (message.accountId, message.events, message.version, message.originalTimestamp,
        message.failureReason, message.retryCount, message.lastRetry, ())
      invFun fields := ⟨fields.1, fields.2.1, fields.2.2.1, fields.2.2.2.1, fields.2.2.2.2.1, fields.2.2.2.2.2.1,
        fields.2.2.2.2.2.2.1⟩ }

inductive CacheInvalidationType where
  | accountUpdate
  | transactionUpdate
  | fullInvalidation
  | partialInvalidation
  deriving DecidableEq

namespace CacheInvalidationType

def display : CacheInvalidationType → String
  | accountUpdate => "AccountUpdate"
  | transactionUpdate => "TransactionUpdate"
  | fullInvalidation => "FullInvalidation"
  | partialInvalidation => "PartialInvalidation"

def parse (text : String) : Option CacheInvalidationType :=
  [accountUpdate, transactionUpdate, fullInvalidation, partialInvalidation].find? fun kind => kind.display = text

def format : Format CacheInvalidationType := .name display parse fun kind => by cases kind <;> decide

end CacheInvalidationType

structure CacheInvalidationMessage where
  accountId : Uuid
  invalidationType : CacheInvalidationType
  timestamp : DateTime
  reason : String

def CacheInvalidationMessage.record : Record CacheInvalidationMessage :=
  Record.via (.required "account_id" texts.uuid (.required "invalidation_type" CacheInvalidationType.format
      (.required "timestamp" texts.dateTime (.required "reason" .string .empty (by simp)) (by simp)) (by simp)) (by simp))
    { toFun message := (message.accountId, message.invalidationType, message.timestamp, message.reason, ())
      invFun fields := ⟨fields.1, fields.2.1, fields.2.2.1, fields.2.2.2.1⟩ }

inductive MessageKind where
  | events
  | cacheUpdates
  | cacheInvalidations
  | deadLetters
  deriving DecidableEq

namespace MessageKind

def Message : MessageKind → Type
  | events => StampedBatch
  | cacheUpdates => Account
  | cacheInvalidations => CacheInvalidationMessage
  | deadLetters => DeadLetterMessage

def record : (kind : MessageKind) → Record kind.Message
  | events => StampedBatch.record texts
  | cacheUpdates => Account.record texts
  | cacheInvalidations => CacheInvalidationMessage.record texts
  | deadLetters => DeadLetterMessage.record texts

def encode (kind : MessageKind) (message : kind.Message) : Document := (kind.record texts).format.encode message

/-- What the poll function of the kind makes of a payload, `serde_json::from_slice`. -/
def decode (kind : MessageKind) (payload : Document) : Option kind.Message := (kind.record texts).format.decode payload

end MessageKind

def Codec.json : Codec Document where
  toValue event := .ok ((AccountEvent.format texts).encode event)
  fromValue document := match (AccountEvent.format texts).decode document with
    | some event => .ok event
    | none => .error "invalid event"
  decodes event value written := by
    cases written
    simp only [(AccountEvent.format texts).decodes event (AccountEvent.format_fits texts event)]

/-- `to_value` and `from_value` on accounts. A version is an `i64`. -/
def AccountCodec.json : AccountCodec Document where
  toValue account := if -2 ^ 63 ≤ account.version ∧ account.version < 2 ^ 63 then
    .ok ((Account.record texts).format.encode account) else .error "invalid version"
  fromValue document := match (Account.record texts).format.decode document with
    | some account => .ok account
    | none => .error "invalid account"
  decodes account value written := by
    split at written
    next bounds =>
      cases written
      have fits : (Account.record texts).Fits account := by
        simpa [Account.record, Format.i64, Format.integer] using bounds
      simp only [(Account.record texts).format.decodes account fits]
    next => cases written

end BankingEs
