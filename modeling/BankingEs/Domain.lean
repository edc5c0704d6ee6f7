import Mathlib.Data.Rat.Defs
import Mathlib.Algebra.Order.Ring.Rat
import BankingEs.Hex

/-! The account aggregate: commands are decided against the current state, and
the events they emit are the only thing that changes it. Amounts are a
parameter: by default the rational numbers that decimals denote, with exact arithmetic. -/

namespace BankingEs

structure Uuid where
  bits : BitVec 128
  deriving DecidableEq, Repr

namespace Uuid

/-- The hyphenated lower-case form used in every message. -/
def display (id : Uuid) : String :=
  let digits := Hex.digits 32 id.bits.toNat
  let group (start length : Nat) := String.ofList ((digits.drop start).take length)
  "-".intercalate [group 0 8, group 8 4, group 12 4, group 16 4, group 20 12]

end Uuid

abbrev Decimal := ℚ

/-- The numbers that amounts are computed with: what each denotes, and the arithmetic of a
balance, which has no result where it panics. -/
class Money (Amount : Type) where
  value : Amount → Decimal
  zero : Amount
  add : Amount → Amount → Option Amount
  sub : Amount → Amount → Option Amount

instance : Money Decimal where
  value := id
  zero := 0
  add first second := some (first + second)
  sub first second := some (first - second)

namespace Money

@[simp] theorem value_decimal (amount : Decimal) : Money.value amount = amount := rfl

@[simp] theorem zero_decimal : (Money.zero : Decimal) = 0 := rfl

@[simp] theorem add_decimal (first second : Decimal) : Money.add first second = some (first + second) := rfl

@[simp] theorem sub_decimal (first second : Decimal) : Money.sub first second = some (first - second) := rfl

end Money

inductive AccountCommand (Amount : Type := Decimal) where
  | createAccount (accountId : Uuid) (ownerName : String) (initialBalance : Amount)
  | depositMoney (accountId : Uuid) (amount : Amount)
  | withdrawMoney (accountId : Uuid) (amount : Amount)
  | closeAccount (accountId : Uuid) (reason : String)
  deriving DecidableEq

inductive AccountEvent (Amount : Type := Decimal) where
  | accountCreated (accountId : Uuid) (ownerName : String) (initialBalance : Amount)
  | moneyDeposited (accountId : Uuid) (amount : Amount) (transactionId : Uuid)
  | moneyWithdrawn (accountId : Uuid) (amount : Amount) (transactionId : Uuid)
  | accountClosed (accountId : Uuid) (reason : String)
  deriving DecidableEq

variable {Amount : Type}

namespace AccountEvent

def aggregateId : AccountEvent Amount → Uuid
  | accountCreated accountId .. => accountId
  | moneyDeposited accountId .. => accountId
  | moneyWithdrawn accountId .. => accountId
  | accountClosed accountId .. => accountId

def eventType : AccountEvent Amount → String
  | accountCreated .. => "AccountCreated"
  | moneyDeposited .. => "MoneyDeposited"
  | moneyWithdrawn .. => "MoneyWithdrawn"
  | accountClosed .. => "AccountClosed"

end AccountEvent

inductive AccountError where
  | notFound
  | insufficientFunds (available requested : Decimal)
  | accountClosed
  | invalidAmount (amount : Decimal)
  | eventDeserializationError (message : String)
  | infrastructureError (message : String)
  | versionConflict (expected actual : Int)
  deriving DecidableEq

/-- `version` counts events and is an `i64`: it stays below `2 ^ 63` for any log that can be stored. -/
structure Account (Amount : Type := Decimal) where
  id : Uuid
  ownerName : String
  balance : Amount
  isActive : Bool
  version : Int
  deriving DecidableEq

namespace Account

/-- `Account::default()` draws a random id, given here as `newV4`. -/
def default [Money Amount] (newV4 : Uuid) : Account Amount :=
  { id := newV4, ownerName := "", balance := Money.zero, isActive := false, version := 0 }

def change [Money Amount] (account : Account Amount) : AccountEvent Amount → Option (Account Amount)
  | .accountCreated _ ownerName initialBalance =>
    some { account with ownerName, balance := initialBalance, isActive := true }
  | .moneyDeposited _ amount _ => (Money.add account.balance amount).map fun balance => { account with balance }
  | .moneyWithdrawn _ amount _ => (Money.sub account.balance amount).map fun balance => { account with balance }
  | .accountClosed _ _ => some { account with isActive := false }

/-- `apply_event`, with no account where it panics. -/
def applyEvent? [Money Amount] (account : Account Amount) (event : AccountEvent Amount) : Option (Account Amount) :=
  (account.change event).map fun changed => { changed with version := changed.version + 1 }

/-- The loop of every rehydration: apply the events in the order given. -/
def replay? [Money Amount] (account : Account Amount) (events : List (AccountEvent Amount)) : Option (Account Amount) :=
  events.foldlM applyEvent? account

def applyEvent (account : Account) (event : AccountEvent) : Account := (account.applyEvent? event).getD account

/-- The guard exempts `CreateAccount`, which therefore never looks at the state. Decimals are
compared by the numbers they denote. `transactionId` is the `Uuid::new_v4()` put into a deposit
or a withdrawal. -/
def handleCommand [Money Amount] (account : Account Amount) (command : AccountCommand Amount) (transactionId : Uuid) :
    Except AccountError (List (AccountEvent Amount)) :=
  if !account.isActive && !(command matches .createAccount ..) then .error .accountClosed
  else match command with
    | .createAccount accountId ownerName initialBalance =>
      if Money.value initialBalance < 0 then .error (.invalidAmount (Money.value initialBalance))
      else .ok [.accountCreated accountId ownerName initialBalance]
    | .depositMoney accountId amount =>
      if Money.value amount ≤ 0 then .error (.invalidAmount (Money.value amount))
      else .ok [.moneyDeposited accountId amount transactionId]
    | .withdrawMoney accountId amount =>
      if Money.value amount ≤ 0 then .error (.invalidAmount (Money.value amount))
      else if Money.value account.balance < Money.value amount then
        .error (.insufficientFunds (Money.value account.balance) (Money.value amount))
      else .ok [.moneyWithdrawn accountId amount transactionId]
    | .closeAccount accountId reason => .ok [.accountClosed accountId reason]

def replay (account : Account) (events : List AccountEvent) : Account :=
  events.foldl applyEvent account

@[simp] theorem replay?_nil [Money Amount] (account : Account Amount) : account.replay? [] = some account := rfl

@[simp] theorem replay?_cons [Money Amount] (account : Account Amount) (event : AccountEvent Amount)
    (events : List (AccountEvent Amount)) :
    account.replay? (event :: events) = (account.applyEvent? event).bind fun next => next.replay? events := rfl

@[simp] theorem replay?_append [Money Amount] (account : Account Amount) (first last : List (AccountEvent Amount)) :
    account.replay? (first ++ last) = (account.replay? first).bind fun next => next.replay? last := List.foldlM_append

private theorem applyEvent?_shape [Money Amount] {account after : Account Amount} {event : AccountEvent Amount}
    (applied : account.applyEvent? event = some after) : after.id = account.id ∧ after.version = account.version + 1 := by
  obtain ⟨changed, changes, rfl⟩ := Option.map_eq_some_iff.mp applied
  cases event with
  | accountCreated accountId ownerName initialBalance =>
    cases changes
    exact ⟨rfl, rfl⟩
  | moneyDeposited accountId amount transactionId =>
    obtain ⟨balance, _, rfl⟩ := Option.map_eq_some_iff.mp changes
    exact ⟨rfl, rfl⟩
  | moneyWithdrawn accountId amount transactionId =>
    obtain ⟨balance, _, rfl⟩ := Option.map_eq_some_iff.mp changes
    exact ⟨rfl, rfl⟩
  | accountClosed accountId reason =>
    cases changes
    exact ⟨rfl, rfl⟩

theorem replay?_shape [Money Amount] {account after : Account Amount} {events : List (AccountEvent Amount)}
    (replayed : account.replay? events = some after) :
    after.id = account.id ∧ after.version = account.version + events.length := by
  induction events generalizing account with
  | nil =>
    cases replayed
    exact ⟨rfl, by simp⟩
  | cons event events ih =>
    obtain ⟨next, applied, rest⟩ := Option.bind_eq_some_iff.mp replayed
    obtain ⟨own, version⟩ := applyEvent?_shape applied
    obtain ⟨same, counted⟩ := ih rest
    refine ⟨same.trans own, ?_⟩
    rw [counted, version, List.length_cons]
    omega

theorem applyEvent?_decimal (account : Account) (event : AccountEvent) :
    account.applyEvent? event = some (account.applyEvent event) := by
  cases event <;> rfl

@[simp] theorem replay_nil (account : Account) : account.replay [] = account := rfl

@[simp] theorem replay_cons (account : Account) (event : AccountEvent) (events : List AccountEvent) :
    account.replay (event :: events) = (account.applyEvent event).replay events := rfl

@[simp] theorem replay_append (account : Account) (first last : List AccountEvent) :
    account.replay (first ++ last) = (account.replay first).replay last := List.foldl_append

theorem replay?_decimal (account : Account) (events : List AccountEvent) :
    account.replay? events = some (account.replay events) := by
  induction events generalizing account with
  | nil => rfl
  | cons event events ih =>
    rw [replay?_cons, applyEvent?_decimal, Option.bind_some]
    exact ih _

@[simp] theorem applyEvent_version (account : Account) (event : AccountEvent) :
    (account.applyEvent event).version = account.version + 1 := (applyEvent?_shape (applyEvent?_decimal account event)).2

@[simp] theorem applyEvent_id (account : Account) (event : AccountEvent) :
    (account.applyEvent event).id = account.id := (applyEvent?_shape (applyEvent?_decimal account event)).1

@[simp] theorem replay_version (account : Account) (events : List AccountEvent) :
    (account.replay events).version = account.version + events.length :=
  (replay?_shape (replay?_decimal account events)).2

@[simp] theorem replay_id (account : Account) (events : List AccountEvent) :
    (account.replay events).id = account.id := (replay?_shape (replay?_decimal account events)).1

end Account

namespace AccountCommand

def accountId : AccountCommand Amount → Uuid
  | createAccount accountId .. => accountId
  | depositMoney accountId _ => accountId
  | withdrawMoney accountId _ => accountId
  | closeAccount accountId _ => accountId

def event (command : AccountCommand Amount) (transactionId : Uuid) : AccountEvent Amount :=
  match command with
  | createAccount accountId ownerName initialBalance => .accountCreated accountId ownerName initialBalance
  | depositMoney accountId amount => .moneyDeposited accountId amount transactionId
  | withdrawMoney accountId amount => .moneyWithdrawn accountId amount transactionId
  | closeAccount accountId reason => .accountClosed accountId reason

def Accepted [Money Amount] (command : AccountCommand Amount) (account : Account Amount) : Prop :=
  match command with
  | createAccount _ _ initialBalance => 0 ≤ Money.value initialBalance
  | depositMoney _ amount => account.isActive ∧ 0 < Money.value amount
  | withdrawMoney _ amount =>
    account.isActive ∧ 0 < Money.value amount ∧ Money.value amount ≤ Money.value account.balance
  | closeAccount _ _ => account.isActive

@[simp] theorem event_aggregateId (command : AccountCommand Amount) (transactionId : Uuid) :
    (command.event transactionId).aggregateId = command.accountId := by
  cases command <;> rfl

end AccountCommand

/-- A command is accepted exactly under its condition, and then emits its one event. -/
theorem Account.handleCommand_ok_iff [Money Amount] (account : Account Amount) (command : AccountCommand Amount)
    (transactionId : Uuid) (events : List (AccountEvent Amount)) :
    account.handleCommand command transactionId = .ok events ↔
      command.Accepted account ∧ events = [command.event transactionId] := by
  cases command with
  | createAccount accountId ownerName initialBalance =>
    rcases lt_or_ge (Money.value initialBalance) 0 with negative | negative
    · simp [handleCommand, AccountCommand.Accepted, negative]
    · simp [handleCommand, AccountCommand.Accepted, AccountCommand.event, not_lt.mpr negative, negative, eq_comm]
  | depositMoney accountId amount =>
    cases active : account.isActive with
    | false => simp [handleCommand, AccountCommand.Accepted, active]
    | true =>
      rcases le_or_gt (Money.value amount) 0 with sign | sign
      · simp [handleCommand, AccountCommand.Accepted, active, sign, not_lt.mpr sign]
      · simp [handleCommand, AccountCommand.Accepted, AccountCommand.event, active, sign, not_le.mpr sign, eq_comm]
  | withdrawMoney accountId amount =>
    cases active : account.isActive with
    | false => simp [handleCommand, AccountCommand.Accepted, active]
    | true =>
      rcases le_or_gt (Money.value amount) 0 with sign | sign
      · simp [handleCommand, AccountCommand.Accepted, active, sign, not_lt.mpr sign]
      · rcases lt_or_ge (Money.value account.balance) (Money.value amount) with short | covered
        · simp [handleCommand, AccountCommand.Accepted, active, not_le.mpr sign, short]
        · simp [handleCommand, AccountCommand.Accepted, AccountCommand.event, active, sign, not_le.mpr sign,
            covered, not_lt.mpr covered, eq_comm]
  | closeAccount accountId reason =>
    cases active : account.isActive <;>
      simp [handleCommand, AccountCommand.Accepted, AccountCommand.event, active, eq_comm]

namespace Sample

def opening : AccountEvent := .accountCreated ⟨1⟩ "" 0

def five : AccountEvent := .moneyDeposited ⟨1⟩ 5 ⟨2⟩

def account (id : Uuid) (balance : Decimal) :
    Account := { id, ownerName := "", balance, isActive := true, version := 0 }

end Sample
end BankingEs
