import Mathlib.Logic.Function.Basic
import BankingEs.Domain

/-! What the handlers are for: a bank that executes one operation at a time. It knows nothing
of events, versions of a log or a store. -/

namespace BankingEs

abbrev Bank := Uuid → Option Account

namespace Bank

inductive Change where
  | depositMoney (amount : Decimal)
  | withdrawMoney (amount : Decimal)
  | closeAccount (reason : String)

inductive Operation where
  | createAccount (ownerName : String) (initialBalance : Decimal)
  | change (accountId : Uuid) (change : Change)
  | getAccountById (accountId : Uuid)
  | getAccountBalance (accountId : Uuid)
  | isAccountActive (accountId : Uuid)

inductive Answer where
  | created (accountId : Uuid)
  | changed (events : List AccountEvent)
  | account (found : Option Account)
  | balance (balance : Decimal)
  | active (isActive : Bool)

namespace Change

def apply (account : Account) : Change → Except AccountError Account
  | depositMoney amount =>
    if account.isActive = false then .error .accountClosed
    else if amount ≤ 0 then .error (.invalidAmount amount)
    else .ok { account with balance := account.balance + amount, version := account.version + 1 }
  | withdrawMoney amount =>
    if account.isActive = false then .error .accountClosed
    else if amount ≤ 0 then .error (.invalidAmount amount)
    else if account.balance < amount then .error (.insufficientFunds account.balance amount)
    else .ok { account with balance := account.balance - amount, version := account.version + 1 }
  | closeAccount _ =>
    if account.isActive = false then .error .accountClosed
    else .ok { account with isActive := false, version := account.version + 1 }

def command (accountId : Uuid) : Change → AccountCommand
  | depositMoney amount => .depositMoney accountId amount
  | withdrawMoney amount => .withdrawMoney accountId amount
  | closeAccount reason => .closeAccount accountId reason

theorem handleCommand_apply (account : Account) (accountId transactionId : Uuid) (change : Change) :
    account.handleCommand (change.command accountId) transactionId =
        (change.apply account).map (fun _ => [(change.command accountId).event transactionId]) ∧
      ∀ next, change.apply account = .ok next →
        account.replay [(change.command accountId).event transactionId] = next := by
  cases change with
  | depositMoney amount =>
    by_cases closed : account.isActive = false
    · simp [apply, command, Account.handleCommand, closed, Except.map]
    · have active : account.isActive = true := by simpa using closed
      by_cases sign : amount ≤ 0
      · simp [apply, command, Account.handleCommand, active, sign, Except.map]
      · simp [apply, command, Account.handleCommand, AccountCommand.event, Account.applyEvent, Account.applyEvent?, Account.change, active, sign, Except.map]
  | withdrawMoney amount =>
    by_cases closed : account.isActive = false
    · simp [apply, command, Account.handleCommand, closed, Except.map]
    · have active : account.isActive = true := by simpa using closed
      by_cases sign : amount ≤ 0
      · simp [apply, command, Account.handleCommand, active, sign, Except.map]
      · by_cases short : account.balance < amount
        · simp [apply, command, Account.handleCommand, active, sign, short, Except.map]
        · simp [apply, command, Account.handleCommand, AccountCommand.event, Account.applyEvent, Account.applyEvent?, Account.change, active, sign, short,
            Except.map]
  | closeAccount reason =>
    by_cases closed : account.isActive = false
    · simp [apply, command, Account.handleCommand, closed, Except.map]
    · have active : account.isActive = true := by simpa using closed
      simp [apply, command, Account.handleCommand, AccountCommand.event, Account.applyEvent, Account.applyEvent?, Account.change, active, Except.map]

end Change

/-- One operation, executed at once. Account and transaction ids are drawn. -/
inductive Executes (before : Bank) : Operation → Except AccountError Answer → Bank → Prop where
  | created {accountId : Uuid} {ownerName : String} {initialBalance : Decimal} (fresh : before accountId = none)
      (valid : 0 ≤ initialBalance) :
      Executes before (.createAccount ownerName initialBalance) (.ok (.created accountId))
        (Function.update before accountId
          (some { id := accountId, ownerName, balance := initialBalance, isActive := true, version := 1 }))
  | negative {ownerName : String} {initialBalance : Decimal} (invalid : initialBalance < 0) :
      Executes before (.createAccount ownerName initialBalance) (.error (.invalidAmount initialBalance)) before
  | changed {accountId transactionId : Uuid} {account next : Account} {change : Change}
      (found : before accountId = some account) (applied : change.apply account = .ok next) :
      Executes before (.change accountId change) (.ok (.changed [(change.command accountId).event transactionId]))
        (Function.update before accountId (some next))
  | refused {accountId : Uuid} {account : Account} {change : Change} {error : AccountError}
      (found : before accountId = some account) (refused : change.apply account = .error error) :
      Executes before (.change accountId change) (.error error) before
  | absent {accountId : Uuid} {change : Change} (absent : before accountId = none) :
      Executes before (.change accountId change) (.error .notFound) before
  | account {accountId : Uuid} : Executes before (.getAccountById accountId) (.ok (.account (before accountId))) before
  | balance {accountId : Uuid} {account : Account} (found : before accountId = some account) :
      Executes before (.getAccountBalance accountId) (.ok (.balance account.balance)) before
  | noBalance {accountId : Uuid} (absent : before accountId = none) :
      Executes before (.getAccountBalance accountId) (.error .notFound) before
  | active {accountId : Uuid} {account : Account} (found : before accountId = some account) :
      Executes before (.isAccountActive accountId) (.ok (.active account.isActive)) before
  | noActive {accountId : Uuid} (absent : before accountId = none) :
      Executes before (.isAccountActive accountId) (.error .notFound) before

/-- An operation of a bank that can fail: it is executed and reported, or an infrastructure
error is reported. With `lossy` reports the operation may have been executed all the same. -/
inductive Attempts (lossy : Prop) (operation : Operation) (before : Bank) : Except AccountError Answer → Bank → Prop where
  | executes {answer : Except AccountError Answer} {after : Bank} (executes : Executes before operation answer after) :
      Attempts lossy operation before answer after
  | fails (message : String) : Attempts lossy operation before (.error (.infrastructureError message)) before
  | unreported {answer : Except AccountError Answer} {after : Bank} (lost : lossy)
      (executes : Executes before operation answer after) (message : String) :
      Attempts lossy operation before (.error (.infrastructureError message)) after

end Bank
end BankingEs
