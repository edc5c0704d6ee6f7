import Mathlib.Tactic.Abel
import BankingEs.Aggregate

/-! The books of one account. What the aggregate keeps in its fields is what an
accountant would compute from the accepted commands alone. -/

namespace BankingEs.Proofs.Ledger
open AccountCommand

def isCreate : AccountCommand → Bool
  | createAccount .. => true
  | _ => false

def isClose : AccountCommand → Bool
  | closeAccount .. => true
  | _ => false

/-- The commands accepted after the last `CreateAccount`. -/
def sinceCreate (accepted : List AccountCommand) : List AccountCommand :=
  (accepted.reverse.takeWhile (fun command => !isCreate command)).reverse

/-- The initial balance of the last accepted `CreateAccount`, zero without one. -/
def opening (accepted : List AccountCommand) : Decimal :=
  match accepted.reverse.find? isCreate with
  | some (createAccount _ _ initialBalance) => initialBalance
  | _ => 0

def deposited : AccountCommand → Decimal
  | depositMoney _ amount => amount
  | _ => 0

def withdrawn : AccountCommand → Decimal
  | withdrawMoney _ amount => amount
  | _ => 0

def balance (accepted : List AccountCommand) : Decimal :=
  opening accepted + ((sinceCreate accepted).map deposited).sum - ((sinceCreate accepted).map withdrawn).sum

/-- The last accepted command that opens or closes the account is a create. -/
def Opened (accepted : List AccountCommand) : Prop :=
  ∃ command, accepted.reverse.find? (fun command => isCreate command || isClose command) = some command ∧
    isCreate command

structure Balanced (aggregate : Aggregate) : Prop where
  solvent : 0 ≤ aggregate.account.balance
  booked : aggregate.account.balance = balance aggregate.accepted
  counted : aggregate.account.version = aggregate.emitted.length
  active : aggregate.account.isActive = true ↔ Opened aggregate.accepted

private theorem balance_create (accepted : List AccountCommand) (accountId : Uuid) (ownerName : String)
    (initialBalance : Decimal) :
    balance (accepted ++ [createAccount accountId ownerName initialBalance]) = initialBalance := by
  simp [balance, opening, sinceCreate, isCreate, List.find?_cons]

private theorem opening_other (accepted : List AccountCommand) (command : AccountCommand)
    (other : isCreate command = false) : opening (accepted ++ [command]) = opening accepted := by
  simp [opening, other]

private theorem sinceCreate_other (accepted : List AccountCommand) (command : AccountCommand)
    (other : isCreate command = false) : sinceCreate (accepted ++ [command]) = sinceCreate accepted ++ [command] := by
  simp [sinceCreate, other]

private theorem balance_other (accepted : List AccountCommand) (command : AccountCommand)
    (other : isCreate command = false) :
    balance (accepted ++ [command]) = balance accepted + deposited command - withdrawn command := by
  simp only [balance, opening_other _ _ other, sinceCreate_other _ _ other, List.map_append, List.map_singleton,
    List.sum_append, List.sum_singleton]
  abel

private theorem opened_append (accepted : List AccountCommand) (command : AccountCommand) :
    Opened (accepted ++ [command]) ↔ isCreate command ∨ isClose command = false ∧ Opened accepted := by
  cases command <;> simp [Opened, isCreate, isClose]

private theorem start_balanced (newV4 : Uuid) : Balanced (Aggregate.start newV4) := by
  constructor
  · exact le_refl _
  · simp [Aggregate.start, Account.default, balance, opening, sinceCreate]
  · rfl
  · simp [Aggregate.start, Account.default, Opened]

/-- One accepted command keeps the books. The guard of `handleCommand` is what
keeps a withdrawal from overdrawing the account. -/
theorem accepted_balanced (aggregate : Aggregate) (command : AccountCommand) (transactionId : Uuid)
    (kept : Balanced aggregate) (accepted : command.Accepted aggregate.account) :
    Balanced ⟨aggregate.account.applyEvent (command.event transactionId), aggregate.accepted ++ [command],
      aggregate.emitted ++ [command.event transactionId]⟩ := by
  have counted : (aggregate.account.applyEvent (command.event transactionId)).version =
      ((aggregate.emitted ++ [command.event transactionId]).length : Nat) := by
    rw [Account.applyEvent_version, kept.counted, List.length_append, List.length_singleton]
    omega
  cases command with
  | createAccount accountId ownerName initialBalance =>
    refine ⟨accepted, (balance_create _ _ _ _).symm, counted, ?_⟩
    simp [opened_append, isCreate, Account.applyEvent, Account.applyEvent?, Account.change, event]
  | depositMoney accountId amount =>
    obtain ⟨active, positive⟩ := accepted
    refine ⟨add_nonneg kept.solvent positive.le, ?_, counted, ?_⟩
    · rw [balance_other _ _ rfl, ← kept.booked]
      simp [Account.applyEvent, Account.applyEvent?, Account.change, event, deposited, withdrawn]
    · simpa [opened_append, isCreate, isClose, Account.applyEvent, Account.applyEvent?, Account.change, event] using kept.active
  | withdrawMoney accountId amount =>
    obtain ⟨active, positive, covered⟩ := accepted
    refine ⟨sub_nonneg.mpr covered, ?_, counted, ?_⟩
    · rw [balance_other _ _ rfl, ← kept.booked]
      simp [Account.applyEvent, Account.applyEvent?, Account.change, event, deposited, withdrawn]
    · simpa [opened_append, isCreate, isClose, Account.applyEvent, Account.applyEvent?, Account.change, event] using kept.active
  | closeAccount accountId reason =>
    refine ⟨kept.solvent, ?_, counted, ?_⟩
    · rw [balance_other _ _ rfl, ← kept.booked]
      simp [Account.applyEvent, Account.applyEvent?, Account.change, event, deposited, withdrawn]
    · simp [opened_append, isCreate, isClose, Account.applyEvent, Account.applyEvent?, Account.change, event]

/-- The ledger invariant: after any sequence of commands the balance is
non-negative and is the opening balance plus the deposits minus the withdrawals
since, the version counts the events, and the flag follows the last create or close. -/
theorem run_balanced (newV4 : Uuid) (commands : List (AccountCommand × Uuid)) :
    Balanced (Aggregate.run newV4 commands) :=
  Aggregate.run_induction newV4 (start_balanced newV4) accepted_balanced commands

end BankingEs.Proofs.Ledger
