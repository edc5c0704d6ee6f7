import BankingEs.Domain
import BankingEs.FixedDecimal

/-! The account aggregate over the decimals that the code computes with: a mantissa of 96 bits and
up to 28 digits after the point. -/

namespace BankingEs

abbrev MachineDecimal := FixedDecimal (2 ^ 96) 28

namespace MachineDecimal

def zero : MachineDecimal := FixedDecimal.zero (by decide)

def ofNat (number : Nat) (fits : number < 2 ^ 96) : MachineDecimal := ⟨number, 0, fits, by decide⟩

def one : MachineDecimal := ofNat 1 (by decide)

def max : MachineDecimal := ofNat (2 ^ 96 - 1) (by decide)

end MachineDecimal

instance : Money MachineDecimal where
  value := FixedDecimal.value
  zero := MachineDecimal.zero
  add := FixedDecimal.add
  sub := FixedDecimal.sub

abbrev MachineCommand := AccountCommand MachineDecimal

abbrev MachineEvent := AccountEvent MachineDecimal

abbrev MachineAccount := Account MachineDecimal

variable {Amount : Type} [Money Amount]

def AccountEvent.exact : AccountEvent Amount → AccountEvent
  | accountCreated accountId ownerName initialBalance => .accountCreated accountId ownerName (Money.value initialBalance)
  | moneyDeposited accountId amount transactionId => .moneyDeposited accountId (Money.value amount) transactionId
  | moneyWithdrawn accountId amount transactionId => .moneyWithdrawn accountId (Money.value amount) transactionId
  | accountClosed accountId reason => .accountClosed accountId reason

namespace Account

def exact (account : Account Amount) : Account :=
  { id := account.id, ownerName := account.ownerName, balance := Money.value account.balance, isActive := account.isActive
    version := account.version }

/-- The accounts that accepted commands lead to. -/
inductive Reachable : Account Amount → Prop where
  | default (newV4 : Uuid) : Reachable (default newV4)
  | command {account after : Account Amount} {event : AccountEvent Amount} (reachable : Reachable account)
      (command : AccountCommand Amount) (transactionId : Uuid)
      (accepted : account.handleCommand command transactionId = .ok [event])
      (applied : account.applyEvent? event = some after) : Reachable after

end Account
end BankingEs
