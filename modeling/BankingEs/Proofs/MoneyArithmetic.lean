import BankingEs.MachineAccount

/-! Balances that are computed with 96-bit decimals, against the exact balances of the account
aggregate. The commands look at signs and funds, not at how many digits the new balance has. -/

namespace BankingEs.Proofs.MoneyArithmetic
open FixedDecimal Account

/-- The new balance fits a decimal, with zeros at its end dropped. -/
def Fits (balance : MachineDecimal) : MachineCommand → Prop
  | .depositMoney _ amount => FixedDecimal.Fits (2 ^ 96) (aligned balance amount) (max balance.scale amount.scale)
  | .withdrawMoney _ amount => FixedDecimal.Fits (2 ^ 96) (aligned balance amount.neg) (max balance.scale amount.scale)
  | .createAccount _ _ _ => True
  | .closeAccount _ _ => True

section Commands
variable {account : MachineAccount} {command : MachineCommand} {transactionId : Uuid}

/-- The balance is all that can be wrong. -/
theorem changed_balance_iff {event : MachineEvent} {result : Option MachineDecimal} {balance : Decimal}
    (changes : account.change event = result.map fun balance => { account with balance })
    (exactly : account.exact.applyEvent event.exact = { account.exact with balance, version := account.version + 1 }) :
    (∃ after, account.applyEvent? event = some after ∧ after.exact = account.exact.applyEvent event.exact) ↔
      ∃ computed, result = some computed ∧ computed.value = balance := by
  rw [exactly, applyEvent?, changes]
  constructor
  · intro ⟨after, applied, same⟩
    obtain ⟨changed, computes, rfl⟩ := Option.map_eq_some_iff.mp applied
    obtain ⟨computed, found, rfl⟩ := Option.map_eq_some_iff.mp computes
    exact ⟨computed, found, congrArg Account.balance same⟩
  · intro ⟨computed, found, same⟩
    subst found same
    exact ⟨_, rfl, rfl⟩

/-- An event is applied without a panic and without rounding exactly if the new balance fits. -/
theorem applyEvent_exact_iff (account : MachineAccount) (command : MachineCommand) (transactionId : Uuid) :
    (∃ after, account.applyEvent? (command.event transactionId) = some after ∧
        after.exact = account.exact.applyEvent (command.event transactionId).exact) ↔
      Fits account.balance command := by
  cases command with
  | createAccount accountId ownerName initialBalance => exact iff_of_true ⟨_, rfl, rfl⟩ trivial
  | closeAccount accountId reason => exact iff_of_true ⟨_, rfl, rfl⟩ trivial
  | depositMoney accountId amount => exact (changed_balance_iff rfl rfl).trans (add_exact_iff account.balance amount)
  | withdrawMoney accountId amount => exact (changed_balance_iff rfl rfl).trans (sub_exact_iff account.balance amount)

/-- Of the accepted commands, those are applied exactly whose new balance fits. -/
theorem money_exact_iff {event : MachineEvent}
    (accepted : account.handleCommand command transactionId = .ok [event]) :
    (∃ after, account.applyEvent? event = some after ∧ after.exact = account.exact.applyEvent event.exact) ↔
      Fits account.balance command := by
  obtain ⟨_, emitted⟩ := (handleCommand_ok_iff _ _ _ _).mp accepted
  obtain rfl := List.singleton_inj.mp emitted
  exact applyEvent_exact_iff account command transactionId

end Commands

section Runs

/-- Each event of a run fits the balance that the run has reached. -/
def FitsAll : MachineAccount → List (MachineCommand × Uuid) → Prop
  | _, [] => True
  | account, (command, transactionId) :: commands =>
    Fits account.balance command ∧
      ∀ after, account.applyEvent? (command.event transactionId) = some after → FitsAll after commands

def eventsOf (commands : List (MachineCommand × Uuid)) : List MachineEvent :=
  commands.map fun (command, transactionId) => command.event transactionId

/-- As long as every new balance fits, an account is replayed to the exact account. -/
theorem replay_exact {account : MachineAccount} {commands : List (MachineCommand × Uuid)}
    (fits : FitsAll account commands) : ∃ after, account.replay? (eventsOf commands) = some after ∧
      after.exact = account.exact.replay ((eventsOf commands).map AccountEvent.exact) := by
  induction commands generalizing account with
  | nil => exact ⟨account, rfl, rfl⟩
  | cons command commands ih =>
    obtain ⟨first, rest⟩ := fits
    obtain ⟨next, applied, same⟩ := (applyEvent_exact_iff account command.1 command.2).mpr first
    obtain ⟨after, replayed, exact⟩ := ih (rest next applied)
    refine ⟨after, ?_, ?_⟩
    · rw [eventsOf, List.map_cons, replay?_cons, applied]
      exact replayed
    · rw [exact, same]
      rfl

/-- An event that cannot be applied is in the way of every later one. -/
theorem replay_stuck {account : MachineAccount} {events : List MachineEvent} (stuck : account.replay? events = none)
    (later : List MachineEvent) : account.replay? (events ++ later) = none := by
  rw [replay?_append, stuck, Option.bind_none]

end Runs

section Sample

private def opened (balance : MachineDecimal) : MachineAccount :=
  { id := ⟨1⟩, ownerName := "", balance, isActive := true, version := 1 }

private theorem opened_reachable {balance : MachineDecimal} (sign : 0 ≤ balance.value) :
    Reachable (opened balance) := by
  have accepted : (default ⟨1⟩).handleCommand (.createAccount ⟨1⟩ "" balance) ⟨0⟩ = .ok [.accountCreated ⟨1⟩ "" balance] :=
    (handleCommand_ok_iff _ _ _ _).mpr ⟨sign, rfl⟩
  exact .command (.default ⟨1⟩) _ _ accepted rfl

private def half : MachineDecimal := ⟨5, 1, by decide, by decide⟩

theorem small_deposit_exact : ∃ after, Reachable (opened .one) ∧
    (opened .one).applyEvent? (.moneyDeposited ⟨1⟩ half ⟨0⟩) = some after ∧ after.exact.balance = 3 / 2 := by
  have accepted : (opened .one).handleCommand (.depositMoney ⟨1⟩ half) ⟨0⟩ = .ok [.moneyDeposited ⟨1⟩ half ⟨0⟩] :=
    (handleCommand_ok_iff _ _ _ _).mpr ⟨⟨rfl, by decide +kernel⟩, rfl⟩
  obtain ⟨after, applied, same⟩ := (money_exact_iff accepted).mpr ⟨1, by decide, 15, by decide, rfl⟩
  refine ⟨after, opened_reachable (by decide +kernel), applied, ?_⟩
  rw [same]
  decide +kernel

/-- With the largest balance, a deposit of 1 panics and a withdrawal of 0.5 leaves a rounded balance. -/
theorem large_balance_inexact : Reachable (opened .max) ∧
    (opened .max).handleCommand (.depositMoney ⟨1⟩ .one) ⟨0⟩ = .ok [.moneyDeposited ⟨1⟩ .one ⟨0⟩] ∧
    (opened .max).applyEvent? (.moneyDeposited ⟨1⟩ .one ⟨0⟩) = none ∧
    (opened .max).handleCommand (.withdrawMoney ⟨1⟩ half) ⟨0⟩ = .ok [.moneyWithdrawn ⟨1⟩ half ⟨0⟩] ∧
    ∃ after, (opened .max).applyEvent? (.moneyWithdrawn ⟨1⟩ half ⟨0⟩) = some after ∧
      after.balance.value ≠ MachineDecimal.max.value - half.value := by
  refine ⟨opened_reachable (by decide +kernel), ?_, ?_, ?_, ?_⟩
  · exact (handleCommand_ok_iff _ _ _ _).mpr ⟨⟨rfl, by decide +kernel⟩, rfl⟩
  · have overflow : MachineDecimal.max.add MachineDecimal.one = none := by decide +kernel
    rw [applyEvent?, change, opened]
    change (Option.map _ (MachineDecimal.max.add MachineDecimal.one)).map _ = none
    rw [overflow]
    rfl
  · exact (handleCommand_ok_iff _ _ _ _).mpr ⟨⟨rfl, by decide +kernel, by decide +kernel⟩, rfl⟩
  · have rounded : MachineDecimal.max.sub half = some ⟨2 ^ 96 - 2, 0, by decide, by decide⟩ := by decide +kernel
    refine ⟨{ opened .max with balance := ⟨2 ^ 96 - 2, 0, by decide, by decide⟩, version := 2 }, ?_, by decide +kernel⟩
    rw [applyEvent?, change, opened]
    change (Option.map _ (MachineDecimal.max.sub half)).map _ = _
    rw [rounded]
    rfl

end Sample
end BankingEs.Proofs.MoneyArithmetic
