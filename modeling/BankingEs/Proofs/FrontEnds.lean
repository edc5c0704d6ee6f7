import BankingEs.Application.Handlers
import BankingEs.Application.Services

/-! The two front ends side by side, up to the save. Both read and decide alike; the
service then saves the account with its events already applied, and the version of
the account is the expected version of the save. -/

namespace BankingEs.Proofs.FrontEnds
open Async AccountRepository

variable {Value : Type}

/-- Answers to everything before the save: the command is not a duplicate, and the
event store reads as given. -/
def answers (read : Uuid → Option Int → Except EventStoreError (List (Event Value))) (newV4 : Uuid) :
    {β : Type} → Call Value β → Option β
  | _, .newV4 => some newV4
  | _, .isDuplicateCommand _ => some false
  | _, .getEvents aggregateId fromVersion => some (read aggregateId fromVersion)
  | _, _ => none

/-- How a call gets as far as its save: it fails before, or it asks for a save. -/
def outcome {α : Type} : Except AccountError α ⊕ (β : Type) × Call Value β → Option (AccountError ⊕ SaveRequest)
  | .inl (.error error) => some (.inl error)
  | .inr ⟨_, .saveEvents request⟩ => some (.inr request)
  | _ => none

def anonymous : AccountEvent → AccountEvent
  | .moneyDeposited accountId amount _ => .moneyDeposited accountId amount ⟨0⟩
  | .moneyWithdrawn accountId amount _ => .moneyWithdrawn accountId amount ⟨0⟩
  | event => event

/-- The same error, or the same save up to the transaction id. -/
inductive Agree : Option (AccountError ⊕ SaveRequest) → Option (AccountError ⊕ SaveRequest) → Prop where
  | fail (error : AccountError) : Agree (some (.inl error)) (some (.inl error))
  | save {first second : SaveRequest} (address : first.aggregateId = second.aggregateId)
      (version : first.expectedVersion = second.expectedVersion)
      (events : first.events.map anonymous = second.events.map anonymous) :
      Agree (some (.inr first)) (some (.inr second))

section Commands
variable {codec : Codec Value} {read : Uuid → Option Int → Except EventStoreError (List (Event Value))}

/-- The account and the events that a command leads to. -/
def decision (codec : Codec Value) (read : Uuid → Option Int → Except EventStoreError (List (Event Value)))
    (newV4 id : Uuid) (command : AccountCommand) : Except AccountError (Account × List AccountEvent) :=
  match rehydrate codec id (read id none) with
  | .error error => .error error
  | .ok none => .error .notFound
  | .ok (some account) => (account.handleCommand command newV4).map fun events => (account, events)

private theorem readAndDecide_answered (codec : Codec Value)
    (read : Uuid → Option Int → Except EventStoreError (List (Event Value))) (newV4 id : Uuid)
    (command : AccountCommand) :
    (readAndDecide codec id command).runUntil (answers read newV4) = .inl (decision codec read newV4 id command) := by
  have reads : (getById codec id).runUntil (answers read newV4) = .inl (rehydrate codec id (read id none)) := rfl
  rw [readAndDecide, Program.runUntil_andThen, reads, decision]
  cases rehydrate codec id (read id none) with
  | error error => rfl
  | ok found =>
    cases found with
    | none => rfl
    | some account =>
      have decides : (decideCommand account command).runUntil (answers read newV4) =
          .inl (account.handleCommand command newV4) := rfl
      simp only [Program.runUntil_andThen, decides]
      cases account.handleCommand command newV4 with
      | error error => rfl
      | ok events => rfl

/-- A refusal does not depend on the transaction id. -/
theorem handleCommand_refused {account : Account} {command : AccountCommand} {first : Uuid} {error : AccountError}
    (second : Uuid) (refused : account.handleCommand command first = .error error) :
    account.handleCommand command second = .error error := by
  cases accepted : account.handleCommand command second with
  | ok events =>
    have allowed := ((Account.handleCommand_ok_iff _ _ _ _).mp accepted).1
    rw [(Account.handleCommand_ok_iff account command first _).mpr ⟨allowed, rfl⟩] at refused
    cases refused
  | error other =>
    rw [← refused, ← accepted]
    cases command with
    | createAccount accountId ownerName initialBalance => rfl
    | depositMoney accountId amount =>
      simp only [Account.handleCommand, Money.value_decimal] at accepted refused ⊢
      split
      · rfl
      · split
        · rfl
        · simp_all
    | withdrawMoney accountId amount =>
      simp only [Account.handleCommand, Money.value_decimal] at accepted refused ⊢
      split
      · rfl
      · split
        · rfl
        · split
          · rfl
          · simp_all
    | closeAccount accountId reason => rfl

/-- Both front ends get to what they do with the decision, or fail alike. -/
private theorem decided_outcome {α : Type} (newV4 id : Uuid) (command : AccountCommand)
    (next : Account × List AccountEvent → Program (Call Value) (Except AccountError α)) :
    outcome (((readAndDecide codec id command).andThen next).runUntil (answers read newV4)) =
      match decision codec read newV4 id command with
      | .error error => some (.inl error)
      | .ok decided => outcome ((next decided).runUntil (answers read newV4)) := by
  rw [Program.runUntil_andThen, readAndDecide_answered]
  cases decision codec read newV4 id command with
  | error error => rfl
  | ok decided => rfl

private theorem execute_outcome (duplicate : String) (newV4 id : Uuid) (command : AccountCommand) :
    outcome ((AccountService.execute codec duplicate id command).runUntil (answers read newV4)) =
      match decision codec read newV4 id command with
      | .error error => some (.inl error)
      | .ok decided =>
        some (.inr ⟨(decided.1.replay decided.2).id, decided.2, (decided.1.replay decided.2).version⟩) :=
  decided_outcome newV4 id command _

private theorem handleExisting_outcome (newV4 id : Uuid) (command : AccountCommand) :
    outcome ((AccountCommandHandler.handleExisting codec id command).runUntil (answers read newV4)) =
      match decision codec read newV4 id command with
      | .error error => some (.inl error)
      | .ok decided => some (.inr ⟨decided.1.id, decided.2, decided.1.version⟩) :=
  decided_outcome newV4 id command _

/-- The front ends agree on a command exactly when both refuse it: an accepted
command is saved one version higher by the service. -/
theorem commands_agree_iff (duplicate : String) (first second id : Uuid) (command : AccountCommand) :
    Agree (outcome ((AccountService.execute codec duplicate id command).runUntil (answers read first)))
        (outcome ((AccountCommandHandler.handleExisting codec id command).runUntil (answers read second))) ↔
      ∀ account, rehydrate codec id (read id none) = .ok (some account) → ¬ command.Accepted account := by
  rw [execute_outcome, handleExisting_outcome, decision, decision]
  cases rehydrate codec id (read id none) with
  | error error =>
    refine ⟨?_, fun _ => .fail error⟩
    intro _ _ same
    cases same
  | ok found =>
    cases found with
    | none =>
      refine ⟨?_, fun _ => .fail .notFound⟩
      intro _ _ same
      cases same
    | some account =>
      by_cases accepted : command.Accepted account
      · have left := (Account.handleCommand_ok_iff account command first _).mpr ⟨accepted, rfl⟩
        have right := (Account.handleCommand_ok_iff account command second _).mpr ⟨accepted, rfl⟩
        simp only [left, right]
        constructor
        · intro agree
          cases agree with
          | save _ version _ =>
            simp only [Account.replay_version, List.length_singleton] at version
            omega
        · intro refused
          exact absurd accepted (refused account rfl)
      · cases left : account.handleCommand command first with
        | ok events => exact absurd ((Account.handleCommand_ok_iff _ _ _ _).mp left).1 accepted
        | error error =>
          simp only [left, handleCommand_refused second left]
          constructor
          · intro _ _ same
            cases same
            exact accepted
          · exact fun _ => .fail error

end Commands

/-- The two front ends agree on a deposit or a withdrawal exactly when the call is
refused before its save. -/
theorem front_ends_agree_iff (codec : Codec Value)
    (read : Uuid → Option Int → Except EventStoreError (List (Event Value))) (first second id : Uuid)
    (amount : Decimal) :
    (Agree (outcome ((AccountService.depositMoney codec id amount).runUntil (answers read first)))
        (outcome ((AccountCommandHandler.handleDepositMoney codec id amount).runUntil (answers read second))) ↔
      ∀ account, rehydrate codec id (read id none) = .ok (some account) → ¬ (account.isActive ∧ 0 < amount)) ∧
    (Agree (outcome ((AccountService.withdrawMoney codec id amount).runUntil (answers read first)))
        (outcome ((AccountCommandHandler.handleWithdrawMoney codec id amount).runUntil (answers read second))) ↔
      ∀ account, rehydrate codec id (read id none) = .ok (some account) →
        ¬ (account.isActive ∧ 0 < amount ∧ amount ≤ account.balance)) :=
  ⟨commands_agree_iff _ first second id (.depositMoney id amount),
    commands_agree_iff _ first second id (.withdrawMoney id amount)⟩

/-- A deposit into an account with one stored event: the service expects version
two, the handler version one. -/
theorem deposits_disagree :
    let read : Uuid → Option Int → Except EventStoreError (List (Event AccountEvent)) :=
      fun _ _ => .ok [plainRow ⟨7⟩ 1 (.accountCreated ⟨7⟩ "Ann" 10)]
    ¬ Agree (outcome ((AccountService.depositMoney .plain ⟨7⟩ 5).runUntil (answers read ⟨1⟩)))
      (outcome ((AccountCommandHandler.handleDepositMoney .plain ⟨7⟩ 5).runUntil (answers read ⟨2⟩))) := by
  intro read agree
  have service : outcome ((AccountService.depositMoney .plain ⟨7⟩ 5).runUntil (answers read ⟨1⟩)) =
    some (.inr ⟨⟨7⟩, [.moneyDeposited ⟨7⟩ 5 ⟨1⟩], 2⟩) := rfl
  have handler : outcome ((AccountCommandHandler.handleDepositMoney .plain ⟨7⟩ 5).runUntil (answers read ⟨2⟩)) =
    some (.inr ⟨⟨7⟩, [.moneyDeposited ⟨7⟩ 5 ⟨2⟩], 1⟩) := rfl
  rw [service, handler] at agree
  cases agree with
  | save _ version _ => cases version

end BankingEs.Proofs.FrontEnds
