import BankingEs.Domain

/-! Runs of the aggregate on its own: each command is decided by `handleCommand`
and what it emits is applied, while a rejected command changes nothing. -/

namespace BankingEs

/-- The account together with everything accepted and emitted so far. -/
structure Aggregate where
  account : Account
  accepted : List AccountCommand
  emitted : List AccountEvent

namespace Aggregate

def start (newV4 : Uuid) : Aggregate := ⟨Account.default newV4, [], []⟩

def submit (aggregate : Aggregate) (command : AccountCommand) (transactionId : Uuid) : Aggregate :=
  match aggregate.account.handleCommand command transactionId with
  | .ok events => ⟨aggregate.account.replay events, aggregate.accepted ++ [command], aggregate.emitted ++ events⟩
  | .error _ => aggregate

def run (newV4 : Uuid) (commands : List (AccountCommand × Uuid)) : Aggregate :=
  commands.foldl (fun aggregate command => aggregate.submit command.1 command.2) (start newV4)

/-- All a submission can do: nothing, or accept the command and apply its event. -/
theorem submit_cases (aggregate : Aggregate) (command : AccountCommand) (transactionId : Uuid) :
    aggregate.submit command transactionId = aggregate ∨
      command.Accepted aggregate.account ∧
        aggregate.submit command transactionId =
          ⟨aggregate.account.applyEvent (command.event transactionId), aggregate.accepted ++ [command],
            aggregate.emitted ++ [command.event transactionId]⟩ := by
  cases decided : aggregate.account.handleCommand command transactionId with
  | error reason => exact .inl (by simp [submit, decided])
  | ok events =>
    obtain ⟨accepted, rfl⟩ := (Account.handleCommand_ok_iff _ _ _ _).mp decided
    exact .inr ⟨accepted, by simp [submit, decided]⟩

/-- What holds at the start and survives every accepted command holds after any run. -/
theorem run_induction {invariant : Aggregate → Prop} (newV4 : Uuid) (initial : invariant (start newV4))
    (accepts : ∀ aggregate command transactionId, invariant aggregate → command.Accepted aggregate.account →
      invariant ⟨aggregate.account.applyEvent (command.event transactionId), aggregate.accepted ++ [command],
        aggregate.emitted ++ [command.event transactionId]⟩)
    (commands : List (AccountCommand × Uuid)) : invariant (run newV4 commands) := by
  suffices general : ∀ aggregate, invariant aggregate →
      invariant (commands.foldl (fun aggregate command => aggregate.submit command.1 command.2) aggregate) from
    general _ initial
  induction commands with
  | nil => exact fun _ holds => holds
  | cons command commands ih =>
    intro aggregate holds
    apply ih
    rcases submit_cases aggregate command.1 command.2 with same | ⟨accepted, result⟩
    · simpa only [same] using holds
    · simpa only [result] using accepts aggregate command.1 command.2 holds accepted

end Aggregate
end BankingEs
