import BankingEs.Projections.ReadModel

/-! The projection of an account follows the account event by event, over exact amounts and
over the decimals of the machine, where the two also panic together. -/

namespace BankingEs.Proofs.ReadModel

variable {Amount : Type} [Money Amount] (createdAt updatedAt : DateTime)

private theorem applyEvent_ofAccount (account : Account Amount) (event : AccountEvent Amount) :
    (AccountProjection.ofAccount createdAt updatedAt account).applyEvent? event =
      (account.applyEvent? event).map (.ofAccount createdAt updatedAt) := by
  cases event with
  | accountCreated accountId ownerName initialBalance => rfl
  | moneyDeposited accountId amount transactionId =>
    simp only [AccountProjection.applyEvent?, Account.applyEvent?, Account.change, Option.map_map]
    rfl
  | moneyWithdrawn accountId amount transactionId =>
    simp only [AccountProjection.applyEvent?, Account.applyEvent?, Account.change, Option.map_map]
    rfl
  | accountClosed accountId reason => rfl

private theorem applyEvents_ofAccount (account : Account Amount) (events : List (AccountEvent Amount)) :
    (AccountProjection.ofAccount createdAt updatedAt account).applyEvents? events =
      (account.replay? events).map (.ofAccount createdAt updatedAt) := by
  induction events generalizing account with
  | nil => rfl
  | cons event events ih =>
    rw [AccountProjection.applyEvents?, Account.replay?, List.foldlM_cons, List.foldlM_cons, applyEvent_ofAccount]
    cases account.applyEvent? event with
    | none => rfl
    | some changed => exact ih changed

private theorem exact_applyEvents_ofAccount (account : Account) (events : List AccountEvent) :
    (AccountProjection.ofAccount createdAt updatedAt account).applyEvents events =
      .ok (.ofAccount createdAt updatedAt (account.replay events)) := by
  induction events generalizing account with
  | nil => rfl
  | cons event events ih =>
    have applied : (AccountProjection.ofAccount createdAt updatedAt account).applyEvent event =
        .ok (.ofAccount createdAt updatedAt (account.applyEvent event)) := by
      cases event <;> rfl
    rw [AccountProjection.applyEvents, applied]
    exact ih (account.applyEvent event)

/-- From an account's own projection, whatever its times, the events lead to the projection of
the account they lead to. -/
theorem projection_follows_account :
    (∀ (account : Account) (events : List AccountEvent),
      (AccountProjection.ofAccount createdAt updatedAt account).applyEvents events =
        .ok (.ofAccount createdAt updatedAt (account.replay events))) ∧
    ∀ (account : MachineAccount) (events : List MachineEvent),
      (AccountProjection.ofAccount createdAt updatedAt account).applyEvents? events =
        (account.replay? events).map (.ofAccount createdAt updatedAt) :=
  ⟨exact_applyEvents_ofAccount createdAt updatedAt, applyEvents_ofAccount createdAt updatedAt⟩

end BankingEs.Proofs.ReadModel
