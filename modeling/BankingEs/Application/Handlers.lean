import BankingEs.Application.Repository

/-! `AccountCommandHandler`: read, decide and save, without any projection. The handlers of an
existing account are also given over any amounts, where a read may panic. -/

namespace BankingEs.AccountCommandHandler
open Async

variable {Value : Type}

def handleCreateAccount (ownerName : String) (initialBalance : Decimal) :
    Program (Call Value) (Except AccountError Uuid) := do
  let accountId ← .send .newV4
  let unused ← .send .newV4
  (decideCommand (Account.default unused) (.createAccount accountId ownerName initialBalance)).andThen fun events =>
    let tempAccountForSave : Account :=
      { id := accountId, ownerName := "", balance := 0, isActive := false, version := 0 }
    (saveAccount tempAccountForSave events).andThen fun _ => .pure (.ok accountId)

/-- The three handlers of an existing account differ in their command only. -/
def handleExisting (codec : Codec Value) (accountId : Uuid) (command : AccountCommand) :
    Program (Call Value) (Except AccountError (List AccountEvent)) :=
  (readAndDecide codec accountId command).andThen fun (account, events) =>
    (saveAccount account events).andThen fun _ => .pure (.ok events)

def handleDepositMoney (codec : Codec Value) (accountId : Uuid) (amount : Decimal) :
    Program (Call Value) (Except AccountError (List AccountEvent)) :=
  handleExisting codec accountId (.depositMoney accountId amount)

def handleWithdrawMoney (codec : Codec Value) (accountId : Uuid) (amount : Decimal) :
    Program (Call Value) (Except AccountError (List AccountEvent)) :=
  handleExisting codec accountId (.withdrawMoney accountId amount)

def handleCloseAccount (codec : Codec Value) (accountId : Uuid) (reason : String) :
    Program (Call Value) (Except AccountError (List AccountEvent)) :=
  handleExisting codec accountId (.closeAccount accountId reason)

section Amounts
variable {Amount : Type} [Money Amount]

inductive HandlerCall (Value Amount : Type) : Type → Type where
  | newV4 : HandlerCall Value Amount Uuid
  | getEvents (aggregateId : Uuid) : HandlerCall Value Amount (Except EventStoreError (List (Event Value)))
  | saveEvents (aggregateId : Uuid) (events : List (AccountEvent Amount)) (expectedVersion : Int) :
      HandlerCall Value Amount (Except EventStoreError Unit)

def saveDecided? (account : Account Amount) : Except AccountError (List (AccountEvent Amount)) →
    Program (HandlerCall Value Amount) (Option (Except AccountError (List (AccountEvent Amount))))
  | .error error => .pure (some (.error error))
  | .ok events => do
    let saved ← .send (.saveEvents account.id events account.version)
    return some ((infrastructure EventStoreError.display saved).map fun _ => events)

def decideAndSave? (command : AccountCommand Amount) : Except AccountError (Option (Account Amount)) →
    Program (HandlerCall Value Amount) (Option (Except AccountError (List (AccountEvent Amount))))
  | .error error => .pure (some (.error error))
  | .ok none => .pure (some (.error .notFound))
  | .ok (some account) => do
    let transactionId ← .send .newV4
    saveDecided? account (account.handleCommand command transactionId)

/-- `handle_deposit_money`, `handle_withdraw_money` and `handle_close_account`, with no answer where
`apply_event` panics. -/
def handleExisting? (codec : Codec Value Amount) (accountId : Uuid) (command : AccountCommand Amount) :
    Program (HandlerCall Value Amount) (Option (Except AccountError (List (AccountEvent Amount)))) := do
  let stored ← .send (.getEvents accountId)
  match AccountRepository.rehydrate? codec accountId stored with
  | none => .pure none
  | some found => decideAndSave? command found

def HandlerCall.exact : {β : Type} → HandlerCall Value Decimal β → Call Value β
  | _, .newV4 => .newV4
  | _, .getEvents aggregateId => .getEvents aggregateId none
  | _, .saveEvents aggregateId events expectedVersion => .saveEvents ⟨aggregateId, events, expectedVersion⟩

/-- Over exact numbers it is `handleExisting`, and nothing panics. -/
theorem handleExisting_eq_exact (codec : Codec Value) (accountId : Uuid) (command : AccountCommand) :
    (handleExisting? codec accountId command).mapRequests HandlerCall.exact =
      (handleExisting codec accountId command >>= fun result => .pure (some result)) := by
  change Program.request _ _ = Program.request _ _
  congr 1
  funext stored
  have read := AccountRepository.rehydrate?_decimal codec accountId stored
  dsimp only [Program.bind]
  rw [read]
  dsimp only [pure]
  cases AccountRepository.rehydrate codec accountId stored with
  | error error => rfl
  | ok found =>
    cases found with
    | none => rfl
    | some account =>
      change Program.request _ _ = Program.request _ _
      congr 1
      funext transactionId
      dsimp only [Program.bind, pure]
      cases account.handleCommand command transactionId with
      | error error => rfl
      | ok events =>
        change Program.request _ _ = Program.request _ _
        congr 1
        funext saved
        cases saved <;> rfl

end Amounts

end BankingEs.AccountCommandHandler
