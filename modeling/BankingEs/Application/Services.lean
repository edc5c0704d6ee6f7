import BankingEs.Application.Repository

/-! `AccountService`: the commands of the handlers behind a duplicate check, with
the projections and the cache kept up behind the save. Failures of these are
logged and not reported. -/

namespace BankingEs.AccountService
open Async

variable {Value : Type}

private def await {α : Type} (call : Call Value (Except String α)) : Program (Call Value) (Except AccountError α) := do
  let result ← .send call
  return infrastructure id result

def transactionAmount : AccountEvent → Decimal
  | .moneyDeposited _ amount _ => amount
  | .moneyWithdrawn _ amount _ => amount
  | _ => 0

/-- One round of the loop in `update_projections_from_events`: record the
transaction, then cache what the account projection says. -/
def updateProjection (event : AccountEvent) : Program (Call Value) (Except AccountError Unit) := do
  let id ← .send .newV4
  let timestamp ← .send .utcNow
  let transaction : TransactionProjection :=
    { id, accountId := event.aggregateId, amount := transactionAmount event, transactionType := event.eventType,
      timestamp }
  (await (.insertTransactionsBatch [transaction])).andThen fun _ =>
    (await (.projectionsGetAccount event.aggregateId)).andThen fun found =>
      match found with
      | none => .pure (.ok ())
      | some row =>
        let account : Account :=
          { id := row.id, ownerName := row.ownerName, balance := row.balance, isActive := row.isActive, version := 0 }
        await (.cacheSetAccount account (some (Duration.fromSecs 3600)))

def updateProjectionsFromEvents : List AccountEvent → Program (Call Value) (Except AccountError Unit)
  | [] => .pure (.ok ())
  | event :: events => (updateProjection event).andThen fun _ => updateProjectionsFromEvents events

/-- The events are saved under the random id of `Account::default()`, not under `accountId`. -/
def createAccount (ownerName : String) (initialBalance : Decimal) : Program (Call Value)
    (Except AccountError Uuid) := do
  let accountId ← .send .newV4
  if ← .send (.isDuplicateCommand accountId) then
    return .error (.infrastructureError "Duplicate create account command")
  else
    let newV4 ← .send .newV4
    let account := Account.default newV4
    (decideCommand account (.createAccount accountId ownerName initialBalance)).andThen fun events =>
      (saveAccount account events).andThen fun _ => do
        let createdAt ← .send .utcNow
        let updatedAt ← .send .utcNow
        let projection : AccountProjection :=
          { id := accountId, ownerName, balance := initialBalance, isActive := true, createdAt, updatedAt }
        let _ ← .send (.upsertAccountsBatch [projection])
        return .ok accountId

/-- Deposits and withdrawals differ in their command and in the text of a refusal.
The account is saved with its events already applied. -/
def execute (codec : Codec Value) (duplicate : String) (accountId : Uuid) (command : AccountCommand) :
    Program (Call Value) (Except AccountError Unit) := do
  if ← .send (.isDuplicateCommand accountId) then
    return .error (.infrastructureError duplicate)
  else
    (readAndDecide codec accountId command).andThen fun (account, events) =>
      (saveAccount (account.replay events) events).andThen fun _ => do
        let _ ← updateProjectionsFromEvents events
        return .ok ()

def depositMoney (codec : Codec Value) (accountId : Uuid) (amount : Decimal) :
    Program (Call Value) (Except AccountError Unit) :=
  execute codec "Duplicate deposit command" accountId (.depositMoney accountId amount)

def withdrawMoney (codec : Codec Value) (accountId : Uuid) (amount : Decimal) :
    Program (Call Value) (Except AccountError Unit) :=
  execute codec "Duplicate withdraw command" accountId (.withdrawMoney accountId amount)

def getAccount (accountId : Uuid) : Program (Call Value) (Except AccountError (Option AccountProjection)) :=
  (await (.cacheGetAccount accountId)).andThen fun cached =>
    match cached with
    | some account => do
      let createdAt ← .send .utcNow
      let updatedAt ← .send .utcNow
      return .ok (some { id := account.id, ownerName := account.ownerName, balance := account.balance,
                         isActive := account.isActive, createdAt, updatedAt })
    | none => await (.projectionsGetAccount accountId)

end BankingEs.AccountService
