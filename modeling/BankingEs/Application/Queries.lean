import BankingEs.Application.Repository

/-! `AccountQueryHandler`: three readings of the account that the repository rehydrates. -/

namespace BankingEs.AccountQueryHandler
open Async

variable {Value : Type}

def getAccountById (codec : Codec Value) (accountId : Uuid) : Program (Call Value)
    (Except AccountError (Option Account)) :=
  AccountRepository.getById codec accountId

/-- The other two queries differ in the field they return. -/
def readField {α : Type} (codec : Codec Value) (accountId : Uuid) (field : Account → α) :
    Program (Call Value) (Except AccountError α) :=
  (AccountRepository.getById codec accountId).andThen fun found =>
    match found with
    | none => .pure (.error .notFound)
    | some account => .pure (.ok (field account))

def getAccountBalance (codec : Codec Value) (accountId : Uuid) : Program (Call Value) (Except AccountError Decimal) :=
  readField codec accountId Account.balance

def isAccountActive (codec : Codec Value) (accountId : Uuid) : Program (Call Value) (Except AccountError Bool) :=
  readField codec accountId Account.isActive

end BankingEs.AccountQueryHandler
