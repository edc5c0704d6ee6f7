import BankingEs.MachineAccount
import BankingEs.Projections.Store

/-! The read model of an account: the projection that `get_account` makes of a cached account. -/

namespace BankingEs.AccountProjection

variable {Amount : Type}

def ofAccount (createdAt updatedAt : DateTime) (account : Account Amount) : AccountProjection Amount :=
  { id := account.id, ownerName := account.ownerName, balance := account.balance, isActive := account.isActive
    createdAt, updatedAt }

def applyEvents? [Money Amount] (projection : AccountProjection Amount) (events : List (AccountEvent Amount)) :
    Option (AccountProjection Amount) :=
  events.foldlM applyEvent? projection

end BankingEs.AccountProjection
