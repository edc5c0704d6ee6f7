import BankingEs.Cache.Service

/-! `ProjectionStore`: the rows of the read model, and the copies of them that the
store keeps in memory for a while. -/

namespace BankingEs

namespace AccountProjection

/-- `apply_event`, with no projection where it panics. -/
def applyEvent? {Amount : Type} [Money Amount] (projection : AccountProjection Amount) :
    AccountEvent Amount → Option (AccountProjection Amount)
  | .accountCreated _ ownerName initialBalance =>
    some { projection with ownerName, balance := initialBalance, isActive := true }
  | .moneyDeposited _ amount _ => (Money.add projection.balance amount).map fun balance => { projection with balance }
  | .moneyWithdrawn _ amount _ => (Money.sub projection.balance amount).map fun balance => { projection with balance }
  | .accountClosed _ _ => some { projection with isActive := false }

/-- It never fails, though its type allows it to, and over exact numbers it does not panic. -/
def applyEvent (projection : AccountProjection) (event : AccountEvent) : Except String AccountProjection :=
  .ok ((projection.applyEvent? event).getD projection)

def applyEvents (projection : AccountProjection) : List AccountEvent → Except String AccountProjection
  | [] => .ok projection
  | event :: events => (projection.applyEvent event).bind fun projection => projection.applyEvents events

end AccountProjection

/-- The rows that `get_account_transactions` selects: the newest thousand. -/
def selectTransactions (accountId : Uuid) (rows : List TransactionProjection) : List TransactionProjection :=
  ((rows.filter fun row => row.accountId = accountId).insertionSort
    fun first second => second.timestamp ≤ first.timestamp).take 1000

structure ProjectionEntry (α : Type) where
  data : α
  lastAccessed : Instant
  ttl : Duration

structure ProjectionCache where
  accounts : Uuid → Option (ProjectionEntry AccountProjection) := fun _ => none
  transactions : Uuid → Option (ProjectionEntry (List TransactionProjection)) := fun _ => none
  cacheTtlSecs : Nat := 300

namespace ProjectionCache

/-- `last_accessed.elapsed() < ttl`. A read does not count as an access. -/
def live {α : Type} (now : Instant) (entry : Option (ProjectionEntry α)) : Option α :=
  (entry.filter fun entry => now - entry.lastAccessed < entry.ttl).map ProjectionEntry.data

/-- `fetched` is what the database answers if it is asked. -/
def getAccount (now : Instant) (fetched : Except String (Option AccountProjection)) (accountId : Uuid)
    (cache : ProjectionCache) : Except String (Option AccountProjection) × ProjectionCache :=
  match live now (cache.accounts accountId) with
  | some account => (.ok (some account), cache)
  | none => match fetched with
    | .error error => (.error error, cache)
    | .ok none => (.ok none, cache)
    | .ok (some account) =>
      let entry : ProjectionEntry AccountProjection := ⟨account, now, Duration.fromSecs cache.cacheTtlSecs⟩
      (.ok (some account), { cache with accounts := Function.update cache.accounts accountId (some entry) })

def getAccountTransactions (now : Instant) (fetched : Except String (List TransactionProjection)) (accountId : Uuid)
    (cache : ProjectionCache) : Except String (List TransactionProjection) × ProjectionCache :=
  match live now (cache.transactions accountId) with
  | some transactions => (.ok transactions, cache)
  | none => match fetched with
    | .error error => (.error error, cache)
    | .ok transactions =>
      let entry : ProjectionEntry (List TransactionProjection) :=
        ⟨transactions, now, Duration.fromSecs cache.cacheTtlSecs⟩
      (.ok transactions, { cache with transactions := Function.update cache.transactions accountId (some entry) })

end ProjectionCache
end BankingEs
