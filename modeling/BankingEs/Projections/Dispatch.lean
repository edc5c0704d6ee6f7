import Mathlib.Logic.Relation
import BankingEs.Projections.Flush

/-! How a call through `ProjectionStoreTrait` is carried out by `ProjectionStore`. Every function of
the trait awaits `self.f(..)` under its own name, and the name decides where that goes. -/

namespace BankingEs

/-- The functions declared for `ProjectionStore`. -/
inductive ProjectionFunction where
  | new
  | newTest
  | fromPoolWithConfig
  | newWithConfig
  | getAccount
  | getAccountTransactions
  | getAllAccounts
  | updateProcessor
  | flushBatches
  | bulkUpsertAccounts
  | bulkInsertTransactions
  | cacheCleanupWorker
  | metricsReporter
  | upsertAccountsBatch
  | insertTransactionsBatch
  deriving DecidableEq

namespace ProjectionFunction

def inherentFunctions : List ProjectionFunction :=
  [new, newTest, fromPoolWithConfig, newWithConfig, getAccount, getAccountTransactions, getAllAccounts, updateProcessor,
    flushBatches, bulkUpsertAccounts, bulkInsertTransactions, cacheCleanupWorker, metricsReporter]

def traitFunctions : List ProjectionFunction :=
  [getAccount, getAllAccounts, getAccountTransactions, upsertAccountsBatch, insertTransactionsBatch]

/-- The `impl` block that a function is taken from. -/
inductive Impl where
  | inherent
  | projectionStoreTrait
  deriving DecidableEq

/-- `self.f(..)`: an inherent function comes before one of a trait. -/
def resolve (function : ProjectionFunction) : Option Impl :=
  if function ∈ inherentFunctions then some .inherent
  else if function ∈ traitFunctions then some .projectionStoreTrait
  else none

end ProjectionFunction

inductive ProjectionStoreCall where
  | getAccount (accountId : Uuid)
  | getAllAccounts
  | getAccountTransactions (accountId : Uuid)
  | upsertAccountsBatch (accounts : List AccountProjection)
  | insertTransactionsBatch (transactions : List TransactionProjection)

namespace ProjectionStoreCall
open ProjectionFunction

def function : ProjectionStoreCall → ProjectionFunction
  | getAccount _ => .getAccount
  | getAllAccounts => .getAllAccounts
  | getAccountTransactions _ => .getAccountTransactions
  | upsertAccountsBatch _ => .upsertAccountsBatch
  | insertTransactionsBatch _ => .insertTransactionsBatch

/-- The functions that have been entered for a call and not left, the innermost first, and the
messages that wait for `update_processor`. -/
structure Frames where
  entered : List Impl
  channel : List ProjectionUpdate

/-- No inherent function that a call can reach sends on `update_sender`. -/
inductive Step (call : ProjectionStoreCall) : Frames → Frames → Prop where
  | forwards {impl : Impl} {entered : List Impl} {channel : List ProjectionUpdate}
      (resolved : resolve call.function = some impl) :
      Step call ⟨.projectionStoreTrait :: entered, channel⟩ ⟨impl :: .projectionStoreTrait :: entered, channel⟩
  | returns {entered : List Impl} {channel : List ProjectionUpdate} :
      -- with it return the functions that do nothing but await it
      Step call ⟨.inherent :: entered, channel⟩ ⟨[], channel⟩

abbrev Steps (call : ProjectionStoreCall) : Frames → Frames → Prop := Relation.ReflTransGen (Step call)

def made (channel : List ProjectionUpdate) : Frames := ⟨[.projectionStoreTrait], channel⟩

end ProjectionStoreCall
end BankingEs
