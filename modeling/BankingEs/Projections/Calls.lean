import BankingEs.Async.Sequential
import BankingEs.Projections.Flush

/-! The reads of the projections and their flushes, cut at their await points. Each access of a
cache is one call, made under its lock; so is each statement to the database. -/

namespace BankingEs
open Async

inductive ProjectionCall : Type → Type where
  | readAccount (accountId : Uuid) : ProjectionCall (Option AccountProjection)
  | fetchAccount (accountId : Uuid) : ProjectionCall (Except SqlxError (Option AccountProjection))
  | cacheAccount (accountId : Uuid) (account : AccountProjection) : ProjectionCall Unit
  | readTransactions (accountId : Uuid) : ProjectionCall (Option (List TransactionProjection))
  | fetchTransactions (accountId : Uuid) : ProjectionCall (Except SqlxError (List TransactionProjection))
  | cacheTransactions (accountId : Uuid) (transactions : List TransactionProjection) : ProjectionCall Unit
  | begin : ProjectionCall (Except SqlxError Unit)
  | bulkUpsertAccounts (accounts : List AccountProjection) : ProjectionCall (Except SqlxError Unit)
  | insertAccounts (accounts : List AccountProjection) : ProjectionCall Unit
  | bulkInsertTransactions (transactions : List TransactionProjection) : ProjectionCall (Except SqlxError Unit)
  | removeTransactions (transactions : List TransactionProjection) : ProjectionCall Unit
  | rollback : ProjectionCall Unit
  | commit : ProjectionCall (Except SqlxError Unit)

namespace ProjectionCalls

def getAccount (accountId : Uuid) : Program ProjectionCall (Except SqlxError (Option AccountProjection)) := do
  match ← .send (.readAccount accountId) with
  | some account => return .ok (some account)
  | none => (Program.send (.fetchAccount accountId)).andThen fun found => match found with
    | none => .pure (.ok none)
    | some account => do
      .send (.cacheAccount accountId account)
      return .ok (some account)

def getAccountTransactions (accountId : Uuid) :
    Program ProjectionCall (Except SqlxError (List TransactionProjection)) := do
  match ← .send (.readTransactions accountId) with
  | some transactions => return .ok transactions
  | none => (Program.send (.fetchTransactions accountId)).andThen fun transactions => do
    .send (.cacheTransactions accountId transactions)
    return .ok transactions

def flushAccounts (accounts : List AccountProjection) : Program ProjectionCall (Except SqlxError Unit) :=
  if accounts.isEmpty then .pure (.ok ())
  else do
    match ← .send (.bulkUpsertAccounts accounts) with
    | .error error =>
      .send .rollback
      return .error error
    | .ok () =>
      .send (.insertAccounts accounts)
      return .ok ()

def flushTransactions (transactions : List TransactionProjection) : Program ProjectionCall (Except SqlxError Unit) :=
  if transactions.isEmpty then .pure (.ok ())
  else do
    match ← .send (.bulkInsertTransactions transactions) with
    | .error error =>
      .send .rollback
      return .error error
    | .ok () =>
      .send (.removeTransactions transactions)
      return .ok ()

def flushBatches (accounts : List AccountProjection) (transactions : List TransactionProjection) :
    Program ProjectionCall (Except SqlxError Unit) :=
  (Program.send .begin).andThen fun _ =>
    (flushAccounts accounts).andThen fun _ =>
      (flushTransactions transactions).andThen fun _ => .send .commit

end ProjectionCalls

/-- The committed tables, the copies in memory, and the tables as the transaction of a flush sees
them while it is open. -/
structure ProjectionWorld where
  now : Instant := 0
  tables : ProjectionTables := {}
  tx : Option ProjectionTables := none
  cache : ProjectionCache := {}

namespace ProjectionWorld

def cacheAccount (world : ProjectionWorld) (accountId : Uuid) (account : AccountProjection) : ProjectionWorld :=
  let entry : ProjectionEntry AccountProjection := ⟨account, world.now, Duration.fromSecs world.cache.cacheTtlSecs⟩
  { world with cache.accounts := Function.update world.cache.accounts accountId (some entry) }

def cacheTransactions (world : ProjectionWorld) (accountId : Uuid) (transactions : List TransactionProjection) :
    ProjectionWorld :=
  let entry : ProjectionEntry (List TransactionProjection) :=
    ⟨transactions, world.now, Duration.fromSecs world.cache.cacheTtlSecs⟩
  { world with cache.transactions := Function.update world.cache.transactions accountId (some entry) }

/-- A statement of the open transaction: the tables take it, or the database fails. -/
inductive Executes (statement : ProjectionTables → Except SqlxError ProjectionTables) (world : ProjectionWorld) :
    Except SqlxError Unit → ProjectionWorld → Prop where
  | done {tx changed : ProjectionTables} (isOpen : world.tx = some tx) (answer : statement tx = .ok changed) :
      Executes statement world (.ok ()) { world with tx := some changed }
  | fails (error : SqlxError) : Executes statement world (.error error) world

inductive Commits (world : ProjectionWorld) : Except SqlxError Unit → ProjectionWorld → Prop where
  | done {tx : ProjectionTables} (isOpen : world.tx = some tx) :
      Commits world (.ok ()) { world with tables := tx, tx := none }
  | fails (error : SqlxError) : Commits world (.error error) { world with tx := none }

/-- The database may fail at any time, and it takes no transactions. -/
def step (world : ProjectionWorld) : {β : Type} → ProjectionCall β → β → ProjectionWorld → Prop
  | _, .readAccount accountId, reply, after =>
    reply = ProjectionCache.live world.now (world.cache.accounts accountId) ∧ after = world
  | _, .fetchAccount accountId, reply, after =>
    (reply = .ok (world.tables.accounts accountId) ∨ ∃ error, reply = .error error) ∧ after = world
  | _, .cacheAccount accountId account, _, after => after = world.cacheAccount accountId account
  | _, .readTransactions accountId, reply, after =>
    reply = ProjectionCache.live world.now (world.cache.transactions accountId) ∧ after = world
  | _, .fetchTransactions accountId, reply, after =>
    (reply = .ok (selectTransactions accountId world.tables.transactions) ∨ ∃ error, reply = .error error) ∧
      after = world
  | _, .cacheTransactions accountId transactions, _, after => after = world.cacheTransactions accountId transactions
  | _, .begin, reply, after =>
    (reply = .ok () ∧ after = { world with tx := some world.tables }) ∨
      (∃ error, reply = .error error) ∧ after = world
  | _, .bulkUpsertAccounts accounts, reply, after => Executes (·.upsertStatement accounts) world reply after
  | _, .insertAccounts accounts, _, after =>
    ∃ accessed, after = { world with cache := world.cache.insertAccounts accessed accounts }
  | _, .bulkInsertTransactions _, reply, after =>
    Executes (fun _ => .error ProjectionTables.unmatchedConflict) world reply after
  | _, .removeTransactions transactions, _, after =>
    after = { world with cache := world.cache.removeTransactions transactions }
  | _, .rollback, _, after => after = { world with tx := none }
  | _, .commit, reply, after => Commits world reply after

def serves : Serves ProjectionCall ProjectionWorld := fun world op reply after =>
  ∃ now, world.now ≤ now ∧ step { world with now } op reply after

end ProjectionWorld

inductive ProjectionRead where
  | account (accountId : Uuid)
  | transactions (accountId : Uuid)

namespace ProjectionCalls

def read : ProjectionRead → Program ProjectionCall Unit
  | .account accountId => do let _ ← getAccount accountId
  | .transactions accountId => do let _ ← getAccountTransactions accountId

/-- The flushes that the task of `update_processor` makes in turn. An error is logged. -/
def updateProcessor : List (List AccountProjection × List TransactionProjection) → Program ProjectionCall Unit
  | [] => .pure ()
  | (accounts, transactions) :: flushes => do
    let _ ← flushBatches accounts transactions
    updateProcessor flushes

def task {ι : Type} (reads : ι → ProjectionRead)
    (flushes : List (List AccountProjection × List TransactionProjection)) :
    Option ι → Program ProjectionCall Unit
  | none => updateProcessor flushes
  | some thread => read (reads thread)

end ProjectionCalls
end BankingEs
