import BankingEs.Projections.Store

/-! The write path of the projections: `update_processor` collects the rows that it is sent, and
`flush_batches` writes them in one transaction and brings the copies in memory up to date. -/

namespace BankingEs

inductive ProjectionUpdate where
  | accountBatch (accounts : List AccountProjection)
  | transactionBatch (transactions : List TransactionProjection)

structure ProjectionConfig where
  batchSize : Nat := 5000
  batchTimeoutMs : Nat := 20

structure ProjectionTables where
  accounts : Uuid → Option AccountProjection := fun _ => none
  transactions : List TransactionProjection := []

namespace AccountProjection

/-- The row as the columns of its table hold it. `VARCHAR(255)` drops blanks that exceed it. -/
def stored (account : AccountProjection) : AccountProjection :=
  { account with
    ownerName := String.ofList (account.ownerName.toList.take 255)
    balance := Decimal.rounded account.balance
    createdAt := account.createdAt.stored
    updatedAt := account.updatedAt.stored }

/-- The columns can hold the row. -/
def Fits (account : AccountProjection) : Prop :=
  '\x00' ∉ account.ownerName.toList ∧ (∀ char ∈ account.ownerName.toList.drop 255, char = ' ') ∧
    |Decimal.rounded account.balance| < 10 ^ 18

instance (account : AccountProjection) : Decidable account.Fits :=
  -- the other instance that Lean may find goes through all characters
  have : Decidable (∀ char ∈ account.ownerName.toList.drop 255, char = ' ') := List.decidableBAll _ _
  inferInstanceAs (Decidable (_ ∧ _ ∧ _))

def refusal (account : AccountProjection) : SqlxError :=
  if '\x00' ∈ account.ownerName.toList then
    .database "22021" none "invalid byte sequence for encoding \"UTF8\": 0x00"
  else if (account.ownerName.toList.drop 255).any (· ≠ ' ') then
    .database "22001" none "value too long for type character varying(255)"
  else .database "22003" none "numeric field overflow"

end AccountProjection

namespace ProjectionTables

/-- What becomes of a row that is proposed: `ON CONFLICT (id) DO UPDATE` leaves `created_at` alone. -/
def upserted (old : Option AccountProjection) (account : AccountProjection) : AccountProjection :=
  match old with
  | some old => { account.stored with createdAt := old.createdAt }
  | none => account.stored

def upsertAccount (tables : ProjectionTables) (account : AccountProjection) : ProjectionTables :=
  { tables with
    accounts := Function.update tables.accounts account.id (some (upserted (tables.accounts account.id) account)) }

/-- `ON CONFLICT (id) DO NOTHING`. -/
def insertTransaction (tables : ProjectionTables) (transaction : TransactionProjection) : ProjectionTables :=
  if tables.transactions.any fun row => row.id = transaction.id then tables
  else { tables with transactions := tables.transactions ++ [transaction.stored] }

/-- The answer to a statement that would update one row twice. -/
def cardinalityViolation : SqlxError :=
  .database "21000" none "ON CONFLICT DO UPDATE command cannot affect row a second time"

/-- Each row meets the table as it was before the statement. -/
def upsertAtOnce (tables : ProjectionTables) (accounts : List AccountProjection) : ProjectionTables :=
  { tables with accounts := fun id =>
      match accounts.find? fun account => account.id = id with
      | some account => some (upserted (tables.accounts id) account)
      | none => tables.accounts id }

/-- `INSERT … ON CONFLICT (id) DO UPDATE` of all rows, as PostgreSQL executes it. -/
def upsertStatement (tables : ProjectionTables) (accounts : List AccountProjection) :
    Except SqlxError ProjectionTables :=
  match accounts.find? fun account => ¬account.Fits with
  | some account => .error account.refusal
  | none =>
    if (accounts.map AccountProjection.id).Nodup then .ok (tables.upsertAtOnce accounts)
    else .error cardinalityViolation

/-- The answer to every insert of transactions: they are partitioned by time and so unique only by
`(id, timestamp)`, while the statement has `ON CONFLICT (id)`. -/
def unmatchedConflict : SqlxError :=
  .database "42P10" none "there is no unique or exclusion constraint matching the ON CONFLICT specification"

end ProjectionTables

namespace ProjectionCache

/-- The copies that a flush makes of its accounts. `accessed` is when each of them is made. -/
def insertAccounts (accessed : Nat → Instant) (accounts : List AccountProjection) (cache : ProjectionCache) :
    ProjectionCache :=
  accounts.zipIdx.foldl (fun cache (account, index) =>
    let entry : ProjectionEntry AccountProjection := ⟨account, accessed index, Duration.fromSecs 300⟩
    { cache with accounts := Function.update cache.accounts account.id (some entry) }) cache

def removeTransactions (transactions : List TransactionProjection) (cache : ProjectionCache) : ProjectionCache :=
  transactions.foldl (fun cache transaction =>
    { cache with transactions := Function.update cache.transactions transaction.accountId none }) cache

end ProjectionCache

/-- What the database answers to the calls of one flush, and the times at which accounts are cached. -/
structure FlushCalls where
  begin : Except SqlxError Unit := .ok ()
  upsert : Except SqlxError Unit := .ok ()
  insert : Except SqlxError Unit := .ok ()
  commit : Except SqlxError Unit := .ok ()
  accessed : Nat → Instant := fun _ => 0

structure Projections where
  tables : ProjectionTables := {}
  accountBatch : List AccountProjection := []
  transactionBatch : List TransactionProjection := []
  cache : ProjectionCache := {}

/-- A flush that meets no fault: its statements are answered as the tables demand. -/
def FlushCalls.faultless (projections : Projections) (accessed : Nat → Instant) : FlushCalls :=
  { upsert := (projections.tables.upsertStatement projections.accountBatch).map fun _ => ()
    insert := .error ProjectionTables.unmatchedConflict
    accessed }

namespace ProjectionStore

def bulkUpsertAccounts (answer : Except SqlxError Unit) (accounts : List AccountProjection) (tx : ProjectionTables) :
    Except SqlxError ProjectionTables :=
  if accounts.isEmpty then .ok tx else answer.map fun _ => accounts.foldl ProjectionTables.upsertAccount tx

def bulkInsertTransactions (answer : Except SqlxError Unit) (transactions : List TransactionProjection)
    (tx : ProjectionTables) : Except SqlxError ProjectionTables :=
  if transactions.isEmpty then .ok tx else answer.map fun _ => transactions.foldl ProjectionTables.insertTransaction tx

/-- The account updates of a flush. The batch is drained and cached before the transaction goes on. -/
def flushAccounts (calls : FlushCalls) (tx : ProjectionTables) (projections : Projections) :
    Except SqlxError ProjectionTables × Projections :=
  if projections.accountBatch.isEmpty then (.ok tx, projections)
  else match bulkUpsertAccounts calls.upsert projections.accountBatch tx with
    | .error error => (.error error, projections)
    | .ok tx => (.ok tx, { projections with
        accountBatch := [], cache := projections.cache.insertAccounts calls.accessed projections.accountBatch })

def flushTransactions (calls : FlushCalls) (tx : ProjectionTables) (projections : Projections) :
    Except SqlxError ProjectionTables × Projections :=
  if projections.transactionBatch.isEmpty then (.ok tx, projections)
  else match bulkInsertTransactions calls.insert projections.transactionBatch tx with
    | .error error => (.error error, projections)
    | .ok tx => (.ok tx, { projections with
        transactionBatch := [], cache := projections.cache.removeTransactions projections.transactionBatch })

/-- A transaction that is rolled back, or not committed, leaves the tables as they were. -/
def flushBatches (calls : FlushCalls) (projections : Projections) : Except SqlxError Unit × Projections :=
  match calls.begin with
  | .error error => (.error error, projections)
  | .ok () => match flushAccounts calls projections.tables projections with
    | (.error error, projections) => (.error error, projections)
    | (.ok tx, projections) => match flushTransactions calls tx projections with
      | (.error error, projections) => (.error error, projections)
      | (.ok tx, projections) => match calls.commit with
        | .error error => (.error error, projections)
        | .ok () => (.ok (), { projections with tables := tx })

end ProjectionStore

def Projections.receive (projections : Projections) : ProjectionUpdate → Projections
  | .accountBatch accounts => { projections with accountBatch := projections.accountBatch ++ accounts }
  | .transactionBatch transactions =>
    { projections with transactionBatch := projections.transactionBatch ++ transactions }

/-- A message, the time at which `last_flush.elapsed()` is asked after it, and what a flush meets
if there is one, up to its end. -/
structure Arrival where
  update : ProjectionUpdate
  received : Instant
  calls : FlushCalls := {}
  flushed : Instant

/-- `update_processor` between two messages. `flushes` are the batches of the flushes that were
committed. -/
structure UpdateProcessor where
  projections : Projections := {}
  lastFlush : Instant := 0
  flushes : List (List AccountProjection × List TransactionProjection) := []

namespace UpdateProcessor

def isDue (config : ProjectionConfig) (processor : UpdateProcessor) (received : Instant) : Bool :=
  config.batchSize ≤ processor.projections.accountBatch.length ||
    config.batchSize ≤ processor.projections.transactionBatch.length ||
    Duration.fromMillis config.batchTimeoutMs ≤ (received - processor.lastFlush).toNat

def receive (processor : UpdateProcessor) (update : ProjectionUpdate) : UpdateProcessor :=
  { processor with projections := processor.projections.receive update }

def flush (processor : UpdateProcessor) (calls : FlushCalls) (flushed : Instant) : UpdateProcessor :=
  match ProjectionStore.flushBatches calls processor.projections with
  | (.error _, projections) => { processor with projections, lastFlush := flushed }
  | (.ok (), projections) =>
    { projections, lastFlush := flushed
      flushes := processor.flushes ++ [(processor.projections.accountBatch, processor.projections.transactionBatch)] }

def step (config : ProjectionConfig) (processor : UpdateProcessor) (arrival : Arrival) : UpdateProcessor :=
  let processor := processor.receive arrival.update
  if processor.isDue config arrival.received then processor.flush arrival.calls arrival.flushed else processor

end UpdateProcessor

def ProjectionStore.updateProcessor (config : ProjectionConfig) (processor : UpdateProcessor)
    (arrivals : List Arrival) :
    UpdateProcessor := arrivals.foldl (UpdateProcessor.step config) processor

end BankingEs
