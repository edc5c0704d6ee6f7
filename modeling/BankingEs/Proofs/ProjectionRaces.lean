import BankingEs.Async.Interference
import BankingEs.Projections.Calls
import BankingEs.Proofs.ProjectionUpserts

/-! Reads of the projections while `update_processor` flushes. The copies in memory agree with the
tables as long as no account is flushed between the query of a read and its copy, and a flush copies
its rows as the table holds them. -/

namespace BankingEs.Proofs.ProjectionRaces
open Async ProjectionCalls ProjectionWorld ProjectionTables ProjectionUpserts

/-- Each copy in memory is what the tables hold for its account. -/
structure Coherent (tables : ProjectionTables) (cache : ProjectionCache) : Prop where
  accounts : ∀ id entry, cache.accounts id = some entry → tables.accounts id = some entry.data
  transactions : ∀ id entry, cache.transactions id = some entry →
    entry.data = selectTransactions id tables.transactions

/-- The world, and which accounts are in use: `fetched` is what a task has queried and has yet to put
in the cache, `flushed` what the flush under way has put there and has yet to commit. -/
structure Race (ι : Type) where
  world : ProjectionWorld
  fetched : Option ι → Option Uuid := fun _ => none
  flushed : List Uuid := []

namespace Race
variable {ι : Type}

def fetchedAfter [DecidableEq ι] (race : Race ι) (thread : Option ι) {β : Type} :
    ProjectionCall β → β → Option ι → Option Uuid
  | .fetchAccount accountId, found =>
    Function.update race.fetched thread (found.toOption.join.map fun _ => accountId)
  | .cacheAccount _ _, _ => Function.update race.fetched thread none
  | _, _ => race.fetched

def flushedAfter (race : Race ι) {β : Type} : ProjectionCall β → List Uuid
  | .insertAccounts accounts => accounts.map AccountProjection.id
  | .rollback => []
  | .commit => []
  | _ => race.flushed

/-- No account is queried while a flush is about to commit it, and none is put in the cache by a flush
while a read is about to. -/
def Apart (race : Race ι) {β : Type} : ProjectionCall β → Prop
  | .fetchAccount accountId => accountId ∉ race.flushed
  | .insertAccounts accounts => ∀ account ∈ accounts, ∀ thread, race.fetched thread ≠ some account.id
  | _ => True

/-- A flush puts its rows in the cache as the table will hold them. -/
def AsStored (race : Race ι) {β : Type} : ProjectionCall β → Prop
  | .insertAccounts accounts => ∀ account ∈ accounts, account.stored = account ∧
      ∀ old, race.world.tables.accounts account.id = some old → old.createdAt = account.createdAt
  | _ => True

/-- What the copies stand for: the tables, and what the flush under way will commit of the accounts
that it has put in the cache. -/
def copies (race : Race ι) : ProjectionTables :=
  { race.world.tables with accounts := fun id =>
      if id ∈ race.flushed then (race.world.tx.getD race.world.tables).accounts id
      else race.world.tables.accounts id }

end Race

def Succeeds {β : Type} : ProjectionCall β → β → Prop
  | .begin, reply => reply = .ok ()
  | .bulkUpsertAccounts _, reply => reply = .ok ()
  | .bulkInsertTransactions _, reply => reply = .ok ()
  | .commit, reply => reply = .ok ()
  | _, _ => True

section Serves
variable {ι : Type} [DecidableEq ι]

def racing (thread : Option ι) : Serves ProjectionCall (Race ι) := fun before op reply after =>
  serves before.world op reply after.world ∧ Succeeds op reply ∧
    after.fetched = before.fetchedAfter thread op reply ∧ after.flushed = before.flushedAfter op

def orderly (thread : Option ι) : Serves ProjectionCall (Race ι) := fun before op reply after =>
  before.Apart op ∧ before.AsStored op ∧ racing thread before op reply after

end Serves

section Cache
variable {cache : ProjectionCache} {id : Uuid}

private theorem insertAccounts_entry {accessed : Nat → Instant} {accounts : List AccountProjection}
    {entry : ProjectionEntry AccountProjection} (found : (cache.insertAccounts accessed accounts).accounts id = some entry) :
    (entry.data ∈ accounts ∧ entry.data.id = id) ∨
      ((∀ account ∈ accounts, account.id ≠ id) ∧ cache.accounts id = some entry) := by
  induction accounts using List.reverseRecOn with
  | nil => exact .inr ⟨fun _ impossible => absurd impossible List.not_mem_nil, found⟩
  | append_singleton accounts account ih =>
    rw [insertAccounts_concat, Function.update_apply] at found
    split at found
    next same =>
      cases found
      exact .inl ⟨List.mem_append_right _ (List.mem_singleton_self account), same.symm⟩
    next other =>
      rcases ih found with ⟨member, same⟩ | ⟨others, old⟩
      · exact .inl ⟨List.mem_append_left _ member, same⟩
      · refine .inr ⟨?_, old⟩
        intro row member
        rcases List.mem_append.mp member with member | member
        · exact others row member
        · obtain rfl := List.mem_singleton.mp member
          exact Ne.symm other

private theorem insertAccounts_transactions (accessed : Nat → Instant) (accounts : List AccountProjection) :
    (cache.insertAccounts accessed accounts).transactions = cache.transactions := by
  unfold ProjectionCache.insertAccounts
  generalize accounts.zipIdx = rows
  induction rows generalizing cache with
  | nil => rfl
  | cons row rows ih => exact ih

end Cache

section Tables
variable {tables changed : ProjectionTables} {accounts : List AccountProjection}

private theorem upsertStatement_taken (statement : tables.upsertStatement accounts = .ok changed) :
    Distinct accounts ∧ changed = tables.upsertAtOnce accounts ∧ changed = accounts.foldl upsertAccount tables := by
  rcases upsertStatement_cases tables accounts with ⟨distinct, _, answered⟩ | ⟨_, error, refused⟩
  · have same := Except.ok.inj (statement.symm.trans answered)
    exact ⟨distinct, same.trans (upsertAtOnce_eq_foldl distinct).symm, same⟩
  · rw [refused] at statement
    cases statement

private theorem upsertAtOnce_other {id : Uuid} (others : id ∉ accounts.map AccountProjection.id) :
    (tables.upsertAtOnce accounts).accounts id = tables.accounts id := by
  have absent : (accounts.find? fun account => account.id = id) = none := by
    apply List.find?_eq_none.mpr
    intro account member
    simpa using fun same => others (List.mem_map.mpr ⟨account, member, same⟩)
  rw [upsertAtOnce]
  dsimp only
  rw [absent]

private theorem find_distinct (distinct : Distinct accounts) {account : AccountProjection}
    (member : account ∈ accounts) :
    (accounts.find? fun row => row.id = account.id) = some account := by
  induction accounts with
  | nil => cases member
  | cons first accounts ih =>
    obtain ⟨others, distinct⟩ := distinct_cons.mp distinct
    rcases List.mem_cons.mp member with rfl | member
    · exact List.find?_cons_of_pos (by simp)
    · rw [List.find?_cons_of_neg (by simpa using Ne.symm (others account member))]
      exact ih distinct member

private theorem upserted_as_stored {old : Option AccountProjection} {account : AccountProjection}
    (stored : account.stored = account) (created : ∀ row, old = some row → row.createdAt = account.createdAt) :
    upserted old account = account := by
  cases old with
  | none => exact stored
  | some row => rw [upserted, stored, created row rfl]

private theorem upsertAtOnce_row (distinct : Distinct accounts) {account : AccountProjection}
    (member : account ∈ accounts)
    (stored : account.stored = account)
    (created : ∀ old, tables.accounts account.id = some old → old.createdAt = account.createdAt) :
    (tables.upsertAtOnce accounts).accounts account.id = some account := by
  rw [upsertAtOnce]
  dsimp only
  rw [find_distinct distinct member]
  exact congrArg some (upserted_as_stored stored created)

end Tables

section Alone
variable {world : ProjectionWorld} {tx : ProjectionTables}

/-- What a stage of a flush that is not interrupted has done, as the world shows it. -/
structure Did (ended : Except SqlxError ProjectionTables × Projections) (result : Except SqlxError Unit)
    (after : ProjectionWorld) : Prop where
  result : result = ended.1.map fun _ => ()
  tx : ∀ tx, ended.1 = .ok tx → after.tx = some tx
  tables : ended.2.tables = after.tables
  cache : ended.2.cache = after.cache

private theorem upsertStatement_ok {accounts : List AccountProjection} {changed : ProjectionTables}
    (statement : tx.upsertStatement accounts = .ok changed) : changed = accounts.foldl upsertAccount tx := by
  obtain ⟨_, _, answered⟩ := upsertStatement_taken statement
  exact answered

private theorem flushAccounts_error {calls : FlushCalls} {projections : Projections} {error : SqlxError}
    {after : ProjectionWorld} (filled : ¬projections.accountBatch.isEmpty) (answered : calls.upsert = .error error)
    (tables : projections.tables = after.tables) (cache : projections.cache = after.cache) :
    Did (ProjectionStore.flushAccounts calls tx projections) (.error error) after := by
  rw [ProjectionStore.flushAccounts, if_neg filled, ProjectionStore.bulkUpsertAccounts, if_neg filled, answered]
  exact ⟨rfl, fun tx impossible => (by cases impossible), tables, cache⟩

private theorem flushAccounts_alone {projections : Projections} (isOpen : world.tx = some tx)
    (tables : projections.tables = world.tables) (cache : projections.cache = world.cache) :
    Returns (serves) (fun result after => ∃ answer accessed, ∀ calls : FlushCalls, calls.upsert = answer →
      calls.accessed = accessed → Did (ProjectionStore.flushAccounts calls tx projections) result after)
      (flushAccounts projections.accountBatch) world := by
  unfold flushAccounts
  split
  next empty =>
    refine ⟨.ok (), fun _ => 0, fun calls _ _ => ?_⟩
    rw [ProjectionStore.flushAccounts, if_pos empty]
    exact ⟨rfl, fun tx same => isOpen.trans (congrArg some (Except.ok.inj same)), tables, cache⟩
  next filled =>
    intro reply after served
    obtain ⟨now, _, step⟩ := served
    cases step with
    | @done open' changed isOpen' answer =>
      obtain rfl := Option.some.inj (isOpen.symm.trans isOpen')
      intro _ after served
      obtain ⟨now, _, accessed, rfl⟩ := served
      refine ⟨.ok (), accessed, fun calls answered accessed => ?_⟩
      rw [ProjectionStore.flushAccounts, if_neg filled, ProjectionStore.bulkUpsertAccounts, if_neg filled, answered]
      refine ⟨rfl, ?_, tables, ?_⟩
      · intro tx same
        exact congrArg some ((upsertStatement_ok answer).trans (Except.ok.inj same))
      · simp [Except.map, accessed, cache]
    | fails error =>
      intro _ after served
      obtain ⟨now, _, rfl⟩ := served
      exact ⟨.error error, fun _ => 0, fun calls answered _ => flushAccounts_error filled answered tables cache⟩

private theorem flushTransactions_alone (transactions : List TransactionProjection) :
    Returns (serves) (fun result after => ∃ answer, ∀ (calls : FlushCalls) tx projections,
      calls.insert = answer → world.tx = some tx → projections.transactionBatch = transactions →
      projections.tables = world.tables → projections.cache = world.cache →
      Did (ProjectionStore.flushTransactions calls tx projections) result after)
      (flushTransactions transactions) world := by
  unfold flushTransactions
  split
  next empty =>
    refine ⟨.ok (), ?_⟩
    intro calls tx projections _ isOpen batch tables cache
    rw [ProjectionStore.flushTransactions, batch, if_pos empty]
    exact ⟨rfl, fun tx same => isOpen.trans (congrArg some (Except.ok.inj same)), tables, cache⟩
  next filled =>
    intro reply after served
    obtain ⟨now, _, step⟩ := served
    cases step with
    | done isOpen' answer => cases answer
    | fails error =>
      intro _ after served
      obtain ⟨now, _, rfl⟩ := served
      refine ⟨.error error, ?_⟩
      intro calls tx projections answered isOpen batch tables cache
      rw [ProjectionStore.flushTransactions, batch, if_neg filled, ProjectionStore.bulkInsertTransactions,
        if_neg filled, answered]
      exact ⟨rfl, fun tx impossible => (by cases impossible), tables, cache⟩

private theorem flushAccounts_transactionBatch (calls : FlushCalls) (projections : Projections) :
    (ProjectionStore.flushAccounts calls tx projections).2.transactionBatch = projections.transactionBatch := by
  unfold ProjectionStore.flushAccounts
  split
  next => rfl
  next =>
    split
    next => rfl
    next => rfl

/-- The stages of a flush, put together. -/
theorem flushBatches_stages {calls : FlushCalls} {projections : Projections} {result : Except SqlxError Unit}
    {middle after : ProjectionWorld} (begun : calls.begin = .ok ())
    (accounts : Did (ProjectionStore.flushAccounts calls projections.tables projections) (.ok ()) middle)
    (transactions : ∀ tx stage, middle.tx = some tx → stage.transactionBatch = projections.transactionBatch →
      stage.tables = middle.tables → stage.cache = middle.cache →
      Did (ProjectionStore.flushTransactions calls tx stage) result after) :
    ∃ ended : Except SqlxError ProjectionTables × Projections, Did ended result after ∧
      ProjectionStore.flushBatches calls projections = match ended with
        | (.error error, stage) => (.error error, stage)
        | (.ok tx, stage) => match calls.commit with
          | .error error => (.error error, stage)
          | .ok () => (.ok (), { stage with tables := tx }) := by
  have batch := @flushAccounts_transactionBatch projections.tables calls projections
  unfold ProjectionStore.flushBatches
  rw [begun]
  dsimp only
  generalize ProjectionStore.flushAccounts calls projections.tables projections = stage at accounts batch ⊢
  obtain ⟨result, stage⟩ := stage
  cases result with
  | error error => cases accounts.result
  | ok tx => exact ⟨_, transactions tx stage (accounts.tx tx rfl) batch accounts.tables accounts.cache, rfl⟩

private theorem flushBatches_refused {calls : FlushCalls} {projections : Projections} {error : SqlxError}
    {after : ProjectionWorld} (begun : calls.begin = .ok ())
    (accounts : Did (ProjectionStore.flushAccounts calls projections.tables projections) (.error error) after) :
    ∃ stage, ProjectionStore.flushBatches calls projections = (.error error, stage) ∧
      stage.tables = after.tables ∧ stage.cache = after.cache := by
  unfold ProjectionStore.flushBatches
  rw [begun]
  dsimp only
  generalize ProjectionStore.flushAccounts calls projections.tables projections = stage at accounts ⊢
  obtain ⟨result, stage⟩ := stage
  cases result with
  | ok tx => cases accounts.result
  | error error =>
    cases accounts.result
    exact ⟨stage, rfl, accounts.tables, accounts.cache⟩

/-- A flush that is not interrupted is the flush as one step, for what its calls were answered. -/
theorem flushBatches_alone (projections : Projections) (tables : projections.tables = world.tables)
    (cache : projections.cache = world.cache) :
    Returns (serves) (fun result after => ∃ calls stage,
      ProjectionStore.flushBatches calls projections = (result, stage) ∧
      stage.tables = after.tables ∧ stage.cache = after.cache)
      (flushBatches projections.accountBatch projections.transactionBatch) world := by
  intro reply begun served
  obtain ⟨now, _, step⟩ := served
  rcases step with ⟨rfl, rfl⟩ | ⟨⟨error, rfl⟩, rfl⟩
  · have accounts := @flushAccounts_alone { world with now, tx := some world.tables } projections.tables projections
      (congrArg some tables.symm) tables cache
    refine accounts.andThen ?_ ?_
    · intro error after done
      obtain ⟨upsert, accessed, done⟩ := done
      exact ⟨{ upsert, accessed }, flushBatches_refused rfl (done { upsert, accessed } rfl rfl)⟩
    · intro _ middle done
      obtain ⟨upsert, accessed, accountsDone⟩ := done
      refine (flushTransactions_alone projections.transactionBatch).andThen ?_ ?_
      · intro error after done
        obtain ⟨insert, done⟩ := done
        obtain ⟨⟨result, stage⟩, did, flushed⟩ := @flushBatches_stages { upsert, accessed, insert } _ _ _ _ rfl
          (accountsDone _ rfl rfl) fun tx stage => done _ tx stage rfl
        cases result with
        | ok tx => cases did.result
        | error error =>
          cases did.result
          exact ⟨_, stage, flushed, did.tables, did.cache⟩
      · intro _ ready done
        obtain ⟨insert, done⟩ := done
        intro reply after served
        obtain ⟨now, _, step⟩ := served
        obtain ⟨⟨result, stage⟩, did, flushed⟩ := @flushBatches_stages { upsert, accessed, insert, commit := reply } _ _ _ _
          rfl (accountsDone _ rfl rfl) fun tx stage => done _ tx stage rfl
        cases result with
        | error error => cases did.result
        | ok tx =>
          cases step with
          | done isOpen =>
            obtain rfl := Option.some.inj ((did.tx tx rfl).symm.trans isOpen)
            exact ⟨_, _, flushed, rfl, did.cache⟩
          | fails error => exact ⟨_, stage, flushed, did.tables, did.cache⟩
  · exact ⟨{ begin := .error error }, projections, rfl, tables, cache⟩

end Alone

section Relations
variable {ι : Type}

def Keeps (before after : Race ι) : Prop :=
  Coherent before.copies before.world.cache → Coherent after.copies after.world.cache

/-- What a read leaves to the flush. -/
structure Quiet (before after : Race ι) : Prop where
  tables : after.world.tables = before.world.tables
  tx : after.world.tx = before.world.tx
  flushed : after.flushed = before.flushed

/-- What a task that has queried an account can rely on until it has put it in the cache. -/
structure Spares (thread : Option ι) (before after : Race ι) : Prop where
  fetched : after.fetched thread = before.fetched thread
  accounts : ∀ id, before.fetched thread = some id → after.copies.accounts id = before.copies.accounts id
  transactions : after.copies.transactions = before.copies.transactions

private theorem Quiet.copies {before after : Race ι} (quiet : Quiet before after) : after.copies = before.copies := by
  rw [Race.copies, Race.copies, quiet.tables, quiet.tx, quiet.flushed]

private theorem keeps_of_same {before after : Race ι} (copies : after.copies = before.copies)
    (cache : after.world.cache = before.world.cache) : Keeps before after := by
  unfold Keeps
  rw [copies, cache]
  exact id

private theorem spares_of_same {thread : Option ι} {before after : Race ι} (copies : after.copies = before.copies)
    (fetched : after.fetched thread = before.fetched thread) : Spares thread before after :=
  ⟨fetched, fun _ _ => by rw [copies], by rw [copies]⟩

structure FlushStep (before after : Race ι) : Prop where
  keeps : Keeps before after
  spares : ∀ thread, Spares thread before after

structure ReadStep (thread : Option ι) (before after : Race ι) : Prop where
  quiet : Quiet before after
  keeps : Keeps before after
  others : ∀ other, other ≠ thread → after.fetched other = before.fetched other

private theorem flushStep_of_same {before after : Race ι} (copies : after.copies = before.copies)
    (cache : after.world.cache = before.world.cache) (fetched : after.fetched = before.fetched) :
    FlushStep before after :=
  ⟨keeps_of_same copies cache, fun _ => spares_of_same copies (congrFun fetched _)⟩

end Relations

section FlushSteps
variable {ι : Type} {race before after : Race ι} {tx tables : ProjectionTables}

/-- The flush has put nothing in the cache that is not committed. -/
structure Clean (tx : Option ProjectionTables) (tables : ProjectionTables) (race : Race ι) : Prop where
  tx : race.world.tx = tx
  tables : race.world.tables = tables
  flushed : race.flushed = []

structure Ready (tx : ProjectionTables) (race : Race ι) : Prop where
  pending : race.world.tx = some tx
  copies : race.copies = tx

private theorem Clean.relied {tx : Option ProjectionTables} (quiet : Quiet before after)
    (clean : Clean tx tables before) :
    Clean tx tables after :=
  ⟨quiet.tx.trans clean.tx, quiet.tables.trans clean.tables, quiet.flushed.trans clean.flushed⟩

private theorem Ready.relied (quiet : Quiet before after) (ready : Ready tx before) : Ready tx after :=
  ⟨quiet.tx.trans ready.pending, quiet.copies.trans ready.copies⟩

private theorem Clean.copies {tx : Option ProjectionTables} (clean : Clean tx tables race) : race.copies = tables := by
  simp [Race.copies, clean.flushed, clean.tables]

private theorem executed {statement : ProjectionTables → Except SqlxError ProjectionTables}
    {world changed : ProjectionWorld}
    (executes : Executes statement world (.ok ()) changed) :
    ∃ tx after, world.tx = some tx ∧ statement tx = .ok after ∧ changed = { world with tx := some after } := by
  cases executes with
  | done isOpen answer => exact ⟨_, _, isOpen, answer, rfl⟩

private theorem committed {world changed : ProjectionWorld} (commits : Commits world (.ok ()) changed) :
    ∃ tx, world.tx = some tx ∧ changed = { world with tables := tx, tx := none } := by
  cases commits with
  | done isOpen => exact ⟨_, isOpen, rfl⟩

/-- From its copies on, what the flush will commit is what the copies stand for. -/
theorem insertAccounts_copies {accounts : List AccountProjection}
    (statement : tables.upsertStatement accounts = .ok tx) (isOpen : race.world.tx = some tx)
    (stored : race.world.tables = tables) (flushed : race.flushed = accounts.map AccountProjection.id) :
    race.copies = tx := by
  obtain ⟨_, rfl, _⟩ := upsertStatement_taken statement
  rw [Race.copies, isOpen, stored, flushed]
  refine congrArg (fun accounts => ({ tables with accounts } : ProjectionTables)) (funext fun id => ?_)
  split
  next => rfl
  next others => exact (upsertAtOnce_other others).symm

variable [DecidableEq ι]

private theorem begin_step {reply : Except SqlxError Unit} (clean : Clean none tables before)
    (served : orderly none before .begin reply after) :
    FlushStep before after ∧ reply = .ok () ∧ Clean (some tables) tables after := by
  obtain ⟨_, _, ⟨now, _, step⟩, rfl, fetched, flushed⟩ := served
  rcases step with ⟨_, world⟩ | ⟨⟨_, impossible⟩, _⟩
  · have begun : Clean (some tables) tables after :=
      ⟨world ▸ congrArg some clean.tables, world ▸ clean.tables, flushed.trans clean.flushed⟩
    exact ⟨flushStep_of_same (begun.copies.trans clean.copies.symm) (world ▸ rfl) fetched, rfl, begun⟩
  · cases impossible

private theorem bulkUpsertAccounts_step {accounts : List AccountProjection} {reply : Except SqlxError Unit}
    (clean : Clean (some tables) tables before)
    (served : orderly none before (.bulkUpsertAccounts accounts) reply after) :
    FlushStep before after ∧ reply = .ok () ∧
      ∃ changed, tables.upsertStatement accounts = .ok changed ∧ Clean (some changed) tables after := by
  obtain ⟨_, _, ⟨now, _, step⟩, rfl, fetched, flushed⟩ := served
  obtain ⟨tx, changed, isOpen, answer, world⟩ := executed step
  obtain rfl := Option.some.inj (clean.tx.symm.trans isOpen)
  have upserted : Clean (some changed) tables after := ⟨world ▸ rfl, world ▸ clean.tables, flushed.trans clean.flushed⟩
  exact ⟨flushStep_of_same (upserted.copies.trans clean.copies.symm) (world ▸ rfl) fetched, rfl, changed, answer, upserted⟩

private theorem insertAccounts_step {accounts : List AccountProjection} {reply : Unit}
    (statement : tables.upsertStatement accounts = .ok tx) (clean : Clean (some tx) tables before)
    (served : orderly none before (.insertAccounts accounts) reply after) :
    FlushStep before after ∧ Ready tx after := by
  obtain ⟨apart, asStored, ⟨now, _, accessed, world⟩, _, fetched, flushed⟩ := served
  have isOpen : after.world.tx = some tx := world ▸ clean.tx
  have copies : after.copies = tx := insertAccounts_copies statement isOpen (world ▸ clean.tables) flushed
  obtain ⟨distinct, rfl, _⟩ := upsertStatement_taken statement
  refine ⟨⟨?_, ?_⟩, isOpen, copies⟩
  · intro coherent
    rw [clean.copies] at coherent
    rw [copies, world]
    refine ⟨?_, ?_⟩
    · intro id entry found
      rcases insertAccounts_entry found with ⟨member, rfl⟩ | ⟨others, old⟩
      · obtain ⟨stored, created⟩ := asStored _ member
        exact upsertAtOnce_row distinct member stored (clean.tables ▸ created)
      · have unnamed : id ∉ accounts.map AccountProjection.id := by
          intro named
          obtain ⟨account, member, same⟩ := List.mem_map.mp named
          exact others account member same
        rw [upsertAtOnce_other unnamed]
        exact coherent.accounts id entry old
    · intro id entry found
      rw [insertAccounts_transactions] at found
      exact coherent.transactions id entry found
  · intro thread
    refine ⟨congrFun fetched thread, ?_, ?_⟩
    · intro id reading
      rw [copies, clean.copies]
      apply upsertAtOnce_other
      intro named
      obtain ⟨account, member, rfl⟩ := List.mem_map.mp named
      exact apart account member thread reading
    · rw [copies, clean.copies]
      rfl

private theorem commit_step {reply : Except SqlxError Unit} (ready : Ready tx before)
    (served : orderly none before .commit reply after) : FlushStep before after ∧ Clean none tx after := by
  obtain ⟨_, _, ⟨now, _, step⟩, rfl, fetched, flushed⟩ := served
  obtain ⟨tx, isOpen, world⟩ := committed step
  obtain rfl := Option.some.inj (ready.pending.symm.trans isOpen)
  have rests : Clean none _ after :=
    ⟨congrArg ProjectionWorld.tx world, congrArg ProjectionWorld.tables world, flushed⟩
  exact ⟨flushStep_of_same (rests.copies.trans ready.copies.symm) (world ▸ rfl) fetched, rests⟩

end FlushSteps

section Flusher
variable {ι : Type} {race : Race ι} {tables : ProjectionTables}

/-- No flush is under way. -/
def Rests (race : Race ι) : Prop := ∃ tables, Clean none tables race

def Upserted (result : Except SqlxError Unit) (race : Race ι) : Prop := result = .ok () ∧ ∃ tx, Ready tx race

private theorem Rests.relied (before after : Race ι) (quiet : Quiet before after) (rests : Rests before) :
    Rests after := by
  obtain ⟨tables, clean⟩ := rests
  exact ⟨tables, clean.relied quiet⟩

private theorem Upserted.relied {result : Except SqlxError Unit} (before after : Race ι) (quiet : Quiet before after)
    (upserted : Upserted result before) : Upserted result after := by
  obtain ⟨succeeds, tx, ready⟩ := upserted
  exact ⟨succeeds, tx, ready.relied quiet⟩

variable [DecidableEq ι]

private theorem flushAccounts_guards (accounts : List AccountProjection) (clean : Clean (some tables) tables race) :
    Guards (orderly none) Quiet FlushStep Upserted (flushAccounts accounts) race := by
  unfold flushAccounts
  split
  next => exact Guards.pure ⟨rfl, tables, clean.tx, clean.copies⟩ Upserted.relied
  next =>
    refine Guards.request (fun _ _ => Clean.relied) ?_ clean
    intro before reply after clean served
    obtain ⟨step, rfl, changed, statement, clean⟩ := bulkUpsertAccounts_step clean served
    refine ⟨step, Guards.request (fun _ _ => Clean.relied) ?_ clean⟩
    intro before reply after clean served
    obtain ⟨step, ready⟩ := insertAccounts_step statement clean served
    exact ⟨step, Guards.pure ⟨rfl, changed, ready⟩ Upserted.relied⟩

/-- The tables take no transactions, so a flush that succeeds has none. -/
theorem flushTransactions_guards (transactions : List TransactionProjection) (upserted : Upserted (.ok ()) race) :
    Guards (orderly none) Quiet FlushStep Upserted (flushTransactions transactions) race := by
  unfold flushTransactions
  split
  next => exact Guards.pure upserted Upserted.relied
  next =>
    intro before reply after _ served
    obtain ⟨_, _, ⟨now, _, step⟩, rfl, _⟩ := served
    obtain ⟨_, _, _, refused, _⟩ := executed step
    cases refused

private theorem flushBatches_guards (accounts : List AccountProjection) (transactions : List TransactionProjection)
    (rests : Rests race) :
    Guards (orderly none) Quiet FlushStep (fun _ => Rests) (flushBatches accounts transactions) race := by
  obtain ⟨tables, clean⟩ := rests
  refine Guards.request (fun _ _ => Clean.relied) ?_ clean
  intro before reply after clean served
  obtain ⟨step, rfl, clean⟩ := begin_step clean served
  refine ⟨step, (flushAccounts_guards accounts clean).andThen (fun _ _ failed => by cases failed.1) ?_⟩
  intro _ race upserted
  refine (flushTransactions_guards transactions upserted).andThen (fun _ _ failed => by cases failed.1) ?_
  intro _ race ready
  obtain ⟨_, tx, ready⟩ := ready
  refine Guards.request (fun _ _ => Ready.relied) ?_ ready
  intro before reply after ready served
  obtain ⟨step, clean⟩ := commit_step ready served
  exact ⟨step, Guards.pure ⟨tx, clean⟩ Rests.relied⟩

private theorem updateProcessor_guards (flushes : List (List AccountProjection × List TransactionProjection))
    (rests : Rests race) : Guards (orderly none) Quiet FlushStep (fun _ => Rests) (updateProcessor flushes) race := by
  induction flushes generalizing race with
  | nil => exact Guards.pure rests Rests.relied
  | cons flush flushes ih =>
    apply (flushBatches_guards flush.1 flush.2 rests).bind
    intro _ now rests
    exact ih rests

end Flusher

section Reader
variable {ι : Type} {thread : Option ι} {race before after : Race ι} {id : Uuid}

private theorem coherent_cacheAccount {copies : ProjectionTables} {world : ProjectionWorld}
    {account : AccountProjection}
    (current : copies.accounts id = some account) (coherent : Coherent copies world.cache) :
    Coherent copies (world.cacheAccount id account).cache := by
  refine ⟨?_, coherent.transactions⟩
  intro other entry found
  dsimp only [cacheAccount] at found
  rw [Function.update_apply] at found
  split at found
  next same =>
    cases found
    rw [same, current]
  next => exact coherent.accounts other entry found

private theorem coherent_cacheTransactions {copies : ProjectionTables} {world : ProjectionWorld}
    {transactions : List TransactionProjection} (current : transactions = selectTransactions id copies.transactions)
    (coherent : Coherent copies world.cache) : Coherent copies (world.cacheTransactions id transactions).cache := by
  refine ⟨coherent.accounts, ?_⟩
  intro other entry found
  dsimp only [cacheTransactions] at found
  rw [Function.update_apply] at found
  split at found
  next same =>
    cases found
    rw [same, current]
  next => exact coherent.transactions other entry found

structure Fetched (thread : Option ι) (id : Uuid) (account : AccountProjection) (race : Race ι) : Prop where
  fetched : race.fetched thread = some id
  row : race.copies.accounts id = some account

private theorem Fetched.relied {account : AccountProjection} (spares : Spares thread before after)
    (fetched : Fetched thread id account before) : Fetched thread id account after :=
  ⟨spares.fetched.trans fetched.fetched, (spares.accounts id fetched.fetched).trans fetched.row⟩

variable [DecidableEq ι]

private theorem looks {β : Type} {op : ProjectionCall β} {reply : β} {now : Instant}
    (world : after.world = { before.world with now }) (flushed : after.flushed = before.flushed)
    (fetched : after.fetched = before.fetchedAfter thread op reply)
    (others : ∀ other, other ≠ thread → before.fetchedAfter thread op reply other = before.fetched other) :
    ReadStep thread before after := by
  have quiet : Quiet before after := ⟨world ▸ rfl, world ▸ rfl, flushed⟩
  exact ⟨quiet, keeps_of_same quiet.copies (world ▸ rfl), fun other different => (congrFun fetched other).trans (others other different)⟩

private theorem fetchAccount_step {reply : Except SqlxError (Option AccountProjection)}
    (served : orderly thread before (.fetchAccount id) reply after) :
    ReadStep thread before after ∧ ∀ account, reply = .ok (some account) → Fetched thread id account after := by
  obtain ⟨apart, _, ⟨now, _, replied, world⟩, _, fetched, flushed⟩ := served
  have step : ReadStep thread before after := by
    refine looks world flushed fetched ?_
    intro other different
    exact Function.update_of_ne different _ _
  refine ⟨step, ?_⟩
  rintro account rfl
  refine ⟨by rw [fetched]; exact Function.update_self _ _ _, ?_⟩
  rw [step.quiet.copies, Race.copies]
  dsimp only
  rw [if_neg (show id ∉ before.flushed from apart)]
  rcases replied with found | ⟨error, impossible⟩
  · exact (Except.ok.inj found).symm
  · cases impossible

private theorem cacheAccount_step {account : AccountProjection} {reply : Unit}
    (fetches : Fetched thread id account before)
    (served : orderly thread before (.cacheAccount id account) reply after) : ReadStep thread before after := by
  obtain ⟨_, _, ⟨now, _, world⟩, _, fetched, flushed⟩ := served
  have quiet : Quiet before after := ⟨world ▸ rfl, world ▸ rfl, flushed⟩
  refine ⟨quiet, ?_, ?_⟩
  · intro coherent
    rw [quiet.copies, world]
    exact coherent_cacheAccount fetches.row coherent
  · intro other different
    exact (congrFun fetched other).trans (Function.update_of_ne different _ _)

private theorem cacheTransactions_step {transactions : List TransactionProjection} {reply : Unit}
    (current : transactions = selectTransactions id before.copies.transactions)
    (served : orderly thread before (.cacheTransactions id transactions) reply after) : ReadStep thread before after := by
  obtain ⟨_, _, ⟨now, _, world⟩, _, fetched, flushed⟩ := served
  have quiet : Quiet before after := ⟨world ▸ rfl, world ▸ rfl, flushed⟩
  refine ⟨quiet, ?_, fun other _ => congrFun fetched other⟩
  intro coherent
  rw [quiet.copies, world]
  exact coherent_cacheTransactions current coherent

private theorem returns {α : Type} (value : α) : Guards (orderly thread) (Spares thread) (ReadStep thread)
    (fun _ _ => True) (.pure value) race :=
  Guards.pure trivial fun _ _ _ _ => trivial

private theorem getAccount_guards (id : Uuid) :
    Guards (orderly thread) (Spares thread) (ReadStep thread) (fun _ _ => True) (getAccount id) race := by
  intro before reply after _ served
  obtain ⟨_, _, ⟨now, _, _, world⟩, _, fetched, flushed⟩ := served
  refine ⟨looks world flushed fetched fun _ _ => rfl, ?_⟩
  cases reply with
  | some account => exact returns _
  | none =>
    intro before reply after _ served
    obtain ⟨step, fetches⟩ := fetchAccount_step served
    refine ⟨step, ?_⟩
    rcases reply with _ | _ | account
    · exact returns _
    · exact returns _
    · refine Guards.request (fun _ _ => Fetched.relied) ?_ (fetches account rfl)
      intro before reply after fetches served
      exact ⟨cacheAccount_step fetches served, returns _⟩

private theorem getAccountTransactions_guards (id : Uuid) :
    Guards (orderly thread) (Spares thread) (ReadStep thread) (fun _ _ => True) (getAccountTransactions id) race := by
  intro before reply after _ served
  obtain ⟨_, _, ⟨now, _, _, world⟩, _, fetched, flushed⟩ := served
  refine ⟨looks world flushed fetched fun _ _ => rfl, ?_⟩
  cases reply with
  | some transactions => exact returns _
  | none =>
    intro before reply after _ served
    obtain ⟨_, _, ⟨now, _, replied, world⟩, _, fetched, flushed⟩ := served
    have step : ReadStep thread before after := looks world flushed fetched fun _ _ => rfl
    refine ⟨step, ?_⟩
    rcases reply with _ | transactions
    · exact returns _
    · have selected : transactions = selectTransactions id after.copies.transactions := by
        rcases replied with found | ⟨error, impossible⟩
        · rw [step.quiet.copies]
          exact Except.ok.inj found
        · cases impossible
      have relied : ∀ before after : Race ι, Spares thread before after →
          transactions = selectTransactions id before.copies.transactions →
          transactions = selectTransactions id after.copies.transactions := by
        intro before after spares selected
        rw [spares.transactions]
        exact selected
      refine Guards.request relied ?_ selected
      intro before reply after selected served
      exact ⟨cacheTransactions_step selected served, returns _⟩

private theorem read_guards (read : ProjectionRead) :
    Guards (orderly thread) (Spares thread) (ReadStep thread) (fun _ _ => True) (ProjectionCalls.read read) race := by
  cases read with
  | account id => exact (getAccount_guards id).bind fun _ _ _ => returns ()
  | transactions id => exact (getAccountTransactions_guards id).bind fun _ _ _ => returns ()

end Reader

section Runs
variable {ι : Type}

def rely : Option ι → Race ι → Race ι → Prop
  | none => Quiet
  | some thread => Spares (some thread)

def guarantee : Option ι → Race ι → Race ι → Prop
  | none => FlushStep
  | some thread => ReadStep (some thread)

def post : Option ι → Unit → Race ι → Prop
  | none => fun _ => Rests
  | some _ => fun _ _ => True

private theorem guarantee_keeps (thread : Option ι) {before after : Race ι}
    (guarantee : guarantee thread before after) :
    Keeps before after := by
  cases thread with
  | none => exact guarantee.keeps
  | some thread => exact guarantee.keeps

private theorem guarantee_relied (thread other : Option ι) (before after : Race ι) (different : thread ≠ other)
    (guarantee : guarantee thread before after) : rely other before after := by
  cases thread with
  | none =>
    cases other with
    | none => exact absurd rfl different
    | some other => exact guarantee.spares (some other)
  | some thread =>
    cases other with
    | none => exact guarantee.quiet
    | some other => exact spares_of_same guarantee.quiet.copies (guarantee.others _ (Ne.symm different))

private theorem task_guards [DecidableEq ι] (reads : ι → ProjectionRead)
    (flushes : List (List AccountProjection × List TransactionProjection)) {race : Race ι} (rests : Rests race)
    (thread : Option ι) :
    Guards (orderly thread) (rely thread) (guarantee thread) (post thread) (task reads flushes thread) race := by
  cases thread with
  | none => exact updateProcessor_guards flushes rests
  | some thread => exact read_guards (reads thread)

/-- However the reads and the flushes interleave, if no account is flushed between the query of a read
and its copy, and the flushes succeed and copy their rows as the table holds them, then the copies are
those of the committed rows once every task has finished. -/
theorem copies_stay_coherent [DecidableEq ι] (reads : ι → ProjectionRead)
    (flushes : List (List AccountProjection × List TransactionProjection)) (first : ProjectionWorld)
    (idle : first.tx = none) (coherent : Coherent first.tables first.cache)
    {history : List (Served (Option ι) ProjectionCall (Race ι))} {threads : Option ι → Program ProjectionCall Unit}
    {last : Race ι} (run : Interleaves orderly (task reads flushes) { world := first } history threads last)
    (finished : ∀ thread, threads thread = .pure ()) : Coherent last.world.tables last.world.cache := by
  have clean : Clean none first.tables ({ world := first } : Race ι) := ⟨idle, rfl, rfl⟩
  obtain ⟨moves, guards⟩ := Interleaves.guards guarantee_relied (task_guards reads flushes ⟨_, clean⟩) run
  have kept : Coherent last.copies last.world.cache := by
    refine @preserved_by_steps _ _ (fun race => Coherent race.copies race.world.cache) _ _ ?_ moves ?_
    · intro before after step
      obtain ⟨thread, guarantee⟩ := step
      exact guarantee_keeps thread guarantee
    · rw [clean.copies]
      exact coherent
  have flusher := guards none
  rw [finished none] at flusher
  obtain ⟨tables, rests⟩ : Rests last := flusher last .refl
  rwa [rests.copies, ← rests.tables] at kept

end Runs

def deposited : AccountProjection := { ProjectionFlush.row with balance := 10 }

def tasks : Option Bool → Program ProjectionCall Unit :=
  task (fun transactions => if transactions then .transactions ⟨1⟩ else .account ⟨1⟩) [([deposited], [])]

def stored : ProjectionWorld :=
  { tables.accounts := fun id => if id = ⟨1⟩ then some ProjectionFlush.row else none
    tables.transactions := [ProjectionFlush.deposit] }

private theorem races {ι β : Type} [DecidableEq ι] {thread : Option ι} {before : Race ι} {op : ProjectionCall β}
    {reply : β} {world : ProjectionWorld} (served : step before.world op reply world) (succeeds : Succeeds op reply) :
    racing thread before op reply ⟨world, before.fetchedAfter thread op reply, before.flushedAfter op⟩ :=
  ⟨⟨before.world.now, le_rfl, served⟩, succeeds, rfl, rfl⟩

private theorem deposited_fits : deposited.Fits := by decide +kernel

private theorem deposited_stored : deposited.stored = deposited := by decide +kernel

private theorem upserts {world : ProjectionWorld} (isOpen : world.tx = some stored.tables) :
    step world (.bulkUpsertAccounts [deposited]) (.ok ())
      { world with tx := some (stored.tables.upsertAccount deposited) } :=
  Executes.done isOpen (upsertStatement_eq_foldl (List.nodup_singleton _) (List.forall_mem_singleton.mpr deposited_fits))

private theorem commits {world : ProjectionWorld} {tx : ProjectionTables} (isOpen : world.tx = some tx) :
    step world .commit (.ok ()) { world with tables := tx, tx := none } :=
  Commits.done isOpen

private theorem upserted_row : (stored.tables.upsertAccount deposited).accounts ⟨1⟩ = some deposited := by
  decide +kernel

/-- The reads query the tables and fill the cache while the flush is open and before it fills the cache. -/
theorem early_reads_coherent : ∃ history threads last,
    Interleaves orderly tasks { world := stored } history threads last ∧
    (last.world.cache.accounts ⟨1⟩).map ProjectionEntry.data = some deposited ∧
    (last.world.cache.transactions ⟨1⟩).map ProjectionEntry.data = some [ProjectionFlush.deposit] ∧
    Coherent last.world.tables last.world.cache := by
  have run : Interleaves orderly tasks { world := stored } [] tasks _ := .start
  have run := Interleaves.serve none (.ok ()) run rfl ⟨trivial, trivial, races (.inl ⟨rfl, rfl⟩) (by rfl)⟩
  have run := Interleaves.serve (some false) none run rfl ⟨trivial, trivial, races ⟨rfl, rfl⟩ trivial⟩
  have run := Interleaves.serve (some false) _ run rfl ⟨List.not_mem_nil, trivial, races ⟨.inl rfl, rfl⟩ trivial⟩
  have run := Interleaves.serve none (.ok ()) run rfl ⟨trivial, trivial, races (upserts rfl) (by rfl)⟩
  have run := Interleaves.serve (some true) none run rfl ⟨trivial, trivial, races ⟨rfl, rfl⟩ trivial⟩
  have run := Interleaves.serve (some true) _ run rfl ⟨trivial, trivial, races ⟨.inl rfl, rfl⟩ trivial⟩
  have run := Interleaves.serve (some false) () run rfl ⟨trivial, trivial, races rfl trivial⟩
  have run := Interleaves.serve none () run rfl
    ⟨List.forall_mem_singleton.mpr fun thread => by rcases thread with _ | _ | _ <;> simp [Race.fetchedAfter],
      List.forall_mem_singleton.mpr ⟨deposited_stored, fun old found => by cases found; rfl⟩,
      races ⟨fun _ => 0, rfl⟩ trivial⟩
  have run := Interleaves.serve none (.ok ()) run rfl ⟨trivial, trivial, races (commits rfl) (by rfl)⟩
  have run := Interleaves.serve (some true) () run rfl ⟨trivial, trivial, races rfl trivial⟩
  refine ⟨_, _, _, run, rfl, rfl, copies_stay_coherent _ _ stored rfl ⟨?_, ?_⟩ run ?_⟩
  · intro id entry impossible
    cases impossible
  · intro id entry impossible
    cases impossible
  · intro thread
    rcases thread with _ | _ | _
    · rfl
    · rfl
    · rfl

def reader : Option Unit → Program ProjectionCall Unit := task (fun _ => .account ⟨1⟩) [([deposited], [])]

/-- The read asks the table before the flush and fills the cache after it. -/
theorem late_read_goes_stale : ∃ history threads last,
    Interleaves racing reader { world := stored } history threads last ∧
    (∀ thread, threads thread = .pure ()) ∧
    ProjectionCache.live last.world.now (last.world.cache.accounts ⟨1⟩) = some ProjectionFlush.row ∧
    last.world.tables.accounts ⟨1⟩ = some deposited := by
  have run : Interleaves racing reader { world := stored } [] reader _ := .start
  have run := Interleaves.serve (some ()) none run rfl (races ⟨rfl, rfl⟩ trivial)
  have run := Interleaves.serve (some ()) _ run rfl (races ⟨.inl rfl, rfl⟩ trivial)
  have run := Interleaves.serve none (.ok ()) run rfl (races (.inl ⟨rfl, rfl⟩) (by rfl))
  have run := Interleaves.serve none (.ok ()) run rfl (races (upserts rfl) (by rfl))
  have run := Interleaves.serve none () run rfl (races ⟨fun _ => 0, rfl⟩ trivial)
  have run := Interleaves.serve none (.ok ()) run rfl (races (commits rfl) (by rfl))
  have run := Interleaves.serve (some ()) () run rfl (races rfl trivial)
  refine ⟨_, _, _, run, ?_, rfl, upserted_row⟩
  intro thread
  rcases thread with _ | _
  · rfl
  · rfl

end BankingEs.Proofs.ProjectionRaces
