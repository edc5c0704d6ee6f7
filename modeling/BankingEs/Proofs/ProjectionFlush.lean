import Mathlib.Data.List.Induction
import BankingEs.Projections.Flush

/-! What a flush of the projections leaves behind when it fails, and what `update_processor` leaves
unflushed when its channel is closed. A batch is drained as soon as its own statement is through,
and only a message starts a flush. -/

namespace BankingEs.Proofs.ProjectionFlush
open ProjectionStore

variable {calls : FlushCalls} {projections : Projections} {tx : ProjectionTables}

/-- The accounts of the batch are in the cache and no longer in the batch. -/
def cached (calls : FlushCalls) (projections : Projections) : Projections :=
  { projections with
    accountBatch := [], cache := projections.cache.insertAccounts calls.accessed projections.accountBatch }

def drained (projections : Projections) : Projections :=
  { projections with
    transactionBatch := [], cache := projections.cache.removeTransactions projections.transactionBatch }

private theorem cached_eq_iff : cached calls projections = projections ↔ projections.accountBatch = [] := by
  constructor
  · intro same
    exact (congrArg Projections.accountBatch same).symm
  · intro empty
    obtain ⟨tables, accounts, transactions, cache⟩ := projections
    obtain rfl : accounts = [] := empty
    rfl

private theorem drained_eq_iff : drained projections = projections ↔ projections.transactionBatch = [] := by
  constructor
  · intro same
    exact (congrArg Projections.transactionBatch same).symm
  · intro empty
    obtain ⟨tables, accounts, transactions, cache⟩ := projections
    obtain rfl : transactions = [] := empty
    rfl

/-- The tables with the rows of both batches. -/
def written (tables : ProjectionTables) (accounts : List AccountProjection)
    (transactions : List TransactionProjection) :
    ProjectionTables :=
  transactions.foldl ProjectionTables.insertTransaction (accounts.foldl ProjectionTables.upsertAccount tables)

inductive Flushes (calls : FlushCalls) (projections : Projections) : Except SqlxError Unit → Projections → Prop where
  | begin {error : SqlxError} (fails : calls.begin = .error error) : Flushes calls projections (.error error) projections
  | upsert {error : SqlxError} (begins : calls.begin = .ok ()) (waiting : projections.accountBatch ≠ [])
      (fails : calls.upsert = .error error) : Flushes calls projections (.error error) projections
  | insert {error : SqlxError} (begins : calls.begin = .ok ())
      (upserts : projections.accountBatch = [] ∨ calls.upsert = .ok ()) (waiting : projections.transactionBatch ≠ [])
      (fails : calls.insert = .error error) : Flushes calls projections (.error error) (cached calls projections)
  | commit {error : SqlxError} (begins : calls.begin = .ok ())
      (upserts : projections.accountBatch = [] ∨ calls.upsert = .ok ())
      (inserts : projections.transactionBatch = [] ∨ calls.insert = .ok ()) (fails : calls.commit = .error error) :
      Flushes calls projections (.error error) (drained (cached calls projections))
  | committed (begins : calls.begin = .ok ()) (upserts : projections.accountBatch = [] ∨ calls.upsert = .ok ())
      (inserts : projections.transactionBatch = [] ∨ calls.insert = .ok ()) (commits : calls.commit = .ok ()) :
      Flushes calls projections (.ok ()) { drained (cached calls projections) with
        tables := written projections.tables projections.accountBatch projections.transactionBatch }

/-- The account stage fails with its statement, or drains the batch. -/
theorem flushAccounts_cases (calls : FlushCalls) (tx : ProjectionTables) (projections : Projections) :
    (∃ error, flushAccounts calls tx projections = (.error error, projections) ∧
      projections.accountBatch ≠ [] ∧ calls.upsert = .error error) ∨
    (flushAccounts calls tx projections =
      (.ok (projections.accountBatch.foldl ProjectionTables.upsertAccount tx), cached calls projections) ∧
      (projections.accountBatch = [] ∨ calls.upsert = .ok ())) := by
  unfold flushAccounts bulkUpsertAccounts
  by_cases empty : projections.accountBatch = []
  · right
    refine ⟨?_, .inl empty⟩
    rw [cached_eq_iff.mpr empty, empty]
    rfl
  · have filled : ¬projections.accountBatch.isEmpty = true := by simpa using empty
    rw [if_neg filled, if_neg filled]
    cases calls.upsert with
    | error error => exact .inl ⟨error, rfl, empty, rfl⟩
    | ok done => exact .inr ⟨rfl, .inr rfl⟩

private theorem flushTransactions_cases (calls : FlushCalls) (tx : ProjectionTables) (projections : Projections) :
    (∃ error, flushTransactions calls tx projections = (.error error, projections) ∧
      projections.transactionBatch ≠ [] ∧ calls.insert = .error error) ∨
    (flushTransactions calls tx projections =
      (.ok (projections.transactionBatch.foldl ProjectionTables.insertTransaction tx), drained projections) ∧
      (projections.transactionBatch = [] ∨ calls.insert = .ok ())) := by
  unfold flushTransactions bulkInsertTransactions
  by_cases empty : projections.transactionBatch = []
  · right
    refine ⟨?_, .inl empty⟩
    rw [drained_eq_iff.mpr empty, empty]
    rfl
  · have filled : ¬projections.transactionBatch.isEmpty = true := by simpa using empty
    rw [if_neg filled, if_neg filled]
    cases calls.insert with
    | error error => exact .inl ⟨error, rfl, empty, rfl⟩
    | ok done => exact .inr ⟨rfl, .inr rfl⟩

theorem flushBatches_flushes (calls : FlushCalls) (projections : Projections) :
    Flushes calls projections (flushBatches calls projections).1 (flushBatches calls projections).2 := by
  unfold flushBatches
  cases begins : calls.begin with
  | error error => exact .begin begins
  | ok done =>
    dsimp only
    rcases flushAccounts_cases calls projections.tables projections with ⟨error, stage, waiting, fails⟩ | ⟨stage, upserts⟩
    · rw [stage]
      exact .upsert begins waiting fails
    rw [stage]
    dsimp only
    rcases flushTransactions_cases calls (projections.accountBatch.foldl ProjectionTables.upsertAccount projections.tables)
      (cached calls projections) with ⟨error, stage, waiting, fails⟩ | ⟨stage, inserts⟩
    · rw [stage]
      exact .insert begins upserts waiting fails
    rw [stage]
    dsimp only
    cases commits : calls.commit with
    | error error => exact .commit begins upserts inserts commits
    | ok done => exact .committed begins upserts inserts commits

/-- A call that fails. -/
def Fails (answer : Except SqlxError Unit) : Prop := ∃ error, answer = .error error

theorem not_fails {answer : Except SqlxError Unit} (succeeds : answer = .ok ()) : ¬Fails answer := by
  rintro ⟨error, fails⟩
  rw [succeeds] at fails
  cases fails

/-- A flush that fails leaves everything as it was exactly if no statement of it was through. -/
theorem failed_flush_unchanged_iff {error : SqlxError} (failed : (flushBatches calls projections).1 = .error error) :
    (flushBatches calls projections).2 = projections ↔
      Fails calls.begin ∨ (projections.accountBatch ≠ [] ∧ Fails calls.upsert) ∨
        (projections.accountBatch = [] ∧ (projections.transactionBatch = [] ∨ Fails calls.insert)) := by
  have flushes := flushBatches_flushes calls projections
  rw [failed] at flushes
  generalize (flushBatches calls projections).2 = after at flushes
  cases flushes with
  | begin fails => exact ⟨fun _ => .inl ⟨error, fails⟩, fun _ => rfl⟩
  | upsert begins waiting fails => exact ⟨fun _ => .inr (.inl ⟨waiting, error, fails⟩), fun _ => rfl⟩
  | insert begins upserts waiting fails =>
    rw [cached_eq_iff]
    constructor
    · intro empty
      exact .inr (.inr ⟨empty, .inr ⟨error, fails⟩⟩)
    · intro condition
      rcases condition with begin | ⟨filled, upsert⟩ | ⟨empty, _⟩
      · exact absurd begin (not_fails begins)
      · exact upserts.resolve_right fun succeeds => not_fails succeeds upsert
      · exact empty
  | commit begins upserts inserts fails =>
    constructor
    · intro same
      have accounts : [] = projections.accountBatch := congrArg Projections.accountBatch same
      have transactions : [] = projections.transactionBatch := congrArg Projections.transactionBatch same
      exact .inr (.inr ⟨accounts.symm, .inl transactions.symm⟩)
    · intro condition
      rcases condition with begin | ⟨filled, upsert⟩ | ⟨accounts, transactions⟩
      · exact absurd begin (not_fails begins)
      · exact absurd (upserts.resolve_right fun succeeds => not_fails succeeds upsert) filled
      · rw [cached_eq_iff.mpr accounts, drained_eq_iff]
        rcases transactions with empty | insert
        · exact empty
        · exact inserts.resolve_right fun succeeds => not_fails succeeds insert

def row : AccountProjection := Sample.row ⟨1⟩ 5

def deposit : TransactionProjection :=
  { id := ⟨2⟩, accountId := ⟨1⟩, transactionType := "MoneyDeposited", amount := 5, timestamp := 0 }

def waiting : Projections :=
  { tables.accounts := fun id => if id = ⟨1⟩ then some { row with balance := 0 } else none
    accountBatch := [row]
    transactionBatch := [deposit]
    cache.accounts := fun id => if id = ⟨1⟩ then some ⟨{ row with balance := 0 }, 0, 300⟩ else none }

theorem failed_upsert_unchanged : (flushBatches { upsert := .error .rowNotFound } waiting).2 = waiting ∧
    (flushBatches { upsert := .error .rowNotFound } waiting).1 = .error .rowNotFound :=
  ⟨(failed_flush_unchanged_iff rfl).mpr (.inr (.inl ⟨List.cons_ne_nil _ _, .rowNotFound, rfl⟩)), rfl⟩

/-- When the insert of the transactions fails, the account has left its batch for the cache and
is not in its table. -/
theorem failed_insert_drops_account : ∃ after,
    flushBatches { insert := .error .rowNotFound } { accountBatch := [row], transactionBatch := [deposit] } =
      (.error .rowNotFound, after) ∧
    after.accountBatch = [] ∧ after.tables.accounts ⟨1⟩ = none ∧
    (after.cache.accounts ⟨1⟩).map ProjectionEntry.data = some row := ⟨_, rfl, rfl, rfl, rfl⟩

section Processor
variable {config : ProjectionConfig} {processor : UpdateProcessor} {arrival : Arrival} {arrivals : List Arrival}

def accountsOf : ProjectionUpdate → List AccountProjection
  | .accountBatch accounts => accounts
  | .transactionBatch _ => []

def transactionsOf : ProjectionUpdate → List TransactionProjection
  | .accountBatch _ => []
  | .transactionBatch transactions => transactions

/-- A message without rows. -/
def Bare (update : ProjectionUpdate) : Prop := accountsOf update = [] ∧ transactionsOf update = []

theorem receive_accountBatch (projections : Projections) (update : ProjectionUpdate) :
    (projections.receive update).accountBatch = projections.accountBatch ++ accountsOf update := by
  cases update with
  | accountBatch accounts => rfl
  | transactionBatch transactions => exact (List.append_nil _).symm

private theorem receive_transactionBatch (projections : Projections) (update : ProjectionUpdate) :
    (projections.receive update).transactionBatch = projections.transactionBatch ++ transactionsOf update := by
  cases update with
  | accountBatch accounts => exact (List.append_nil _).symm
  | transactionBatch transactions => rfl

/-- A flush is recorded exactly if it is committed. -/
theorem flush_ends (processor : UpdateProcessor) (calls : FlushCalls) (flushed : Instant) :
    ∃ result, Flushes calls processor.projections result (processor.flush calls flushed).projections ∧
      (processor.flush calls flushed).flushes = match result with
        | .error _ => processor.flushes
        | .ok () => processor.flushes ++ [(processor.projections.accountBatch, processor.projections.transactionBatch)] := by
  unfold UpdateProcessor.flush
  have flushes := flushBatches_flushes calls processor.projections
  generalize flushBatches calls processor.projections = ended at flushes
  obtain ⟨result, after⟩ := ended
  cases result with
  | error error => exact ⟨.error error, flushes, rfl⟩
  | ok done => exact ⟨.ok (), flushes, rfl⟩

theorem receive_tables (processor : UpdateProcessor) (update : ProjectionUpdate) :
    (processor.receive update).projections.tables = processor.projections.tables := by
  cases update with
  | accountBatch accounts => rfl
  | transactionBatch transactions => rfl

private theorem step_tables (config : ProjectionConfig) (processor : UpdateProcessor) (arrival : Arrival) :
    ∃ more, (processor.step config arrival).flushes = processor.flushes ++ more ∧
      (processor.step config arrival).projections.tables =
        more.foldl (fun tables flush => written tables flush.1 flush.2) processor.projections.tables := by
  rw [← receive_tables processor arrival.update]
  unfold UpdateProcessor.step
  dsimp only
  split
  next =>
    obtain ⟨result, flushes, recorded⟩ := flush_ends (processor.receive arrival.update) arrival.calls arrival.flushed
    generalize ((processor.receive arrival.update).flush arrival.calls arrival.flushed).projections = after at flushes
    rw [recorded]
    cases flushes with
    | begin fails => exact ⟨[], (List.append_nil _).symm, rfl⟩
    | upsert begins waiting fails => exact ⟨[], (List.append_nil _).symm, rfl⟩
    | insert begins upserts waiting fails => exact ⟨[], (List.append_nil _).symm, rfl⟩
    | commit begins upserts inserts fails => exact ⟨[], (List.append_nil _).symm, rfl⟩
    | committed begins upserts inserts commits => exact ⟨_, rfl, rfl⟩
  next => exact ⟨[], (List.append_nil _).symm, rfl⟩

/-- The tables are what the committed flushes have made of them, whichever flushes fail. -/
theorem tables_follow_flushes (config : ProjectionConfig) (processor : UpdateProcessor) (arrivals : List Arrival) :
    ∃ more, (updateProcessor config processor arrivals).flushes = processor.flushes ++ more ∧
      (updateProcessor config processor arrivals).projections.tables =
        more.foldl (fun tables flush => written tables flush.1 flush.2) processor.projections.tables := by
  induction arrivals generalizing processor with
  | nil => exact ⟨[], (List.append_nil _).symm, rfl⟩
  | cons arrival arrivals ih =>
    obtain ⟨first, flushes, tables⟩ := step_tables config processor arrival
    obtain ⟨more, laterFlushes, laterTables⟩ := ih (processor.step config arrival)
    refine ⟨first ++ more, ?_, ?_⟩
    · rw [← List.append_assoc, ← flushes]
      exact laterFlushes
    · rw [List.foldl_append, ← tables]
      exact laterTables

structure Succeeds (calls : FlushCalls) : Prop where
  begin : calls.begin = .ok ()
  upsert : calls.upsert = .ok ()
  insert : calls.insert = .ok ()
  commit : calls.commit = .ok ()

private theorem flush_succeeds {flushed : Instant} (succeeds : Succeeds calls) :
    (processor.flush calls flushed).projections.accountBatch = [] ∧
      (processor.flush calls flushed).projections.transactionBatch = [] ∧
      (processor.flush calls flushed).flushes = processor.flushes ++
        [(processor.projections.accountBatch, processor.projections.transactionBatch)] := by
  obtain ⟨result, flushes, recorded⟩ := flush_ends processor calls flushed
  rw [recorded]
  generalize (processor.flush calls flushed).projections = after at flushes
  cases flushes with
  | begin fails => exact absurd ⟨_, fails⟩ (not_fails succeeds.begin)
  | upsert begins waiting fails => exact absurd ⟨_, fails⟩ (not_fails succeeds.upsert)
  | insert begins upserts waiting fails => exact absurd ⟨_, fails⟩ (not_fails succeeds.insert)
  | commit begins upserts inserts fails => exact absurd ⟨_, fails⟩ (not_fails succeeds.commit)
  | committed begins upserts inserts commits => exact ⟨rfl, rfl, rfl⟩

/-- A message is followed by a flush. -/
def Due (config : ProjectionConfig) (processor : UpdateProcessor) (arrival : Arrival) : Prop :=
  (processor.receive arrival.update).isDue config arrival.received = true

theorem step_due (due : Due config processor arrival) : processor.step config arrival =
    (processor.receive arrival.update).flush arrival.calls arrival.flushed := if_pos due

theorem step_waits (waits : ¬Due config processor arrival) :
    processor.step config arrival = processor.receive arrival.update := if_neg waits

/-- What was flushed and what still waits are, in order, all that came in. -/
structure Keeps (start : UpdateProcessor) (arrivals : List Arrival) (last : UpdateProcessor) : Prop where
  accounts : last.flushes.flatMap Prod.fst ++ last.projections.accountBatch =
    start.flushes.flatMap Prod.fst ++ start.projections.accountBatch ++
      arrivals.flatMap fun arrival => accountsOf arrival.update
  transactions : last.flushes.flatMap Prod.snd ++ last.projections.transactionBatch =
    start.flushes.flatMap Prod.snd ++ start.projections.transactionBatch ++
      arrivals.flatMap fun arrival => transactionsOf arrival.update

private theorem step_keeps (succeeds : Succeeds arrival.calls) : Keeps processor [arrival]
    (processor.step config arrival) := by
  by_cases due : Due config processor arrival
  · obtain ⟨accounts, transactions, flushes⟩ :=
      @flush_succeeds arrival.calls (processor.receive arrival.update) arrival.flushed succeeds
    rw [step_due due]
    refine ⟨?_, ?_⟩
    · rw [accounts, flushes]
      simp [UpdateProcessor.receive, receive_accountBatch]
    · rw [transactions, flushes]
      simp [UpdateProcessor.receive, receive_transactionBatch]
  · rw [step_waits due]
    refine ⟨?_, ?_⟩
    · simp [UpdateProcessor.receive, receive_accountBatch]
    · simp [UpdateProcessor.receive, receive_transactionBatch]

private theorem updateProcessor_keeps (succeeds : ∀ arrival ∈ arrivals, Succeeds arrival.calls) :
    Keeps processor arrivals (updateProcessor config processor arrivals) := by
  induction arrivals generalizing processor with
  | nil => exact ⟨(List.append_nil _).symm, (List.append_nil _).symm⟩
  | cons arrival arrivals ih =>
    obtain ⟨first, rest⟩ := List.forall_mem_cons.mp succeeds
    have one : Keeps processor [arrival] (processor.step config arrival) := step_keeps first
    have all : Keeps (processor.step config arrival) arrivals
      (updateProcessor config processor (arrival :: arrivals)) := ih rest
    refine ⟨?_, ?_⟩
    · rw [all.accounts, one.accounts]
      simp
    · rw [all.transactions, one.transactions]
      simp

/-- The last message with rows, or one after it, is followed by a flush. -/
def Settled (config : ProjectionConfig) (processor : UpdateProcessor) (arrivals : List Arrival) : Prop :=
  (∀ arrival ∈ arrivals, Bare arrival.update) ∨
    ∃ before arrival after, arrivals = before ++ arrival :: after ∧
      Due config (updateProcessor config processor before) arrival ∧ ∀ later ∈ after, Bare later.update

private theorem settled_concat : Settled config processor (arrivals ++ [arrival]) ↔
    Due config (updateProcessor config processor arrivals) arrival ∨
      (Settled config processor arrivals ∧ Bare arrival.update) := by
  constructor
  · rintro (bare | ⟨before, other, after, split, due, bare⟩)
    · obtain ⟨earlier, last⟩ := List.forall_mem_append.mp bare
      exact .inr ⟨.inl earlier, last arrival (List.mem_singleton_self arrival)⟩
    · rcases List.eq_nil_or_concat after with rfl | ⟨rest, last, rfl⟩
      · obtain ⟨rfl, same⟩ := List.append_inj' split rfl
        obtain rfl := List.singleton_inj.mp same
        exact .inl due
      · rw [List.concat_eq_append, ← List.cons_append, ← List.append_assoc] at split
        obtain ⟨rfl, same⟩ := List.append_inj' split rfl
        obtain rfl := List.singleton_inj.mp same
        obtain ⟨earlier, last⟩ := List.forall_mem_append.mp (List.concat_eq_append ▸ bare)
        exact .inr ⟨.inr ⟨before, other, rest, rfl, due, earlier⟩, last arrival (List.mem_singleton_self arrival)⟩
  · rintro (due | ⟨bare | ⟨before, other, after, rfl, due, bare⟩, last⟩)
    · exact .inr ⟨arrivals, arrival, [], rfl, due, fun _ member => absurd member List.not_mem_nil⟩
    · exact .inl (List.forall_mem_append.mpr ⟨bare, List.forall_mem_singleton.mpr last⟩)
    · refine .inr ⟨before, other, after ++ [arrival], by simp, due, ?_⟩
      exact List.forall_mem_append.mpr ⟨bare, List.forall_mem_singleton.mpr last⟩

private theorem nothing_waits_iff (accounts : processor.projections.accountBatch = [])
    (transactions : processor.projections.transactionBatch = []) (succeeds : ∀ arrival ∈ arrivals, Succeeds arrival.calls) :
    ((updateProcessor config processor arrivals).projections.accountBatch = [] ∧
      (updateProcessor config processor arrivals).projections.transactionBatch = []) ↔
      Settled config processor arrivals := by
  induction arrivals using List.reverseRecOn with
  | nil => exact ⟨fun _ => .inl fun _ member => absurd member List.not_mem_nil, fun _ => ⟨accounts, transactions⟩⟩
  | append_singleton arrivals arrival ih =>
    obtain ⟨earlier, last⟩ := List.forall_mem_append.mp succeeds
    have last := last arrival (List.mem_singleton_self arrival)
    have stepped : updateProcessor config processor (arrivals ++ [arrival]) =
        (updateProcessor config processor arrivals).step config arrival := List.foldl_concat ..
    rw [stepped, settled_concat, ← ih earlier]
    by_cases due : Due config (updateProcessor config processor arrivals) arrival
    · rw [step_due due]
      obtain ⟨accounts, transactions, _⟩ := @flush_succeeds arrival.calls
        ((updateProcessor config processor arrivals).receive arrival.update) arrival.flushed last
      exact ⟨fun _ => .inl due, fun _ => ⟨accounts, transactions⟩⟩
    · rw [step_waits due]
      simp only [UpdateProcessor.receive, receive_accountBatch, receive_transactionBatch, List.append_eq_nil_iff, due,
        false_or, Bare]
      exact and_and_and_comm

/-- With every call of the database answered with `Ok`, the rows of the committed flushes are, in
order, the rows that came in exactly if the last message with rows, or one after it, is followed
by a flush. -/
theorem rows_flushed_iff {tables : ProjectionTables} {cache : ProjectionCache} {lastFlush : Instant}
    (succeeds : ∀ arrival ∈ arrivals, Succeeds arrival.calls) :
    ((updateProcessor config { projections := { tables, cache }, lastFlush } arrivals).flushes.flatMap Prod.fst =
        arrivals.flatMap (fun arrival => accountsOf arrival.update) ∧
      (updateProcessor config { projections := { tables, cache }, lastFlush } arrivals).flushes.flatMap Prod.snd =
        arrivals.flatMap fun arrival => transactionsOf arrival.update) ↔
      Settled config { projections := { tables, cache }, lastFlush } arrivals := by
  have keeps : Keeps { projections := { tables, cache }, lastFlush } arrivals
    (updateProcessor config { projections := { tables, cache }, lastFlush } arrivals) := updateProcessor_keeps succeeds
  have accounts := keeps.accounts
  have transactions := keeps.transactions
  simp only [List.flatMap_nil, List.nil_append] at accounts transactions
  rw [← nothing_waits_iff rfl rfl succeeds, ← accounts, ← transactions, List.self_eq_append_right, List.self_eq_append_right]

end Processor

/-- A message with one account, received when twenty milliseconds are not yet over. -/
def early : Arrival := { update := .accountBatch [row], received := 1000000, flushed := 1000000 }

/-- A batch size of one lets no message wait. -/
theorem single_row_flushed :
    (updateProcessor { batchSize := 1 } {} [early]).flushes.flatMap Prod.fst = [row] ∧
      (updateProcessor { batchSize := 1 } {} [early]).flushes.flatMap Prod.snd = [] := by
  have succeeds : ∀ arrival ∈ [early], Succeeds arrival.calls := List.forall_mem_singleton.mpr ⟨rfl, rfl, rfl, rfl⟩
  have settled : Settled { batchSize := 1 } {} [early] :=
    .inr ⟨[], early, [], rfl, rfl, fun _ member => absurd member List.not_mem_nil⟩
  exact (rows_flushed_iff succeeds).mpr settled

/-- With the default configuration the row of a last message stays in its batch. -/
theorem last_row_left_behind : (updateProcessor {} {} [early]).projections.accountBatch = [row] ∧
    (updateProcessor {} {} [early]).flushes = [] := ⟨rfl, rfl⟩

end BankingEs.Proofs.ProjectionFlush
