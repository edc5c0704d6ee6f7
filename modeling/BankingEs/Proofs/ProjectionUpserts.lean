import BankingEs.Proofs.ProjectionFlush

/-! Accounts that are upserted in one statement, against the same accounts upserted one after
another. PostgreSQL refuses a statement that names an id twice, and a batch that is refused
stays in the buffer with whatever is added to it. -/

namespace BankingEs.Proofs.ProjectionUpserts
open ProjectionStore ProjectionTables ProjectionFlush

variable {tables : ProjectionTables} {accounts : List AccountProjection} {projections : Projections}
  {accessed : Nat → Instant} {id : Uuid}

/-- No account is in the list twice. -/
def Distinct (accounts : List AccountProjection) : Prop := (accounts.map AccountProjection.id).Nodup

theorem distinct_cons {account : AccountProjection} :
    Distinct (account :: accounts) ↔ (∀ other ∈ accounts, other.id ≠ account.id) ∧ Distinct accounts := by
  simp [Distinct]

private theorem upsertAccount_accounts (account : AccountProjection) : (tables.upsertAccount account).accounts =
    Function.update tables.accounts account.id (some (upserted (tables.accounts account.id) account)) := rfl

/-- With distinct ids it makes no difference whether a row meets the table as it was before the
statement or with the rows before it. -/
theorem upsertAtOnce_eq_foldl (distinct : Distinct accounts) :
    tables.upsertAtOnce accounts = accounts.foldl upsertAccount tables := by
  induction accounts generalizing tables with
  | nil => rfl
  | cons account accounts ih =>
    obtain ⟨others, distinct⟩ := distinct_cons.mp distinct
    rw [List.foldl_cons, ← ih distinct, upsertAtOnce, upsertAtOnce, ProjectionTables.mk.injEq]
    refine ⟨funext fun id => ?_, rfl⟩
    by_cases same : account.id = id
    · have absent : (accounts.find? fun row => row.id = id) = none := by
        apply List.find?_eq_none.mpr
        intro other member
        simpa [← same] using others other member
      rw [absent]
      simp [upsertAccount_accounts, same]
    · simp [upsertAccount_accounts, same, Ne.symm same]

/-- The statement is answered with `Ok` exactly if its ids are distinct and its rows fit. -/
theorem upsertStatement_cases (tables : ProjectionTables) (accounts : List AccountProjection) :
    (Distinct accounts ∧ (∀ account ∈ accounts, account.Fits) ∧
      tables.upsertStatement accounts = .ok (accounts.foldl upsertAccount tables)) ∨
    ¬(Distinct accounts ∧ ∀ account ∈ accounts, account.Fits) ∧
      ∃ error, tables.upsertStatement accounts = .error error := by
  unfold upsertStatement
  split
  next account misfit =>
    have unfit : ¬account.Fits := by simpa using List.find?_some misfit
    exact .inr ⟨fun both => unfit (both.2 account (List.mem_of_find?_eq_some misfit)), _, rfl⟩
  next none =>
    have fits : ∀ account ∈ accounts, account.Fits := by simpa using none
    by_cases distinct : Distinct accounts
    · refine .inl ⟨distinct, fits, ?_⟩
      rw [if_pos (show (accounts.map AccountProjection.id).Nodup from distinct), upsertAtOnce_eq_foldl distinct]
    · exact .inr ⟨fun both => distinct both.1, _, if_neg distinct⟩

theorem upsertStatement_eq_foldl (distinct : Distinct accounts) (fits : ∀ account ∈ accounts, account.Fits) :
    tables.upsertStatement accounts = .ok (accounts.foldl upsertAccount tables) := by
  rcases upsertStatement_cases tables accounts with ⟨_, _, statement⟩ | ⟨refused, _⟩
  · exact statement
  · exact absurd ⟨distinct, fits⟩ refused

section Flushes

/-- What the tables take: distinct accounts that fit, and no transactions. -/
structure Accepted (projections : Projections) : Prop where
  distinct : Distinct projections.accountBatch
  fits : ∀ account ∈ projections.accountBatch, account.Fits
  transactions : projections.transactionBatch = []

private theorem flush_accepted (accepted : Accepted projections) :
    flushBatches (.faultless projections accessed) projections =
      (.ok (), { drained (cached (.faultless projections accessed) projections) with
        tables := written projections.tables projections.accountBatch projections.transactionBatch }) := by
  have upserts : (FlushCalls.faultless projections accessed).upsert = .ok () := by
    rw [FlushCalls.faultless, upsertStatement_eq_foldl accepted.distinct accepted.fits]
    rfl
  have flushes := flushBatches_flushes (.faultless projections accessed) projections
  generalize flushBatches (.faultless projections accessed) projections = ended at flushes ⊢
  obtain ⟨result, after⟩ := ended
  cases flushes with
  | begin fails => cases fails
  | upsert begins waiting fails => exact absurd ⟨_, fails⟩ (not_fails upserts)
  | insert begins upserts waiting fails => exact absurd accepted.transactions waiting
  | commit begins upserts inserts fails => cases fails
  | committed begins upserts inserts commits => rfl

private theorem accepted_of_flushed {after : Projections}
    (flushed : flushBatches (.faultless projections accessed) projections = (.ok (), after)) : Accepted projections := by
  have flushes := flushBatches_flushes (.faultless projections accessed) projections
  rw [flushed] at flushes
  cases flushes with
  | committed begins upserts inserts commits =>
    have transactions := inserts.resolve_right fun inserted => by cases inserted
    rcases upsertStatement_cases projections.tables projections.accountBatch with
      ⟨distinct, fits, _⟩ | ⟨refused, error, fails⟩
    · exact ⟨distinct, fits, transactions⟩
    · rw [FlushCalls.faultless, fails] at upserts
      have empty := upserts.resolve_right fun upserted => by cases upserted
      rw [empty] at refused
      exact absurd ⟨List.nodup_nil, fun _ impossible => absurd impossible List.not_mem_nil⟩ refused

end Flushes

section OneByOne

/-- A flush of one row by itself. -/
def flushRow (projections : Projections) (row : AccountProjection × Instant) : Projections :=
  let alone : Projections := { projections with accountBatch := [row.1], transactionBatch := [] }
  (flushBatches (.faultless alone fun _ => row.2) alone).2

/-- The rows flushed one after another, each at the time at which the batch would cache it. -/
def flushRows (accessed : Nat → Instant) (projections : Projections) (accounts : List AccountProjection) :
    Projections :=
  (accounts.zipIdx.map fun (account, index) => (account, accessed index)).foldl flushRow projections

private theorem flushRow_eq {row : AccountProjection × Instant} (fits : row.1.Fits) :
    flushRow projections row =
      { tables := projections.tables.upsertAccount row.1
        cache := projections.cache.insertAccounts (fun _ => row.2) [row.1] } := by
  have accepted : Accepted { projections with accountBatch := [row.1], transactionBatch := [] } :=
    ⟨List.nodup_singleton _, List.forall_mem_singleton.mpr fits, rfl⟩
  rw [flushRow, flush_accepted accepted]
  rfl

private theorem flushRows_tables (fits : ∀ account ∈ accounts, account.Fits) :
    (flushRows accessed projections accounts).tables = accounts.foldl upsertAccount projections.tables := by
  unfold flushRows
  generalize 0 = start
  induction accounts generalizing projections start with
  | nil => rfl
  | cons account accounts ih =>
    obtain ⟨fit, fits⟩ := List.forall_mem_cons.mp fits
    rw [List.zipIdx_cons, List.map_cons, List.foldl_cons, List.foldl_cons, ih fits, flushRow_eq fit]

private theorem flushRows_cache (fits : ∀ account ∈ accounts, account.Fits) :
    (flushRows accessed projections accounts).cache = projections.cache.insertAccounts accessed accounts := by
  unfold flushRows ProjectionCache.insertAccounts
  generalize 0 = start
  induction accounts generalizing projections start with
  | nil => rfl
  | cons account accounts ih =>
    obtain ⟨fit, fits⟩ := List.forall_mem_cons.mp fits
    rw [List.zipIdx_cons, List.map_cons, List.foldl_cons, List.foldl_cons, ih fits, flushRow_eq fit]
    rfl

/-- The last row of an account in the list. -/
def lastRow (accounts : List AccountProjection) (id : Uuid) : Option AccountProjection :=
  accounts.reverse.find? fun account => account.id = id

private theorem lastRow_concat (account : AccountProjection) :
    lastRow (accounts ++ [account]) id = if account.id = id then some account else lastRow accounts id := by
  rw [lastRow, List.reverse_append, List.reverse_singleton, List.singleton_append, List.find?_cons]
  by_cases same : account.id = id
  · simp [same]
  · simp [same, lastRow]

theorem insertAccounts_concat (cache : ProjectionCache) (account : AccountProjection) :
    (cache.insertAccounts accessed (accounts ++ [account])).accounts =
      Function.update (cache.insertAccounts accessed accounts).accounts account.id
        (some ⟨account, accessed accounts.length, Duration.fromSecs 300⟩) := by
  simp [ProjectionCache.insertAccounts, List.zipIdx_append]

/-- Where each row of a list in turn replaces what is kept for its account, the last one stays. -/
theorem lastRow_kept {β : Type} {account : AccountProjection} (kept : List AccountProjection → Uuid → Option β)
    (entry : List AccountProjection → AccountProjection → β)
    (replaces : ∀ accounts row,
      kept (accounts ++ [row]) = Function.update (kept accounts) row.id (some (entry accounts row)))
    (last : lastRow accounts id = some account) : ∃ earlier, kept accounts id = some (entry earlier account) := by
  induction accounts using List.reverseRecOn with
  | nil => cases last
  | append_singleton accounts row ih =>
    rw [lastRow_concat] at last
    rw [replaces, Function.update_apply]
    split at last
    next same =>
      cases last
      exact ⟨accounts, if_pos same.symm⟩
    next other =>
      rw [if_neg (Ne.symm other)]
      exact ih last

private theorem insertAccounts_last {cache : ProjectionCache} {account : AccountProjection}
    (last : lastRow accounts id = some account) :
    ((cache.insertAccounts accessed accounts).accounts id).map ProjectionEntry.data = some account := by
  obtain ⟨earlier, kept⟩ := lastRow_kept (fun accounts => (cache.insertAccounts accessed accounts).accounts)
    (fun accounts row => ⟨row, accessed accounts.length, Duration.fromSecs 300⟩)
    (fun accounts row => insertAccounts_concat cache row) last
  exact congrArg (Option.map ProjectionEntry.data) kept

private theorem upserts_last {account : AccountProjection} (last : lastRow accounts id = some account) :
    ∃ old, (accounts.foldl upsertAccount tables).accounts id = some (upserted old account) := by
  obtain ⟨earlier, kept⟩ := lastRow_kept (fun accounts => (accounts.foldl upsertAccount tables).accounts)
    (fun accounts row => upserted ((accounts.foldl upsertAccount tables).accounts row.id) row)
    (fun accounts row => by rw [List.foldl_concat, upsertAccount_accounts]) last
  exact ⟨_, kept⟩

end OneByOne

section Batches

private theorem flushed_cache_accounts (accepted : Accepted projections) :
    (drained (cached (.faultless projections accessed) projections)).cache.accounts =
      (projections.cache.insertAccounts accessed projections.accountBatch).accounts := by
  rw [drained, cached, accepted.transactions]
  rfl

private theorem written_accounts (accepted : Accepted projections) :
    (written projections.tables projections.accountBatch projections.transactionBatch).accounts =
      (projections.accountBatch.foldl upsertAccount projections.tables).accounts := by
  rw [written, accepted.transactions]
  rfl

/-- A flush that meets no fault does to the accounts and to their copies what flushing the rows one
after another would, the last row of an account winning, exactly if no account is in the batch twice,
the columns can hold every row, and no transaction waits. -/
theorem flush_upserts_iff (projections : Projections) (accessed : Nat → Instant) :
    (∃ after, flushBatches (.faultless projections accessed) projections = (.ok (), after) ∧
      after.tables.accounts = (flushRows accessed projections projections.accountBatch).tables.accounts ∧
      after.cache.accounts = (flushRows accessed projections projections.accountBatch).cache.accounts ∧
      ∀ id account, lastRow projections.accountBatch id = some account →
        (after.cache.accounts id).map ProjectionEntry.data = some account ∧
          ∃ old, after.tables.accounts id = some (upserted old account)) ↔
      (projections.accountBatch.map AccountProjection.id).Nodup ∧
        (∀ account ∈ projections.accountBatch, account.Fits) ∧ projections.transactionBatch = [] := by
  constructor
  · intro flushed
    obtain ⟨after, succeeds, _⟩ := flushed
    have accepted := accepted_of_flushed succeeds
    exact ⟨accepted.distinct, accepted.fits, accepted.transactions⟩
  · intro condition
    obtain ⟨distinct, fits, transactions⟩ := condition
    have accepted : Accepted projections := ⟨distinct, fits, transactions⟩
    refine ⟨_, flush_accepted accepted, ?_, ?_, ?_⟩
    · rw [flushRows_tables fits]
      exact written_accounts accepted
    · rw [flushRows_cache fits]
      exact flushed_cache_accounts accepted
    · intro id account last
      refine ⟨?_, ?_⟩
      · rw [flushed_cache_accounts accepted]
        exact insertAccounts_last last
      · rw [written_accounts accepted]
        exact upserts_last last

def twice : Projections := { accountBatch := [row, { row with balance := 7 }] }

/-- The flush of an account and of a later row for it fails, with no fault of the database. -/
theorem repeated_account_refused : ¬∃ after, flushBatches (.faultless twice fun _ => 0) twice = (.ok (), after) := by
  intro flushed
  obtain ⟨after, succeeds⟩ := flushed
  have distinct := (accepted_of_flushed succeeds).distinct
  exact (distinct_cons.mp distinct).1 { row with balance := 7 } (List.mem_singleton_self _) rfl

end Batches

section Processor
variable {config : ProjectionConfig} {processor : UpdateProcessor} {arrival : Arrival} {arrivals : List Arrival}

private theorem filled_of_repeats (repeats : ¬Distinct accounts) : accounts ≠ [] := by
  intro empty
  rw [empty] at repeats
  exact repeats List.nodup_nil

/-- A flush whose upsert is refused changes nothing. -/
theorem flush_refused {calls : FlushCalls} (filled : projections.accountBatch ≠ []) (refuses : Fails calls.upsert) :
    ∃ error, flushBatches calls projections = (.error error, projections) := by
  unfold flushBatches
  cases calls.begin with
  | error error => exact ⟨error, rfl⟩
  | ok done =>
    dsimp only
    rcases flushAccounts_cases calls projections.tables projections with ⟨error, stage, _⟩ | ⟨_, empty | upserts⟩
    · rw [stage]
      exact ⟨error, rfl⟩
    · exact absurd empty filled
    · exact absurd refuses (not_fails upserts)

/-- PostgreSQL refuses every upsert of the run that names an account twice. -/
def Refusing (config : ProjectionConfig) : UpdateProcessor → List Arrival → Prop
  | _, [] => True
  | processor, arrival :: arrivals =>
    (¬Distinct (processor.receive arrival.update).projections.accountBatch → Fails arrival.calls.upsert) ∧
      Refusing config (processor.step config arrival) arrivals

/-- The tables and the copies are as they were, and the buffer has only grown. -/
structure Blocked (before after : UpdateProcessor) : Prop where
  tables : after.projections.tables = before.projections.tables
  cache : after.projections.cache = before.projections.cache
  buffer : before.projections.accountBatch <+: after.projections.accountBatch

private theorem Blocked.refl (processor : UpdateProcessor) : Blocked processor processor := ⟨rfl, rfl, List.prefix_rfl⟩

private theorem Blocked.trans {first second third : UpdateProcessor} (blocked : Blocked first second)
    (more : Blocked second third) : Blocked first third :=
  ⟨more.tables.trans blocked.tables, more.cache.trans blocked.cache, blocked.buffer.trans more.buffer⟩

private theorem Blocked.repeats {before after : UpdateProcessor} (blocked : Blocked before after)
    (repeats : ¬Distinct before.projections.accountBatch) : ¬Distinct after.projections.accountBatch :=
  fun distinct => repeats (distinct.sublist (blocked.buffer.sublist.map _))

private theorem receive_blocked (processor : UpdateProcessor) (update : ProjectionUpdate) :
    Blocked processor (processor.receive update) := by
  refine ⟨receive_tables processor update, ?_, ?_⟩
  · cases update with
    | accountBatch accounts => rfl
    | transactionBatch transactions => rfl
  · have grows := receive_accountBatch processor.projections update
    exact grows ▸ List.prefix_append _ _

private theorem step_blocked (repeats : ¬Distinct processor.projections.accountBatch)
    (refuses : ¬Distinct (processor.receive arrival.update).projections.accountBatch → Fails arrival.calls.upsert) :
    Blocked processor (processor.step config arrival) := by
  have received := receive_blocked processor arrival.update
  have still := received.repeats repeats
  by_cases due : Due config processor arrival
  · rw [step_due due, UpdateProcessor.flush]
    obtain ⟨error, fails⟩ := flush_refused (filled_of_repeats still) (refuses still)
    rw [fails]
    exact ⟨received.tables, received.cache, received.buffer⟩
  · rw [step_waits due]
    exact received

/-- Once an account is in the buffer twice nothing is flushed any more, whatever arrives. -/
theorem repeated_account_blocks (repeats : ¬Distinct processor.projections.accountBatch)
    (refusing : Refusing config processor arrivals) : Blocked processor (updateProcessor config processor arrivals) := by
  induction arrivals generalizing processor with
  | nil => exact .refl processor
  | cons arrival arrivals ih =>
    obtain ⟨refuses, refusing⟩ := refusing
    have first : Blocked processor (processor.step config arrival) := step_blocked repeats refuses
    exact first.trans (ih (first.repeats repeats) refusing)

end Processor
end BankingEs.Proofs.ProjectionUpserts
