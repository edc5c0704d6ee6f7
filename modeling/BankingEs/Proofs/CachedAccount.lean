import BankingEs.Cache.Moves
import BankingEs.Proofs.AccountLog
import BankingEs.Proofs.Pipeline

/-! The account that the event processor caches and publishes. It is computed from the
projection row and the newest batch, and nothing writes the row in between. -/

namespace BankingEs.Proofs.CachedAccount
open Async AccountRepository BankingEs.Pipeline KafkaEventProcessor Pipeline

/-- The row equals the account, which alone has a version. -/
def Shows (row : AccountProjection) (account : Account) : Prop :=
  row.id = account.id ∧ row.ownerName = account.ownerName ∧ row.balance = account.balance ∧
    row.isActive = account.isActive

section Rows
variable {row updated : AccountProjection} {account : Account} {events : List AccountEvent}

def opens (events : List AccountEvent) : Bool := events.any fun event => event matches .accountCreated ..

def closes (events : List AccountEvent) : Bool := events.any fun event => event matches .accountClosed ..

theorem exists_applied (row : AccountProjection) (events : List AccountEvent) :
    ∃ updated, row.applyEvents events = .ok updated := by
  induction events generalizing row with
  | nil => exact ⟨row, rfl⟩
  | cons event events ih => exact ih _

private theorem applied_id (applied : row.applyEvents events = .ok updated) : updated.id = row.id := by
  induction events generalizing row with
  | nil =>
    cases applied
    rfl
  | cons event events ih =>
    rw [ih applied]
    cases event <;> rfl

private theorem updatedAccount_eq_iff (batch : EventBatch) :
    updatedAccount batch updated = account ↔
      Shows updated account ∧ batch.version + batch.events.length = account.version := by
  cases account
  simp [updatedAccount, Shows, and_assoc]

/-- Where a row and an account may differ for the events to make them equal: an opening
sets all there is, and a closing sets the flag. -/
theorem shows_applied_iff (applied : row.applyEvents events = .ok updated) :
    Shows updated (account.replay events) ↔ row.id = account.id ∧ (opens events ∨
      row.ownerName = account.ownerName ∧ row.balance = account.balance ∧
        (closes events ∨ row.isActive = account.isActive)) := by
  induction events generalizing row account with
  | nil =>
    cases applied
    simp [Shows, opens, closes]
  | cons event events ih =>
    rw [Account.replay_cons, ih applied]
    cases event <;> simp [opens, closes, Account.applyEvent, Account.applyEvent?, Account.change,
      AccountProjection.applyEvent?]

end Rows

variable {ι Value : Type} {codec : Codec Value} {env : Environment Value} {caller : ι} {id : Uuid} {row : AccountProjection}
  {before after : BankingEs.Pipeline ι Value} {batch : EventBatch}

/-- The projection store answers with this row, from its table or from its copy. -/
structure ReadsRow (id : Uuid) (row : AccountProjection) (pipeline : BankingEs.Pipeline ι Value) : Prop where
  stored : pipeline.world.accounts id = some row
  copied : ∀ entry, pipeline.projectionCache.accounts id = some entry → entry.data = row

def isProcessing {β : Type} : SystemCall Value β → Bool
  | .inl (.saveEvents _) => true
  | .inl (.projectionsGetAccount _) => true
  | .inl (.cacheSetAccount _ _) => true
  | .inr (.cacheSetAccountEvents _ _ _) => true
  | .inr (.sendCacheUpdate _ _) => true
  | _ => false

section Copies
variable {cache : ProjectionCache} (copied : ∀ entry, cache.accounts id = some entry → entry.data = row)
include copied

/-- A live copy and the table agree, so it does not matter which is read. -/
theorem getAccount_row {fetched : Except String (Option AccountProjection)} {now : Instant}
    {found : Option AccountProjection} {left : ProjectionCache}
    (answer : fetched = .ok (some row) ∨ ∃ error, fetched = .error error)
    (returned : cache.getAccount now fetched id = (.ok found, left)) : found = some row := by
  unfold ProjectionCache.getAccount at returned
  split at returned
  next account live =>
    obtain ⟨entry, kept, rfl⟩ := Option.map_eq_some_iff.mp live
    cases returned
    rw [copied entry (Option.filter_eq_some_iff.mp kept).1]
  next =>
    rcases answer with rfl | ⟨error, rfl⟩
    · cases returned
      rfl
    · cases returned

private theorem getAccount_copies {fetched reply : Except String (Option AccountProjection)} {now : Instant}
    {accountId : Uuid}
    {left : ProjectionCache} (answer : accountId = id → fetched = .ok (some row) ∨ ∃ error, fetched = .error error)
    (returned : cache.getAccount now fetched accountId = (reply, left)) {entry : ProjectionEntry AccountProjection}
    (held : left.accounts id = some entry) : entry.data = row := by
  unfold ProjectionCache.getAccount at returned
  split at returned
  next =>
    cases returned
    exact copied entry held
  next =>
    split at returned
    next =>
      cases returned
      exact copied entry held
    next =>
      cases returned
      exact copied entry held
    next account =>
      cases returned
      simp only [Function.update_apply] at held
      split at held
      next same =>
        cases held
        rcases answer same.symm with stored | ⟨_, failed⟩
        · cases stored
          rfl
        · cases failed
      next => exact copied entry held

end Copies

private theorem serves_readsRow {β : Type} {op : SystemCall Value β} {reply : β} (processing : isProcessing op)
    (served : serves (exactStore codec) env caller before op reply after) (reads : ReadsRow id row before) :
    ReadsRow id row after := by
  obtain ⟨ready, passes, served⟩ := served
  have stored : ready.accounts id = some row := by
    rw [(passes_unwritten passes).accounts]
    exact reads.stored
  cases op with
  | inl call =>
    cases call with
    | saveEvents request =>
      obtain ⟨world, saved, rfl⟩ := served
      exact ⟨by rwa [(exactStore_unwritten saved).accounts], reads.copied⟩
    | projectionsGetAccount accountId =>
      obtain ⟨fetched, answer, cache, returned, rfl⟩ := served
      refine ⟨stored, fun entry held => getAccount_copies reads.copied ?_ returned held⟩
      rintro rfl
      rw [← stored]
      exact World.answer_cases answer
    | cacheSetAccount account ttl =>
      obtain ⟨_, ⟨_, _, _, _, rfl⟩, rfl⟩ := served
      exact ⟨stored, reads.copied⟩
    | _ => cases processing
  | inr call =>
    cases call with
    | cacheSetAccountEvents accountId events ttl =>
      obtain ⟨_, _, _, _, rfl⟩ := served
      exact ⟨stored, reads.copied⟩
    | sendCacheUpdate accountId account =>
      rcases served with ⟨_, rfl⟩ | ⟨_, rfl⟩
      · exact ⟨stored, reads.copied⟩
      · exact ⟨stored, reads.copied⟩
    | _ => cases processing

private theorem serves_row {found : Option AccountProjection} (reads : ReadsRow id row before)
    (served : serves (exactStore codec) env caller before (.inl (.projectionsGetAccount id)) (.ok found) after) :
    found = some row := by
  obtain ⟨ready, passes, fetched, answer, cache, returned, rfl⟩ := served
  have stored : ready.accounts id = some row := by
    rw [(passes_unwritten passes).accounts]
    exact reads.stored
  have answer := World.answer_cases answer
  rw [stored] at answer
  exact getAccount_row reads.copied answer returned

private theorem processBatch_uses (batch : EventBatch) :
    (processBatch batch : Program (SystemCall Value) _).Uses fun op => isProcessing op := by
  refine Program.Uses.andThen ⟨rfl, fun _ => trivial⟩ fun _ => ?_
  refine Program.Uses.andThen ⟨rfl, fun _ => trivial⟩ fun _ => ?_
  exact publish_uses batch rfl (fun _ _ => rfl) fun _ => rfl

private theorem processBatch_readsRow (batch : EventBatch) (reads : ReadsRow id row before) :
    Returns (serves (exactStore codec) env caller) (fun _ => ReadsRow id row) (processBatch batch) before :=
  Returns.of_uses (ReadsRow id row) (processBatch_uses batch)
    (fun _ _ _ _ processing served reads => serves_readsRow processing served reads) reads

/-- The row stays what it was, however many batches are handled. -/
theorem batches_readsRow {batches : List EventBatch} {results : List (Except String Unit)}
    (run : RunsEach (serves (exactStore codec) env caller) before (batches.map processBatch) results after)
    (reads : ReadsRow id row before) : ReadsRow id row after :=
  run.invariant (ReadsRow id row) (fun batch _ reads => processBatch_readsRow batch reads) reads

section Cache
variable {cache : CacheService} {account : Account} {now : Instant}

/-- Both levels hold this account and no other one. -/
structure Caches (id : Uuid) (account : Account) (cache : CacheService) : Prop where
  redis : ∃ expiresAt, cache.redis id = some ⟨some account, expiresAt⟩
  memory : ∀ entry, (id, entry) ∈ cache.shards (cache.getShardIndex id) → entry.value = account

private theorem store_caches (ttl : Option Duration) : Caches account.id account (cache.store now account ttl) := by
  refine ⟨⟨_, Function.update_self ..⟩, ?_⟩
  intro entry member
  rcases CacheService.mem_updateInMemoryCache member with ⟨_, _, rfl⟩ | ⟨apart, _⟩
  · rfl
  · exact absurd ⟨rfl, rfl⟩ apart

private theorem passes_caches {before after : World ι Value} (passes : World.Passes before after)
    (caches : Caches id account before.cache) : Caches id account after.cache := by
  cases passes with
  | waits => exact caches
  | cleans => exact ⟨caches.redis, fun entry member => caches.memory entry (List.mem_of_mem_filter member)⟩

end Cache

/-- The account was put into the cache and published. -/
structure Published (id : Uuid) (account : Account) (pipeline : BankingEs.Pipeline ι Value) : Prop where
  cached : Caches id account pipeline.world.cache
  sent : pipeline.cacheUpdates.getLast? = some (id, account)

private theorem serves_setAccount {store : Store ι Value} {account : Account} {ttl : Option Duration}
    (served : serves store env caller before (.inl (.cacheSetAccount account ttl)) (.ok ()) after) :
    Caches account.id account after.world.cache := by
  obtain ⟨ready, passes, world, ⟨connection, _, cache, returned, rfl⟩, rfl⟩ := served
  simp only [CacheService.setAccount] at returned
  split at returned
  next => cases returned
  next =>
    cases returned
    exact store_caches ttl

private theorem serves_sendCacheUpdate {store : Store ι Value} {account : Account}
    (served : serves store env caller before (.inr (.sendCacheUpdate id account)) (.ok ()) after)
    (caches : Caches id account before.world.cache) : Published id account after := by
  obtain ⟨ready, passes, ⟨_, rfl⟩ | ⟨⟨_, error, impossible⟩, _⟩⟩ := served
  · exact ⟨passes_caches passes caches, List.getLast?_concat⟩
  · cases impossible

private theorem Published.unique {account other : Account} (published : Published id account after)
    (again : Published id other after) : account = other := by
  have same := published.sent.symm.trans again.sent
  cases same
  rfl

private theorem processBatch_publishes {updated : AccountProjection} (reads : ReadsRow batch.accountId row before)
    (keyed : updated.id = batch.accountId) (applied : row.applyEvents batch.events = .ok updated) :
    Succeeds (serves (exactStore codec) env caller)
      (fun _ after => Published batch.accountId (updatedAccount batch updated) after) (processBatch batch) before := by
  refine Succeeds.andThen (.mapError fun _ _ served => serves_readsRow rfl served reads) ?_
  intro _ saved reads
  refine Succeeds.andThen (.mapError fun _ _ served => serves_readsRow rfl served reads) ?_
  intro _ cached reads
  refine Succeeds.andThen (.mapError fun _ _ served => serves_row reads served) ?_
  rintro _ read rfl
  dsimp only
  rw [applied]
  refine Succeeds.andThen (.mapError fun _ _ served => serves_setAccount served) ?_
  intro _ stored caches
  have caches : Caches batch.accountId (updatedAccount batch updated) stored.world.cache := by rwa [← keyed]
  exact .mapError fun _ _ served => serves_sendCacheUpdate served caches

private theorem exactStore_accepted {before after : World ι Value} {request : SaveRequest}
    {reply : Except EventStoreError Unit}
    (saved : exactStore codec before request reply after) (accepted : reply = .ok ()) (nonempty : request.events ≠ []) :
    request.expectedVersion = before.events.currentVersion request.aggregateId := by
  cases saved with
  | stored current => exact current
  | refused => cases accepted
  | nothing empty => exact absurd empty nonempty

/-- A batch with events is accepted under the committed version only. -/
theorem processBatch_version {log : List AccountEvent} (logs : Logs codec before.world.events batch.accountId log)
    (nonempty : batch.events ≠ []) :
    Succeeds (serves (exactStore codec) env caller) (fun _ _ => batch.version = log.length) (processBatch batch)
      before := by
  refine Succeeds.andThen (.mapError fun _ after served => ?_) fun _ _ version =>
    .of_uses (fun _ => batch.version = log.length) (cacheBatch_unsaved batch) (fun _ _ _ _ _ _ version => version) version
  obtain ⟨ready, waited, stored⟩ := serves_save served
  rw [← waited.events] at logs
  exact (exactStore_accepted stored rfl nonempty).trans logs.currentVersion

/-- The projection row of an account equals the replay of its stored events. -/
structure Projected (codec : Codec Value) (id : Uuid) (log : List AccountEvent) (row : AccountProjection)
    (pipeline : BankingEs.Pipeline ι Value) : Prop where
  stored : Logs codec pipeline.world.events id log
  reads : ReadsRow id row pipeline
  shows : Shows row ((blank id).replay log)

/-- The account that is published for a batch is the replay of all its events exactly if
the batches since the row was written changed nothing that this batch does not set again. -/
theorem published_replay_iff {log : List AccountEvent} {done : List EventBatch} {results : List (Except String Unit)}
    {first middle last : BankingEs.Pipeline ι Value} (projected : Projected codec batch.accountId log row first)
    (run : RunsEach (serves (exactStore codec) env caller) first (done.map processBatch) results middle)
    (accepted : Logs codec middle.world.events batch.accountId (log ++ done.flatMap EventBatch.events))
    (handled : Runs (serves (exactStore codec) env caller) middle (processBatch batch) (.ok ()) last) :
    let opened := (blank batch.accountId).replay log
    let reached := opened.replay (done.flatMap EventBatch.events)
    Published batch.accountId (reached.replay batch.events) last ↔
      (batch.events = [] → batch.version = reached.version) ∧
      (opens batch.events ∨ opened.ownerName = reached.ownerName ∧ opened.balance = reached.balance ∧
        (closes batch.events ∨ opened.isActive = reached.isActive)) := by
  intro opened reached
  obtain ⟨updated, applied⟩ := exists_applied row batch.events
  have reads := batches_readsRow run projected.reads
  obtain ⟨keyed, ownerName, balance, isActive⟩ : Shows row opened := projected.shows
  have owner : row.id = reached.id := keyed.trans (Account.replay_id opened _).symm
  have published : Published batch.accountId (updatedAccount batch updated) last :=
    (processBatch_publishes reads (by rw [applied_id applied, keyed, Account.replay_id, blank]) applied).runs handled
  have equal : Published batch.accountId (reached.replay batch.events) last ↔
      updatedAccount batch updated = reached.replay batch.events :=
    ⟨published.unique, fun same => same ▸ published⟩
  have version : batch.version + batch.events.length = (reached.replay batch.events).version ↔
      (batch.events = [] → batch.version = reached.version) := by
    rw [Account.replay_version, add_left_inj]
    refine ⟨fun current _ => current, fun current => ?_⟩
    by_cases empty : batch.events = []
    · exact current empty
    · have committed := (processBatch_version accepted empty).runs handled
      rw [committed, Account.replay_version, Account.replay_version, List.length_append, Nat.cast_add]
      simp [blank, Account.default]
  rw [equal, updatedAccount_eq_iff, version, shows_applied_iff applied, ownerName, balance, isActive, and_comm,
    and_iff_right owner]

section Sample
open Sample

private theorem getAccount_found {cache : ProjectionCache} (now : Instant)
    (copied : ∀ entry, cache.accounts id = some entry → entry.data = row) :
    ∃ left, cache.getAccount now (.ok (some row)) id = (.ok (some row), left) := by
  cases live : ProjectionCache.live now (cache.accounts id) with
  | none => exact ⟨_, by rw [ProjectionCache.getAccount.eq_def, live]⟩
  | some data =>
    obtain ⟨entry, kept, rfl⟩ := Option.map_eq_some_iff.mp live
    have same := copied entry (Option.filter_eq_some_iff.mp kept).1
    exact ⟨cache, by rw [ProjectionCache.getAccount.eq_def, live, same]⟩

private theorem setAccountEvents_stores {cache : EventCache} {now : Instant} {defaultTtl : Duration}
    {events : VersionedEvents} (lasting : defaultTtl.asSecs ≠ 0) :
    cache.setAccountEvents now (.ok ()) defaultTtl id events none = (.ok (), cache.store now defaultTtl id events none) := by
  rw [EventCache.setAccountEvents, Option.getD_none, CacheService.setEx_lasting lasting]

private theorem publishAccount_runs (before : BankingEs.Pipeline ι Value) (account : Account) :
    ∃ last, Runs (serves (exactStore codec) env caller) before (publishAccount id account) (.ok ()) last ∧
      last.world.events = before.world.events ∧ last.world.cache.config = before.world.cache.config := by
  have lasting : ((some (Duration.fromSecs 3600)).getD before.world.cache.config.defaultTtl).asSecs ≠ 0 := by
    rw [Option.getD_some]
    decide
  have set : serves (exactStore codec) env caller before
      (.inl (.cacheSetAccount account (some (Duration.fromSecs 3600)))) (.ok ()) { before with world := { before.world with
        cache := before.world.cache.store before.world.now account (some (Duration.fromSecs 3600)) } } :=
    ⟨before.world, .waits le_rfl, _, ⟨.ok (), .inl rfl, _, CacheService.setAccount_lasting lasting, rfl⟩, rfl⟩
  exact ⟨_, .request (.ok ()) set (.request (.ok ()) ⟨_, .waits le_rfl, .inl ⟨rfl, rfl⟩⟩ .pure), rfl, rfl⟩

private theorem cacheBatch_runs (reads : ReadsRow batch.accountId row before)
    (lasting : before.world.cache.config.defaultTtl.asSecs ≠ 0) :
    ∃ last, Runs (serves (exactStore codec) env caller) before (cacheBatch batch) (.ok ()) last ∧
      last.world.events = before.world.events ∧ last.world.cache.config = before.world.cache.config := by
  obtain ⟨updated, applied⟩ := exists_applied row batch.events
  obtain ⟨left, found⟩ := getAccount_found before.world.now reads.copied
  let cached : BankingEs.Pipeline ι Value := { before with
    eventCache := before.eventCache.store before.world.now before.world.cache.config.defaultTtl batch.accountId
      (versionedEvents batch) none }
  have stored : serves (exactStore codec) env caller before
      (.inr (.cacheSetAccountEvents batch.accountId (versionedEvents batch) none)) (.ok ()) cached :=
    ⟨_, .waits le_rfl, .ok (), .inl rfl, _, setAccountEvents_stores lasting, rfl⟩
  have read : serves (exactStore codec) env caller cached (.inl (.projectionsGetAccount batch.accountId))
      (.ok (some row)) { cached with projectionCache := left } :=
    ⟨_, .waits le_rfl, .ok (some row), .inl (congrArg _ reads.stored.symm), left, found, rfl⟩
  obtain ⟨last, run, kept⟩ := publishAccount_runs { cached with projectionCache := left } (updatedAccount batch updated)
  refine ⟨last, .request _ stored (.request _ read ?_), kept⟩
  dsimp only [Program.bind, pure, Except.mapError]
  rw [applied]
  exact run

/-- A batch under the committed version can be handled to the end. -/
private theorem processBatch_runs {rows : Table Value} (reads : ReadsRow batch.accountId row before)
    (current : batch.version = before.world.events.currentVersion batch.accountId)
    (holds : Holds codec batch.accountId batch.version batch.events rows)
    (lasting : before.world.cache.config.defaultTtl.asSecs ≠ 0) :
    ∃ last, Runs (serves (exactStore codec) env caller) before (processBatch batch) (.ok ()) last ∧
      last.world.events = before.world.events ++ rows ∧ last.world.cache.config = before.world.cache.config := by
  let saved : BankingEs.Pipeline ι Value := { before with world := { before.world with
    events := before.world.events ++ rows, saves := before.world.saves ++ [(batch.saveRequest, true)] } }
  have stored : serves (exactStore codec) env caller before (.inl (.saveEvents batch.saveRequest)) (.ok ()) saved :=
    ⟨_, .waits le_rfl, _, .stored current holds, rfl⟩
  have reads : ReadsRow batch.accountId row saved := ⟨reads.stored, reads.copied⟩
  obtain ⟨last, run, kept⟩ := cacheBatch_runs reads lasting
  exact ⟨last, .request _ stored run, kept⟩

private def ten : BankingEs.Pipeline Unit AccountEvent where
  world := { events := [plainRow ⟨1⟩ 1 (.accountCreated ⟨1⟩ "" 10)],
             accounts := fun _ => some (Sample.row ⟨1⟩ 10) }

private theorem ten_projected : Projected .plain ⟨1⟩ [.accountCreated ⟨1⟩ "" 10] (Sample.row ⟨1⟩ 10) ten where
  stored := rfl
  reads := ⟨rfl, fun _ impossible => by cases impossible⟩
  shows := ⟨rfl, rfl, rfl, rfl⟩

/-- Five is deposited twice. -/
private theorem ten_deposits : ∃ middle last,
    RunsEach (serves (exactStore .plain) .accepting ()) ten ([⟨⟨1⟩, [five], 1⟩].map processBatch) [.ok ()] middle ∧
    Logs .plain middle.world.events ⟨1⟩ [.accountCreated ⟨1⟩ "" 10, five] ∧
    Runs (serves (exactStore .plain) .accepting ()) middle (processBatch ⟨⟨1⟩, [five], 2⟩) (.ok ()) last := by
  have holds (version : Int) : Holds .plain ⟨1⟩ version [five] [plainRow ⟨1⟩ (version + 1) five] := by
    simp [Holds, plainRow, Codec.plain]
  obtain ⟨middle, first, events, config⟩ : ∃ middle,
      Runs (serves (exactStore .plain) .accepting ()) ten (processBatch ⟨⟨1⟩, [five], 1⟩) (.ok ()) middle ∧
        middle.world.events = ten.world.events ++ [plainRow ⟨1⟩ (1 + 1) five] ∧
        middle.world.cache.config = ten.world.cache.config :=
    processBatch_runs ten_projected.reads rfl (holds 1) (by decide)
  have logs : Logs .plain middle.world.events ⟨1⟩ [.accountCreated ⟨1⟩ "" 10, five] := by
    rw [events]
    exact ten_projected.stored.append (holds 1)
  have reads := (processBatch_readsRow _ ten_projected.reads).runs first
  obtain ⟨last, second, _⟩ : ∃ last,
      Runs (serves (exactStore .plain) .accepting ()) middle (processBatch ⟨⟨1⟩, [five], 2⟩) (.ok ()) last ∧
        last.world.events = middle.world.events ++ [plainRow ⟨1⟩ (2 + 1) five] ∧ _ :=
    processBatch_runs reads logs.currentVersion.symm (holds 2) (by rw [config]; decide)
  exact ⟨middle, last, .cons first .nil, logs, second⟩

/-- After two deposits of five to an account with ten in it, fifteen is published. -/
theorem second_deposit_published : ∃ middle last,
    Projected .plain ⟨1⟩ [.accountCreated ⟨1⟩ "" 10] (Sample.row ⟨1⟩ 10) ten ∧
    RunsEach (serves (exactStore .plain) .accepting ()) ten ([⟨⟨1⟩, [five], 1⟩].map processBatch) [.ok ()] middle ∧
    Runs (serves (exactStore .plain) .accepting ()) middle (processBatch ⟨⟨1⟩, [five], 2⟩) (.ok ()) last ∧
    Published ⟨1⟩ ⟨⟨1⟩, "", 15, true, 3⟩ last ∧
    ¬ Published ⟨1⟩ ((blank ⟨1⟩).replay [.accountCreated ⟨1⟩ "" 10, five, five]) last := by
  obtain ⟨middle, last, first, logs, second⟩ := ten_deposits
  have reads := batches_readsRow first ten_projected.reads
  have applied : AccountProjection.applyEvents (Sample.row ⟨1⟩ 10) [five] =
      .ok ⟨⟨1⟩, "", 10 + 5, true, 0, 0⟩ := rfl
  have publishes : Succeeds (serves (exactStore .plain) .accepting ())
      (fun _ after => Published ⟨1⟩ (updatedAccount ⟨⟨1⟩, [five], 2⟩ ⟨⟨1⟩, "", 10 + 5, true, 0, 0⟩) after)
      (processBatch ⟨⟨1⟩, [five], 2⟩) middle := processBatch_publishes reads rfl applied
  have published : Published ⟨1⟩ ⟨⟨1⟩, "", 10 + 5, true, 2 + 1⟩ last := publishes.runs second
  have sum : (10 + 5 : Decimal) = 15 := by decide +kernel
  rw [sum] at published
  refine ⟨middle, last, ten_projected, first, second, published, fun replayed => ?_⟩
  have balance : (15 : Decimal) = 10 + 5 + 5 := congrArg Account.balance (published.unique replayed)
  exact absurd balance (by decide +kernel)

theorem published_replay_sample : ∃ middle last,
    RunsEach (serves (exactStore .plain) .accepting ()) ten ([⟨⟨1⟩, [five], 1⟩].map processBatch) [.ok ()] middle ∧
    Runs (serves (exactStore .plain) .accepting ()) middle (processBatch ⟨⟨1⟩, [five], 2⟩) (.ok ()) last ∧
    ¬ Published ⟨1⟩ ((blank ⟨1⟩).replay [.accountCreated ⟨1⟩ "" 10, five, five]) last := by
  obtain ⟨middle, last, first, logs, second⟩ := ten_deposits
  refine ⟨middle, last, first, second, fun published => ?_⟩
  have follows := published_replay_iff ten_projected first logs second
  rcases follows.mp published with ⟨_, opening | ⟨_, balance, _⟩⟩
  · cases opening
  · have balance : (10 : Decimal) = 10 + 5 := balance
    exact absurd balance (by decide +kernel)

end Sample

end BankingEs.Proofs.CachedAccount
