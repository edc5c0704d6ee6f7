import BankingEs.Proofs.BatchStorage
import BankingEs.Proofs.CachedAccount
import BankingEs.Proofs.Preparation

/-! What `process_batch` has done when it fails, by the effect that failed, and under which
versions it caches the events that it has stored. -/

namespace BankingEs.Proofs.BatchProcessing
open Async BankingEs.Pipeline KafkaEventProcessor BatchStorage

variable {ι Value : Type}

/-- The effects of `process_batch`, in their order. -/
inductive Effect where
  | saveEvents
  | setAccountEvents
  | getAccount
  | setAccount
  | sendCacheUpdate
  deriving DecidableEq

def effect {β : Type} : SystemCall Value β → Option Effect
  | .inl (.saveEvents _) => some .saveEvents
  | .inr (.cacheSetAccountEvents _ _ _) => some .setAccountEvents
  | .inl (.projectionsGetAccount _) => some .getAccount
  | .inl (.cacheSetAccount _ _) => some .setAccount
  | .inr (.sendCacheUpdate _ _) => some .sendCacheUpdate
  | _ => none

def isError {ε α : Type} : Except ε α → Bool
  | .error _ => true
  | .ok _ => false

def failed {β : Type} : SystemCall Value β → β → Bool
  | .inl (.saveEvents _), reply => isError reply
  | .inr (.cacheSetAccountEvents _ _ _), reply => isError reply
  | .inl (.projectionsGetAccount _), reply => isError reply
  | .inl (.cacheSetAccount _ _), reply => isError reply
  | .inr (.sendCacheUpdate _ _), reply => isError reply
  | _, _ => false

/-- A store whose answer tells whether the events were stored, whenever it accepts them. -/
inductive truthfulStore (codec : Codec Value) (world : World ι Value) (request : SaveRequest) :
    Except EventStoreError Unit → World ι Value → Prop where
  | stored {rows : Table Value}
      (holds : Holds codec request.aggregateId request.expectedVersion request.events rows) :
      truthfulStore codec world request (.ok ())
        { world with events := world.events ++ rows, saves := world.saves ++ [(request, true)] }
  | failed (error : EventStoreError) :
      truthfulStore codec world request (.error error) { world with saves := world.saves ++ [(request, false)] }

/-- Exactly the calls at the point of failure fail. The clock stands still, and the cache is not
cleaned up in between. -/
def failingAt (codec : Codec Value) (env : Environment Value) (caller : ι) (point : Effect) :
    Serves (SystemCall Value) (BankingEs.Pipeline ι Value) := fun before op reply after =>
  (failed op reply ↔ effect op = some point) ∧ match op with
    | .inl call => stepCall (truthfulStore codec) env caller before call reply after
    | .inr call => stepPipeline env before call reply after

def cachedEvents (cache : EventCache) (id : Uuid) : Option VersionedEvents × Option (Option VersionedEvents) :=
  (cache.memory id, (cache.redis id).map EventsKey.data)

def cachedAccount (cache : CacheService) (id : Uuid) : Option Account × Option (Option Account) :=
  ((cache.entry id).map CacheEntry.value, (cache.redis id).map RedisEntry.data)

/-- The row that the projections hand out: their copy of it, or the row of the table. -/
def projected (pipeline : BankingEs.Pipeline ι Value) (id : Uuid) : Option AccountProjection :=
  (ProjectionCache.live pipeline.world.now (pipeline.projectionCache.accounts id)).or (pipeline.world.accounts id)

def eventsWritten (pipeline : BankingEs.Pipeline ι Value) (batch : EventBatch) : EventCache :=
  pipeline.eventCache.store pipeline.world.now pipeline.world.cache.config.defaultTtl batch.accountId
    (versionedEvents batch) none

def accountWritten (pipeline : BankingEs.Pipeline ι Value) (account : Account) : CacheService :=
  pipeline.world.cache.store pipeline.world.now account (some (Duration.fromSecs 3600))

/-- What has happened by the time a batch fails, for each point at which it can. -/
inductive Ends (codec : Codec Value) (batch : EventBatch) (before after : BankingEs.Pipeline ι Value) : Effect → Prop where
  | saveEvents (events : after.world.events = before.world.events) (cached : after.eventCache = before.eventCache)
      (account : after.world.cache = before.world.cache) : Ends codec batch before after .saveEvents
  | setAccountEvents {rows : Table Value} (holds : Holds codec batch.accountId batch.version batch.events rows)
      (events : after.world.events = before.world.events ++ rows) (cached : after.eventCache = before.eventCache)
      (account : after.world.cache = before.world.cache) : Ends codec batch before after .setAccountEvents
  | unpublished {point : Effect} {rows : Table Value} (read : point = .getAccount ∨ point = .setAccount)
      (holds : Holds codec batch.accountId batch.version batch.events rows)
      (events : after.world.events = before.world.events ++ rows) (cached : after.eventCache = eventsWritten before batch)
      (account : after.world.cache = before.world.cache) : Ends codec batch before after point
  | sendCacheUpdate {rows : Table Value} {row updated : AccountProjection}
      (holds : Holds codec batch.accountId batch.version batch.events rows)
      (events : after.world.events = before.world.events ++ rows) (cached : after.eventCache = eventsWritten before batch)
      (read : projected before batch.accountId = some row) (applied : row.applyEvents batch.events = .ok updated)
      (account : after.world.cache = accountWritten before (updatedAccount batch updated)) :
      Ends codec batch before after .sendCacheUpdate

section Steps
variable {codec : Codec Value} {env : Environment Value} {caller : ι} {point : Effect} {batch : EventBatch}
  {before after : BankingEs.Pipeline ι Value}

private theorem point_eq {called : Effect} (fails : true = true ↔ some called = some point) : point = called :=
  (Option.some.inj (fails.mp rfl)).symm

private theorem point_ne {called : Effect} (fails : false = true ↔ some called = some point) : point ≠ called := by
  intro same
  exact Bool.false_ne_true (fails.mpr (congrArg some same.symm))

private theorem save_step {request : SaveRequest} {reply : Except EventStoreError Unit}
    (served : failingAt codec env caller point before (.inl (.saveEvents request)) reply after) :
    (point = .saveEvents ∧ (∃ error, reply = .error error) ∧
      ∃ saves, after = { before with world := { before.world with saves } }) ∨
    (point ≠ .saveEvents ∧ reply = .ok () ∧
      ∃ rows saves, Holds codec request.aggregateId request.expectedVersion request.events rows ∧
        after = { before with world := { before.world with events := before.world.events ++ rows, saves } }) := by
  obtain ⟨fails, world, saved, rfl⟩ := served
  cases saved with
  | failed error => exact .inl ⟨point_eq fails, ⟨error, rfl⟩, _, rfl⟩
  | stored holds => exact .inr ⟨point_ne fails, rfl, _, _, holds, rfl⟩

private theorem setAccountEvents_step {reply : Except String Unit}
    (served : failingAt codec env caller point before
      (.inr (.cacheSetAccountEvents batch.accountId (versionedEvents batch) none)) reply after) :
    (point = .setAccountEvents ∧ (∃ error, reply = .error error) ∧ after = before) ∨
    (point ≠ .setAccountEvents ∧ reply = .ok () ∧ after = { before with eventCache := eventsWritten before batch }) := by
  obtain ⟨fails, connection, _, eventCache, written, rfl⟩ := served
  simp only [EventCache.setAccountEvents] at written
  split at written
  next error _ =>
    cases written
    exact .inl ⟨point_eq fails, ⟨error, rfl⟩, rfl⟩
  next =>
    cases written
    exact .inr ⟨point_ne fails, rfl, rfl⟩

private theorem getAccount_step {id : Uuid} {reply : Except String (Option AccountProjection)}
    (served : failingAt codec env caller point before (.inl (.projectionsGetAccount id)) reply after) :
    (∃ projectionCache, after = { before with projectionCache }) ∧
      ((point = .getAccount ∧ ∃ error, reply = .error error) ∨
        (point ≠ .getAccount ∧ reply = .ok (projected before id))) := by
  obtain ⟨fails, fetched, answer, projectionCache, read, rfl⟩ := served
  refine ⟨⟨projectionCache, rfl⟩, ?_⟩
  cases reply with
  | error error => exact .inl ⟨point_eq fails, error, rfl⟩
  | ok found =>
    refine .inr ⟨point_ne fails, ?_⟩
    unfold ProjectionCache.getAccount at read
    unfold projected
    split at read
    next account live =>
      cases read
      rw [live]
      rfl
    next missing =>
      rw [missing, Option.none_or]
      split at read
      next => cases read
      all_goals
        cases read
        rcases World.answer_cases answer with same | ⟨error, impossible⟩
        · rw [Except.ok.inj same]
        · cases impossible

private theorem setAccount_step {account : Account} {reply : Except String Unit}
    (served : failingAt codec env caller point before
      (.inl (.cacheSetAccount account (some (Duration.fromSecs 3600)))) reply after) :
    (point = .setAccount ∧ (∃ error, reply = .error error) ∧ after = before) ∨
    (point ≠ .setAccount ∧ reply = .ok () ∧
      after = { before with world := { before.world with cache := accountWritten before account } }) := by
  obtain ⟨fails, world, ⟨connection, _, cache, written, rfl⟩, rfl⟩ := served
  simp only [CacheService.setAccount] at written
  split at written
  next error _ =>
    cases written
    exact .inl ⟨point_eq fails, ⟨error, rfl⟩, rfl⟩
  next =>
    cases written
    exact .inr ⟨point_ne fails, rfl, rfl⟩

private theorem sendCacheUpdate_step {id : Uuid} {account : Account} {reply : Except String Unit}
    (served : failingAt codec env caller point before (.inr (.sendCacheUpdate id account)) reply after) :
    (point = .sendCacheUpdate ∧ after = before) ∨ reply = .ok () := by
  obtain ⟨fails, ⟨rfl, _⟩ | ⟨⟨_, error, rfl⟩, rfl⟩⟩ := served
  · exact .inr rfl
  · exact .inl ⟨point_eq fails, rfl⟩

/-- At each way out of `process_batch` with an error, everything before the failed call is done. -/
theorem processBatch_ends (batch : EventBatch) :
    Returns (failingAt codec env caller point)
      (fun result after => ∀ error, result = .error error → Ends codec batch before after point)
      (processBatch batch) before := by
  intro saved stored served
  rcases save_step served with ⟨rfl, ⟨error, rfl⟩, saves, rfl⟩ | ⟨_, rfl, rows, saves, holds, rfl⟩
  · exact fun _ _ => .saveEvents rfl rfl rfl
  intro cached written served
  rcases setAccountEvents_step served with ⟨rfl, ⟨error, rfl⟩, rfl⟩ | ⟨_, rfl, rfl⟩
  · exact fun _ _ => .setAccountEvents holds rfl rfl rfl
  intro found read served
  obtain ⟨⟨projectionCache, rfl⟩, ⟨rfl, error, rfl⟩ | ⟨_, same⟩⟩ := getAccount_step served
  · exact fun _ _ => .unpublished (.inl rfl) holds rfl rfl rfl
  have same : found = .ok (projected before batch.accountId) := same
  subst same
  cases projection : projected before batch.accountId with
  | none => exact fun _ impossible => (by cases impossible)
  | some row =>
    obtain ⟨updated, applied⟩ := CachedAccount.exists_applied row batch.events
    dsimp only [Program.bind, pure, Except.mapError]
    rw [applied]
    intro set cachedAccount served
    rcases setAccount_step served with ⟨rfl, ⟨error, rfl⟩, rfl⟩ | ⟨_, rfl, rfl⟩
    · exact fun _ _ => .unpublished (.inr rfl) holds rfl rfl rfl
    intro sent after served error failed
    rcases sendCacheUpdate_step served with ⟨rfl, rfl⟩ | rfl
    · exact .sendCacheUpdate holds rfl rfl projection applied rfl
    · cases failed

end Steps

/-- The account of a row, under the version of a batch without events. -/
def rowAccount (batch : EventBatch) (row : AccountProjection) : Account :=
  ⟨row.id, row.ownerName, row.balance, row.isActive, batch.version⟩

/-- Caching the account of the row changes nothing of what is cached for the account of the batch. -/
def Repeats (before : BankingEs.Pipeline ι Value) (batch : EventBatch) (row : AccountProjection) : Prop :=
  cachedAccount (accountWritten before (rowAccount batch row)) batch.accountId =
    cachedAccount before.world.cache batch.accountId

/-- The table and what is cached for an account are as they were. -/
structure Untouched (id : Uuid) (before after : BankingEs.Pipeline ι Value) : Prop where
  events : after.world.events = before.world.events
  cachedEvents : cachedEvents after.eventCache id = cachedEvents before.eventCache id
  cachedAccount : cachedAccount after.world.cache id = cachedAccount before.world.cache id

section Failures
variable {codec : Codec Value} {env : Environment Value} {caller : ι} {point : Effect} {batch : EventBatch}
  {before after : BankingEs.Pipeline ι Value}

private theorem cachedEvents_written : cachedEvents (eventsWritten before batch) batch.accountId =
    (some (versionedEvents batch), some (some (versionedEvents batch))) := by
  simp [cachedEvents, eventsWritten, EventCache.store, EventCache.insert]

private theorem cachedAccount_written (account : Account) :
    cachedAccount (accountWritten before account) account.id = (some account, some (some account)) := by
  rw [cachedAccount, accountWritten, CacheService.store]
  generalize Duration.fromSecs _ = lifetime
  simp [CacheService.entry, CacheService.updateInMemoryCache, CacheService.setShard, CacheService.getShardIndex,
    Shard.insert]

/-- Rows were added to the table, if there were any. -/
theorem stored_iff {rows : Table Value} (holds : Holds codec batch.accountId batch.version batch.events rows)
    (events : after.world.events = before.world.events ++ rows) :
    after.world.events = before.world.events ↔ batch.events = [] := by
  rw [events, List.append_right_eq_self, ← List.length_eq_zero_iff, holds.length, List.length_eq_zero_iff]

private theorem written_iff {rows : Table Value} (holds : Holds codec batch.accountId batch.version batch.events rows)
    (events : after.world.events = before.world.events ++ rows) (cached : after.eventCache = eventsWritten before batch) :
    (after.world.events = before.world.events ∧
      cachedEvents after.eventCache batch.accountId = cachedEvents before.eventCache batch.accountId) ↔
    batch.events = [] ∧ cachedEvents before.eventCache batch.accountId = (some [], some (some [])) := by
  rw [stored_iff holds events, cached, cachedEvents_written, @eq_comm _ _ (cachedEvents before.eventCache _)]
  apply and_congr_right
  intro empty
  rw [versionedEvents, empty, List.mapIdx_nil]

private theorem repeats_iff (batch : EventBatch) {row : AccountProjection} (keyed : row.id = batch.accountId) :
    Repeats before batch row ↔ cachedAccount before.world.cache batch.accountId =
      (some (rowAccount batch row), some (some (rowAccount batch row))) := by
  have written := @cachedAccount_written _ _ before (rowAccount batch row)
  have same : (rowAccount batch row).id = batch.accountId := keyed
  rw [same] at written
  rw [Repeats, written]
  exact eq_comm

private theorem updatedAccount_eq {row updated : AccountProjection} (empty : batch.events = [])
    (applied : row.applyEvents batch.events = .ok updated) : updatedAccount batch updated = rowAccount batch row := by
  rw [empty] at applied
  obtain rfl := Except.ok.inj applied
  rw [updatedAccount, rowAccount, empty, List.length_nil, Nat.cast_zero, add_zero]

/-- A batch that failed has left no trace only if it was its save that failed. A batch without
events leaves none either if there is nothing in what is cached for it to overwrite: no events,
and the account of its row in both levels. A row has the id that it is read under. -/
theorem failed_batch_untouched_iff {error : String}
    (run : Runs (failingAt codec env caller point) before (processBatch batch) (.error error) after) :
    (Untouched batch.accountId before after ↔
      point = .saveEvents ∨ batch.events = [] ∧ (point = .setAccountEvents ∨
        cachedEvents before.eventCache batch.accountId = (some [], some (some [])) ∧
          (point ≠ .sendCacheUpdate ∨
            ∀ row, projected before batch.accountId = some row → Repeats before batch row))) ∧
    ∀ row : AccountProjection, row.id = batch.accountId →
      (Repeats before batch row ↔ cachedAccount before.world.cache batch.accountId =
        (some (rowAccount batch row), some (some (rowAccount batch row)))) := by
  refine ⟨?_, fun row keyed => repeats_iff batch keyed⟩
  have ends := (processBatch_ends batch).runs run error rfl
  cases ends with
  | saveEvents events cached account =>
    refine iff_of_true ⟨events, ?_, ?_⟩ (.inl rfl)
    · rw [cached]
    · rw [account]
  | setAccountEvents holds events cached account =>
    refine ⟨fun untouched => .inr ⟨(stored_iff holds events).mp untouched.events, .inl rfl⟩, ?_⟩
    intro spared
    obtain ⟨empty, _⟩ := spared.resolve_left (by simp)
    refine ⟨(stored_iff holds events).mpr empty, ?_, ?_⟩
    · rw [cached]
    · rw [account]
  | unpublished read holds events cached account =>
    have kept := written_iff holds events cached
    obtain ⟨saved, uncached, unsent⟩ :
        point ≠ .saveEvents ∧ point ≠ .setAccountEvents ∧ point ≠ .sendCacheUpdate := by
      rcases read with rfl | rfl
      · exact ⟨by simp, by simp, by simp⟩
      · exact ⟨by simp, by simp, by simp⟩
    refine ⟨?_, ?_⟩
    · intro untouched
      obtain ⟨empty, cachedBefore⟩ := kept.mp ⟨untouched.events, untouched.cachedEvents⟩
      exact .inr ⟨empty, .inr ⟨cachedBefore, .inl unsent⟩⟩
    · intro spared
      obtain ⟨empty, spared⟩ := spared.resolve_left saved
      obtain ⟨same, sameEvents⟩ := kept.mpr ⟨empty, (spared.resolve_left uncached).1⟩
      refine ⟨same, sameEvents, ?_⟩
      rw [account]
  | @sendCacheUpdate rows row updated holds events cached read applied account =>
    have kept := written_iff holds events cached
    have republished (empty : batch.events = []) := account.trans (congrArg _ (updatedAccount_eq empty applied))
    refine ⟨?_, ?_⟩
    · intro untouched
      obtain ⟨empty, cachedBefore⟩ := kept.mp ⟨untouched.events, untouched.cachedEvents⟩
      refine .inr ⟨empty, .inr ⟨cachedBefore, .inr ?_⟩⟩
      intro other found
      obtain rfl := Option.some.inj (read.symm.trans found)
      have written := untouched.cachedAccount
      rw [republished empty] at written
      exact written
    · intro spared
      obtain ⟨empty, spared⟩ := spared.resolve_left (by simp)
      obtain ⟨cachedBefore, sent⟩ := spared.resolve_left (by simp)
      obtain ⟨same, sameEvents⟩ := kept.mpr ⟨empty, cachedBefore⟩
      refine ⟨same, sameEvents, ?_⟩
      rw [republished empty]
      exact sent.resolve_left (not_not.mpr rfl) row read

private theorem Ends.stored (ends : Ends codec batch before after point) (later : point ≠ .saveEvents) :
    ∃ rows, Holds codec batch.accountId batch.version batch.events rows ∧
      after.world.events = before.world.events ++ rows := by
  cases ends with
  | saveEvents => exact absurd rfl later
  | setAccountEvents holds events => exact ⟨_, holds, events⟩
  | unpublished _ holds events => exact ⟨_, holds, events⟩
  | sendCacheUpdate holds events => exact ⟨_, holds, events⟩

private theorem exactStore_refuses {world world' : World ι Value} {request : SaveRequest}
    {reply : Except EventStoreError Unit}
    (saved : exactStore codec world request reply world')
    (stale : request.expectedVersion ≠ world.events.currentVersion request.aggregateId) (nonempty : request.events ≠ []) :
    (∃ error, reply = .error error) ∧ world'.events = world.events := by
  cases saved with
  | stored current => exact absurd current stale
  | refused => exact ⟨⟨_, rfl⟩, rfl⟩
  | nothing empty => exact absurd empty nonempty

/-- When a batch that failed after its save comes back from the dead-letter queue, a store that
checks versions refuses it, and it fails again without getting any further. -/
theorem retry_refused (ends : Ends codec batch before after point) (later : point ≠ .saveEvents)
    (nonempty : batch.events ≠ []) :
    Returns (serves (exactStore codec) env caller)
      (fun result last => (∃ error, result = .error error) ∧ last.world.events = after.world.events)
      (processBatch batch) after := by
  obtain ⟨rows, holds, events⟩ := ends.stored later
  have moved : batch.version < after.world.events.currentVersion batch.accountId := by
    rw [events]
    exact lt_currentVersion_append holds nonempty
  intro reply last served
  obtain ⟨ready, waited, saved⟩ := Pipeline.serves_save served
  have stale : batch.version ≠ ready.events.currentVersion batch.accountId := by
    rw [waited.events]
    exact moved.ne
  obtain ⟨⟨error, rfl⟩, same⟩ := exactStore_refuses saved stale nonempty
  exact ⟨⟨_, rfl⟩, same.trans waited.events⟩

end Failures

section Versions
variable {codec : Codec Value}

/-- The request that `save_events` puts in the queue for a batch. -/
def batched (batch : EventBatch) (responseTx : Nat) : BatchedEvent :=
  { aggregateId := batch.accountId, events := batch.events, expectedVersion := batch.version, responseTx }

/-- The store numbers the events from the version after the one of the batch, and the cache from
the version of the batch itself. -/
theorem cached_versions_match_iff {stamps : Nat → Uuid × DateTime} {batch : EventBatch} {responseTx : Nat}
    {rows : List (Event Value)}
    (prepared : EventStore.prepareEventsForInsertOptimized codec stamps (batched batch responseTx) = .ok rows) :
    List.Forall₂ (fun (row : Event Value) entry => codec.fromValue row.eventData = .ok entry.2 ∧ row.version = entry.1)
        rows (versionedEvents batch) ↔
      batch.events = [] := by
  have numbered : Preparation.Numbered codec batch.accountId batch.version batch.events rows :=
    Preparation.prepareFrom_numbered prepared
  generalize stored : batch.events = events at numbered
  cases numbered with
  | nil =>
    rw [versionedEvents, stored]
    exact iff_of_true .nil rfl
  | cons owner number =>
    refine iff_of_false ?_ nofun
    rw [versionedEvents, stored, List.mapIdx_cons]
    intro all
    cases all with
    | cons first rest =>
      have same := first.2
      rw [number, Nat.cast_zero, add_zero] at same
      exact i64_succ_ne batch.version same

end Versions

section Sample
open Sample

private def batch : EventBatch := ⟨⟨1⟩, [five], 0⟩

private def unreliable : Environment AccountEvent := ⟨.plain, fun _ _ => True, True⟩

theorem refused_batch_untouched : ∃ after : BankingEs.Pipeline Unit AccountEvent,
    Runs (failingAt .plain unreliable () .saveEvents) {} (processBatch batch)
      (.error (EventStoreError.internalError "").display) after ∧ Untouched ⟨1⟩ {} after := by
  have run : Runs (failingAt .plain unreliable () .saveEvents) ({} : BankingEs.Pipeline Unit AccountEvent)
      (processBatch batch) (.error (EventStoreError.internalError "").display) _ :=
    .request (.error (.internalError "")) ⟨iff_of_true rfl rfl, _, .failed _, rfl⟩ .pure
  exact ⟨_, run, (failed_batch_untouched_iff run).1.mpr (.inl rfl)⟩

/-- Redis cannot be reached when the event is already stored. -/
theorem failed_batch_stored : ∃ after : BankingEs.Pipeline Unit AccountEvent,
    Runs (failingAt .plain unreliable () .setAccountEvents) {} (processBatch batch) (.error "refused") after ∧
    after.world.events = [plainRow ⟨1⟩ 1 five] := by
  have holds : Holds .plain ⟨1⟩ 0 [five] [plainRow ⟨1⟩ 1 five] := rfl
  exact ⟨_, .request (.ok ()) ⟨by simp [failed, effect, isError], _, .stored holds, rfl⟩
    (.request (.error "refused") ⟨iff_of_true rfl rfl, .error "refused", .inr ⟨trivial, _, rfl⟩, _, rfl, rfl⟩ .pure), rfl⟩

private def stamps (_ : Nat) : Uuid × DateTime := (⟨0⟩, 0)

theorem empty_batch_versions_match : List.Forall₂ (fun (row : Event AccountEvent) entry =>
    Codec.plain.fromValue row.eventData = .ok entry.2 ∧ row.version = entry.1) [] (versionedEvents ⟨⟨1⟩, [], 0⟩) :=
  (cached_versions_match_iff (show EventStore.prepareEventsForInsertOptimized .plain stamps
    (batched ⟨⟨1⟩, [], 0⟩ 0) = .ok [] from rfl)).mpr rfl

private def prepared : Event AccountEvent :=
  { plainRow ⟨1⟩ 1 five with metadata := { EventMetadata.default with source := "event_store" } }

/-- The event is stored under version 1 and cached under version 0. -/
theorem cached_version_differs : ∃ after : BankingEs.Pipeline Unit AccountEvent,
    EventStore.prepareEventsForInsertOptimized .plain stamps (batched batch 0) = .ok [prepared] ∧
    Runs (serves (exactStore .plain) .accepting ()) {} (processBatch batch) (.ok ()) after ∧
    after.world.events = [prepared] ∧ prepared.version = 1 ∧
    after.eventCache.memory ⟨1⟩ = some [(0, five)] := by
  have holds : Holds .plain ⟨1⟩ 0 [five] [prepared] := rfl
  exact ⟨_, rfl, .request (.ok ()) ⟨_, .waits le_rfl, _, .stored rfl holds, rfl⟩
    (.request (.ok ()) ⟨_, .waits le_rfl, .ok (), .inl rfl, _, rfl, rfl⟩
      (.request (.ok none) ⟨_, .waits le_rfl, .ok none, .inl rfl, _, rfl, rfl⟩ .pure)), rfl, rfl, rfl⟩

end Sample
end BankingEs.Proofs.BatchProcessing
