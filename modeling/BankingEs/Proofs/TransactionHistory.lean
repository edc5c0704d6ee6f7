import Mathlib.Data.Rat.Floor
import Mathlib.Tactic.NormNum
import Mathlib.Tactic.Positivity
import BankingEs.Proofs.Pipeline

/-! The transactions of an account, from the cached events and from the table. The cache
holds the newest batch, oldest event first; the table holds all, newest row first. -/

namespace BankingEs.Proofs.TransactionHistory
open Async AccountService BankingEs.Pipeline KafkaEventProcessor Pipeline

variable {ι Value : Type} {codec : Codec Value} {env : Environment Value} {caller : ι} {id : Uuid}
  {before after : BankingEs.Pipeline ι Value} {batch : EventBatch}

/-- What a transaction says to its reader. -/
def summary (row : TransactionProjection) : String × Decimal := (row.transactionType, row.amount)

def summaryOf (event : AccountEvent) : String × Decimal := (event.eventType, transactionAmount event)

/-- What the table holds of it. -/
def storedSummary (summary : String × Decimal) : String × Decimal := (summary.1, Decimal.rounded summary.2)

private theorem rounded_cents {cents : Int} (nonneg : 0 ≤ cents) {value : Decimal}
    (written : value = (cents : ℚ) / 100 ∨ value = -((cents : ℚ) / 100)) : Decimal.rounded value = value := by
  have size : (0 : ℚ) ≤ (cents : ℚ) / 100 := div_nonneg (mod_cast nonneg) (by norm_num)
  have magnitude : |value| = (cents : ℚ) / 100 := by
    rcases written with rfl | rfl
    · exact abs_of_nonneg size
    · rw [abs_neg, abs_of_nonneg size]
  have floor : Rat.floor ((cents : ℚ) / 100 * 100 + 1 / 2) = cents := by
    change ⌊(cents : ℚ) / 100 * 100 + 1 / 2⌋ = cents
    rw [div_mul_cancel₀ _ (by norm_num), Int.floor_intCast_add]
    norm_num
  unfold Decimal.rounded
  rw [magnitude, floor]
  dsimp only
  rw [← magnitude]
  split
  next negative => rw [abs_of_neg negative, neg_neg]
  next positive => exact abs_of_nonneg (not_lt.mp positive)

private theorem rounded_idempotent (value : Decimal) :
    Decimal.rounded (Decimal.rounded value) = Decimal.rounded value := by
  have nonneg : 0 ≤ Rat.floor (|value| * 100 + 1 / 2) := by
    change 0 ≤ ⌊|value| * 100 + 1 / 2⌋
    positivity
  apply rounded_cents nonneg
  unfold Decimal.rounded
  split
  next => exact .inr rfl
  next => exact .inl rfl

private theorem storedSummary_idempotent (summary : String × Decimal) :
    storedSummary (storedSummary summary) = storedSummary summary :=
  Prod.ext rfl (rounded_idempotent summary.2)

section Sorting

private theorem insertionSort_reverse {rows : List TransactionProjection}
    (increasing : rows.Pairwise fun first second => first.timestamp < second.timestamp) :
    rows.insertionSort (fun first second => second.timestamp ≤ first.timestamp) = rows.reverse := by
  have last (row : TransactionProjection) (rest : List TransactionProjection)
      (earlier : ∀ other ∈ rest, row.timestamp < other.timestamp) :
      rest.orderedInsert (fun first second => second.timestamp ≤ first.timestamp) row = rest ++ [row] := by
    induction rest with
    | nil => rfl
    | cons other rest ih =>
      have apart : ¬ other.timestamp ≤ row.timestamp := not_le.mpr (earlier other List.mem_cons_self)
      rw [List.orderedInsert_of_not_le _ rest apart, ih fun later member => earlier later (List.mem_cons_of_mem _ member)]
      rfl
  induction rows with
  | nil => rfl
  | cons row rows ih =>
    obtain ⟨earlier, increasing⟩ := List.pairwise_cons.mp increasing
    rw [List.insertionSort_cons, ih increasing, List.reverse_cons]
    exact last row _ fun other member => earlier other (List.mem_reverse.mp member)

private theorem selectTransactions_summaries {rows : List TransactionProjection}
    (increasing : (rows.filter fun row => row.accountId = id).Pairwise
      fun first second => first.timestamp < second.timestamp)
    (short : (rows.filter fun row => row.accountId = id).length ≤ 1000) :
    (selectTransactions id rows).map summary = ((rows.filter fun row => row.accountId = id).map summary).reverse := by
  rw [selectTransactions, insertionSort_reverse increasing, List.take_of_length_le (by rwa [List.length_reverse]),
    List.map_reverse]

end Sorting

structure Unread (before after : BankingEs.Pipeline ι Value) : Prop where
  transactions : after.world.transactions = before.world.transactions
  events : after.eventCache = before.eventCache
  copies : after.projectionCache.transactions = before.projectionCache.transactions

namespace Unread

private theorem refl (pipeline : BankingEs.Pipeline ι Value) : Unread pipeline pipeline := ⟨rfl, rfl, rfl⟩

private theorem trans {last : BankingEs.Pipeline ι Value} (one : Unread before after) (two : Unread after last) :
    Unread before last :=
  ⟨two.transactions.trans one.transactions, two.events.trans one.events, two.copies.trans one.copies⟩

end Unread

private theorem getAccount_transactions {fetched reply : Except String (Option AccountProjection)} {now : Instant}
    {cache left : ProjectionCache} (returned : cache.getAccount now fetched id = (reply, left)) :
    left.transactions = cache.transactions := by
  unfold ProjectionCache.getAccount at returned
  split at returned
  next =>
    cases returned
    rfl
  next =>
    split at returned <;> cases returned <;> rfl

def isUnread {β : Type} : SystemCall Value β → Bool
  | .inl .newV4 => true
  | .inl .utcNow => true
  | .inl (.saveEvents _) => true
  | .inl (.projectionsGetAccount _) => true
  | .inl (.cacheSetAccount _ _) => true
  | .inr (.sendCacheUpdate _ _) => true
  | _ => false

private theorem serves_unread {β : Type} {op : SystemCall Value β} {reply : β} (unread : isUnread op)
    (served : serves (exactStore codec) env caller before op reply after) : Unread before after := by
  obtain ⟨ready, passes, served⟩ := served
  have waited := (passes_unwritten passes).transactions
  cases op with
  | inl call =>
    cases call with
    | newV4 =>
      obtain ⟨_, ⟨_, rfl⟩, rfl⟩ := served
      exact ⟨waited, rfl, rfl⟩
    | utcNow =>
      obtain ⟨_, rfl, rfl⟩ := served
      exact ⟨waited, rfl, rfl⟩
    | saveEvents request =>
      obtain ⟨_, saved, rfl⟩ := served
      exact ⟨(exactStore_unwritten saved).transactions.trans waited, rfl, rfl⟩
    | projectionsGetAccount accountId =>
      obtain ⟨_, _, _, returned, rfl⟩ := served
      exact ⟨waited, rfl, getAccount_transactions returned⟩
    | cacheSetAccount account ttl =>
      obtain ⟨_, ⟨_, _, _, _, rfl⟩, rfl⟩ := served
      exact ⟨waited, rfl, rfl⟩
    | _ => cases unread
  | inr call =>
    cases call with
    | sendCacheUpdate accountId account =>
      rcases served with ⟨_, rfl⟩ | ⟨_, rfl⟩
      · exact ⟨waited, rfl, rfl⟩
      · exact ⟨waited, rfl, rfl⟩
    | _ => cases unread

private theorem unread_of_uses {R : Type → Type} {α : Type} {serving : Serves R (BankingEs.Pipeline ι Value)}
    {allowed : {β : Type} → R β → Prop} {program : Program R α}
    (unread : ∀ {β : Type} (op : R β) before reply after, allowed op → serving before op reply after → Unread before after)
    (uses : program.Uses allowed) : Returns serving (fun _ => Unread before) program before :=
  Returns.of_uses (Unread before) uses
    (fun op now reply next permitted served same => same.trans (unread op now reply next permitted served)) (.refl before)

/-- Rows for these events are added, and nothing else that the queries read changes. -/
structure Records (events : List AccountEvent) (before after : BankingEs.Pipeline ι Value) : Prop where
  rows : ∃ rows, after.world.transactions = before.world.transactions ++ rows ∧
    rows.map summary = (events.map summaryOf).map storedSummary ∧
    rows.map TransactionProjection.accountId = events.map AccountEvent.aggregateId
  cached : after.eventCache = before.eventCache
  copies : after.projectionCache.transactions = before.projectionCache.transactions

namespace Records

private theorem nil (unread : Unread before after) : Records [] before after :=
  ⟨⟨[], by rw [unread.transactions, List.append_nil], rfl, rfl⟩, unread.events, unread.copies⟩

private theorem trans {first second : List AccountEvent} {last : BankingEs.Pipeline ι Value}
    (one : Records first before after)
    (two : Records second after last) : Records (first ++ second) before last := by
  obtain ⟨rows, added, summaries, owners⟩ := one.rows
  obtain ⟨more, addedMore, moreSummaries, moreOwners⟩ := two.rows
  refine ⟨⟨rows ++ more, ?_, ?_, ?_⟩, two.cached.trans one.cached, two.copies.trans one.copies⟩
  · rw [addedMore, added, List.append_assoc]
  · rw [List.map_append, List.map_append, List.map_append, summaries, moreSummaries]
  · rw [List.map_append, List.map_append, owners, moreOwners]

end Records

private theorem serves_insert {rows : List TransactionProjection}
    (served : serves (exactStore codec) env caller before (.inl (.insertTransactionsBatch rows)) (.ok ()) after) :
    after.world.transactions = before.world.transactions ++ rows.map TransactionProjection.stored ∧
      after.eventCache = before.eventCache ∧
      after.projectionCache.transactions = before.projectionCache.transactions := by
  obtain ⟨ready, passes, world, ⟨_, rfl⟩ | ⟨⟨_, _, impossible⟩, _⟩, rfl⟩ := served
  · exact ⟨congrArg (· ++ rows.map TransactionProjection.stored) (passes_unwritten passes).transactions, rfl, rfl⟩
  · cases impossible

section Recording

abbrev servesCall (codec : Codec Value) (env : Environment Value) (caller : ι) :
    Serves (Call Value) (BankingEs.Pipeline ι Value) :=
  fun before op reply after => serves (exactStore codec) env caller before (.inl op) reply after

private theorem updateProjection_records (event : AccountEvent) :
    Succeeds (servesCall codec env caller) (fun _ => Records [event] before) (updateProjection event) before := by
  intro drawnId drawn served
  have one := serves_unread rfl served
  intro time told served
  have two := one.trans (serves_unread rfl served)
  refine Succeeds.andThen (.mapError fun _ _ served => serves_insert served) ?_
  rintro _ inserted ⟨rows, cached, copies⟩
  have recorded : Records [event] before inserted :=
    ⟨⟨_, by rw [rows, two.transactions], rfl, rfl⟩, cached.trans two.events, copies.trans two.copies⟩
  refine Returns.mono ?_ (unread_of_uses (fun _ _ _ _ unread served => serves_unread unread served) ?_)
  · exact fun _ _ unread _ _ => recorded.trans (.nil unread)
  · refine Program.Uses.andThen ⟨rfl, fun _ => trivial⟩ fun found => ?_
    cases found with
    | none => trivial
    | some row => exact ⟨rfl, fun _ => trivial⟩

private theorem updateProjections_records (events : List AccountEvent) :
    Succeeds (servesCall codec env caller) (fun _ => Records events before) (updateProjectionsFromEvents events)
      before := by
  induction events generalizing before with
  | nil => exact .ok (.nil (.refl before))
  | cons event events ih =>
    refine (updateProjection_records event).andThen ?_
    intro _ middle one
    exact ih.mono fun _ _ two => one.trans two

end Recording

private theorem recording_records {events : List AccountEvent}
    (run : Runs (serves (exactStore codec) env caller) before ((updateProjectionsFromEvents events).embed .inl)
      (.ok ()) after) : Records events before after := by
  have returns : Succeeds (serves (exactStore codec) env caller) (fun _ => Records events before)
      ((updateProjectionsFromEvents events).embed .inl) before := by
    refine Returns.embed ?_
    exact updateProjections_records events
  exact returns.runs run

structure Delivers (batch : EventBatch) (before after : BankingEs.Pipeline ι Value) : Prop where
  transactions : after.world.transactions = before.world.transactions
  cached : after.eventCache.memory = Function.update before.eventCache.memory batch.accountId (some (versionedEvents batch))
  copies : after.projectionCache.transactions = before.projectionCache.transactions

private theorem serves_cacheEvents
    (served : serves (exactStore codec) env caller before
      (.inr (.cacheSetAccountEvents batch.accountId (versionedEvents batch) none)) (.ok ()) after) :
    Delivers batch before after := by
  obtain ⟨ready, passes, connection, _, cache, returned, rfl⟩ := served
  simp only [EventCache.setAccountEvents] at returned
  split at returned
  next => cases returned
  next =>
    cases returned
    exact ⟨(passes_unwritten passes).transactions, rfl, rfl⟩

private theorem processBatch_delivers (batch : EventBatch) :
    Succeeds (serves (exactStore codec) env caller) (fun _ => Delivers batch before) (processBatch batch) before := by
  refine Succeeds.andThen (.mapError fun _ _ served => serves_unread rfl served) ?_
  intro _ saved one
  refine Succeeds.andThen (.mapError fun _ _ served => serves_cacheEvents served) ?_
  intro _ cached two
  refine Returns.mono ?_ (unread_of_uses (fun _ _ _ _ unread served => serves_unread unread served)
    (publish_uses batch rfl (fun _ _ => rfl) fun _ => rfl))
  intro _ last three _ _
  exact ⟨three.transactions.trans (two.transactions.trans one.transactions), by rw [three.events, two.cached, one.events],
    three.copies.trans (two.copies.trans one.copies)⟩

/-- A batch is delivered to the event processor, or events are recorded. -/
inductive Activity where
  | deliver (batch : EventBatch)
  | record (events : List AccountEvent)

namespace Activity

def delivered : Activity → Option EventBatch
  | deliver batch => some batch
  | record _ => none

def recorded : Activity → List AccountEvent
  | deliver _ => []
  | record events => events

end Activity

inductive Activities (codec : Codec Value) (env : Environment Value) (caller : ι) (first : BankingEs.Pipeline ι Value) :
    List Activity → BankingEs.Pipeline ι Value → Prop where
  | start : Activities codec env caller first [] first
  | deliver {done : List Activity} {middle last : BankingEs.Pipeline ι Value} {batch : EventBatch}
      (run : Activities codec env caller first done middle)
      (delivered : Runs (serves (exactStore codec) env caller) middle (processBatch batch) (.ok ()) last) :
      Activities codec env caller first (done ++ [.deliver batch]) last
  | record {done : List Activity} {middle last : BankingEs.Pipeline ι Value} {events : List AccountEvent}
      (run : Activities codec env caller first done middle)
      (recorded : Runs (serves (exactStore codec) env caller) middle ((updateProjectionsFromEvents events).embed .inl)
        (.ok ()) last) :
      Activities codec env caller first (done ++ [.record events]) last

namespace Activities
variable {first last : BankingEs.Pipeline ι Value} {activities : List Activity}

private theorem rows (run : Activities codec env caller first activities last) :
    ∃ rows, last.world.transactions = first.world.transactions ++ rows ∧
      rows.map summary = ((activities.flatMap Activity.recorded).map summaryOf).map storedSummary ∧
      rows.map TransactionProjection.accountId = (activities.flatMap Activity.recorded).map AccountEvent.aggregateId := by
  induction run with
  | start => exact ⟨[], (List.append_nil _).symm, rfl, rfl⟩
  | deliver run delivered ih =>
    have step := (processBatch_delivers _).runs delivered
    rw [step.transactions, List.flatMap_append]
    simpa [Activity.recorded] using ih
  | record run recorded ih =>
    obtain ⟨more, added, summaries, owners⟩ := (recording_records recorded).rows
    obtain ⟨rows, earlier, oldSummaries, oldOwners⟩ := ih
    refine ⟨rows ++ more, ?_, ?_, ?_⟩
    · rw [added, earlier, List.append_assoc]
    · simp [Activity.recorded, oldSummaries, summaries]
    · simp [Activity.recorded, oldOwners, owners]

private theorem copies (run : Activities codec env caller first activities last) :
    last.projectionCache.transactions = first.projectionCache.transactions := by
  induction run with
  | start => rfl
  | deliver run delivered ih => rw [((processBatch_delivers _).runs delivered).copies, ih]
  | record run recorded ih => rw [(recording_records recorded).copies, ih]

/-- Of all the batches of an account only the last is cached. -/
theorem cached (run : Activities codec env caller first activities last)
    (owned : ∀ batch ∈ activities.filterMap Activity.delivered, batch.accountId = id)
    (newest : (activities.filterMap Activity.delivered).getLast? = some batch) :
    last.eventCache.memory id = some (versionedEvents batch) := by
  induction run with
  | start => cases newest
  | deliver run delivered ih =>
    rw [List.filterMap_append] at newest owned
    obtain rfl := Option.some.inj (List.getLast?_concat.symm.trans newest)
    have owner := owned _ (List.mem_append_right _ List.mem_cons_self)
    rw [((processBatch_delivers _).runs delivered).cached, owner, Function.update_self]
  | record run recorded ih =>
    have same (activities : List Activity) (events : List AccountEvent) :
        (activities ++ [Activity.record events]).filterMap Activity.delivered =
          activities.filterMap Activity.delivered := by
      rw [List.filterMap_append]
      exact List.append_nil _
    rw [same] at newest owned
    rw [(recording_records recorded).cached]
    exact ih owned newest

private theorem own_rows (run : Activities codec env caller first activities last)
    (unrecorded : ∀ row ∈ first.world.transactions, row.accountId ≠ id)
    (owned : ∀ event ∈ activities.flatMap Activity.recorded, event.aggregateId = id) :
    (last.world.transactions.filter fun row => row.accountId = id).map summary =
      ((activities.flatMap Activity.recorded).map summaryOf).map storedSummary := by
  obtain ⟨rows, added, summaries, owners⟩ := run.rows
  have none : first.world.transactions.filter (fun row => row.accountId = id) = [] := by
    simpa [List.filter_eq_nil_iff] using unrecorded
  have all : rows.filter (fun row => row.accountId = id) = rows := by
    apply List.filter_eq_self.mpr
    intro row member
    have owner := List.mem_map_of_mem (f := TransactionProjection.accountId) member
    rw [owners] at owner
    obtain ⟨event, found, same⟩ := List.mem_map.mp owner
    rw [← same]
    simpa using owned event found
  rw [added, List.filter_append, none, all, List.nil_append, summaries]

end Activities

section Reading
variable {store : Store ι Value}

private theorem transactionsOf_summaries (events : List AccountEvent) :
    Returns (serves store env caller) (fun rows _ => rows.map summary = events.map summaryOf)
      (transactionsOf events) before := by
  induction events generalizing before with
  | nil => rfl
  | cons event events ih =>
    intro drawnId drawn _ time told _
    refine ih.bind ?_
    intro rows after summaries
    change summaryOf event :: rows.map summary = _
    rw [summaries]
    rfl

private theorem cached_read {events : VersionedEvents} (held : before.eventCache.memory id = some events) :
    Succeeds (serves store env caller) (fun rows _ => rows.map summary = (events.map Prod.snd).map summaryOf)
      (getAccountTransactions id) before := by
  intro reply read served
  obtain ⟨ready, passes, connection, _, cache, returned, rfl⟩ := served
  have hit : reply = .ok (some (events.map Prod.snd)) := by
    simp only [EventCache.getAccountEvents, held] at returned
    exact (congrArg Prod.fst returned).symm
  subst hit
  exact (transactionsOf_summaries (events.map Prod.snd)).bind fun _ _ summaries => Succeeds.ok summaries

private theorem table_read (unheld : before.eventCache.memory id = none) (expired : before.eventCache.redis id = none)
    (uncopied : before.projectionCache.transactions id = none) :
    Succeeds (serves store env caller) (fun rows _ => rows = selectTransactions id before.world.transactions)
      (getAccountTransactions id) before := by
  intro reply missed served
  obtain ⟨ready, passes, connection, _, cache, returned, rfl⟩ := served
  simp only [EventCache.getAccountEvents, unheld, EventCache.redisGet, expired, Option.filter_none] at returned
  rcases connection with error | connected
  · cases returned
    exact Succeeds.error
  cases returned
  intro reply queried served
  obtain ⟨later, passesLater, fetched, answer, copies, returned, rfl⟩ := served
  have same : later.transactions = before.world.transactions :=
    (passes_unwritten passesLater).transactions.trans (passes_unwritten passes).transactions
  simp only [ProjectionCache.getAccountTransactions, uncopied, ProjectionCache.live, Option.filter_none,
    Option.map_none] at returned
  rcases answer with rfl | ⟨_, error, rfl⟩
  · cases returned
    exact Succeeds.ok (by rw [same])
  · cases returned
    exact Succeeds.error

end Reading

private theorem eq_reverse_append_iff {α : Type} {stored : α → α}
    (idempotent : ∀ value, stored (stored value) = stored value)
    {list more : List α} :
    list = (list.map stored).reverse ++ more ↔ more = [] ∧ list.reverse = list ∧ ∀ value ∈ list, stored value = value := by
  constructor
  · intro same
    have count := congrArg List.length same
    rw [List.length_append, List.length_reverse, List.length_map] at count
    have empty : more = [] := List.eq_nil_of_length_eq_zero (by omega)
    rw [empty, List.append_nil] at same
    have kept : list.map stored = list := by
      nth_rewrite 1 [same]
      rw [List.map_reverse, List.map_map, show stored ∘ stored = stored from funext idempotent]
      exact same.symm
    refine ⟨empty, ?_, ?_⟩
    · nth_rewrite 1 [← kept]
      exact same.symm
    · intro value member
      exact List.map_inj_left.mp (kept.trans (List.map_id list).symm) value member
  · rintro ⟨rfl, palindrome, kept⟩
    rw [List.append_nil, List.map_congr_left kept, List.map_id'', palindrome]
    exact fun _ => rfl

/-- The cached events and the table tell the same history exactly if there is no event but in the
last batch, that reads the same in both directions, and the table holds its amounts to the cent. -/
theorem transactions_agree_iff {first last : BankingEs.Pipeline ι Value} {activities : List Activity}
    (run : Activities codec env caller first activities last) {done : List EventBatch} {newest : EventBatch}
    (delivered : activities.filterMap Activity.delivered = done ++ [newest])
    (recorded : activities.flatMap Activity.recorded = (done ++ [newest]).flatMap EventBatch.events)
    (owned : ∀ batch ∈ done ++ [newest], batch.accountId = id ∧ ∀ event ∈ batch.events, event.aggregateId = id)
    (short : ((done ++ [newest]).flatMap EventBatch.events).length ≤ 1000)
    (unrecorded : ∀ row ∈ first.world.transactions, row.accountId ≠ id)
    (uncopied : first.projectionCache.transactions id = none)
    (increasing : (last.world.transactions.filter fun row => row.accountId = id).Pairwise
      fun first second => first.timestamp < second.timestamp)
    {fromCache fromTable : List TransactionProjection} {store : Store ι Value} {reader : Environment Value}
    {warm cold : BankingEs.Pipeline ι Value}
    (read : Runs (serves store reader caller) last (getAccountTransactions id) (.ok fromCache) warm)
    {lost : EventCache} (missing : lost.memory id = none ∧ lost.redis id = none)
    (query : Runs (serves store reader caller) { last with eventCache := lost } (getAccountTransactions id)
      (.ok fromTable) cold) :
    fromCache.map summary = fromTable.map summary ↔
      (∀ batch ∈ done, batch.events = []) ∧
        (newest.events.map summaryOf).reverse = newest.events.map summaryOf ∧
        ∀ event ∈ newest.events, Decimal.rounded (transactionAmount event) = transactionAmount event := by
  have cached : fromCache.map summary = newest.events.map summaryOf := by
    have held := run.cached (fun batch member => (owned batch (delivered ▸ member)).1)
      (by rw [delivered, List.getLast?_concat])
    have same : (versionedEvents newest).map Prod.snd = newest.events := by
      simp [versionedEvents, List.mapIdx_eq_zipIdx_map, Function.comp_def]
    rw [← same]
    exact (cached_read held).runs read
  have queried : fromTable.map summary =
      ((((done ++ [newest]).flatMap EventBatch.events).map summaryOf).map storedSummary).reverse := by
    have selected := (table_read missing.1 missing.2 (run.copies ▸ uncopied)).runs query
    have rows := run.own_rows unrecorded fun event member => ?_
    · have count := congrArg List.length rows
      rw [List.length_map, List.length_map, List.length_map, recorded] at count
      rw [selected, selectTransactions_summaries increasing (count ▸ short), rows, recorded]
    · rw [recorded] at member
      obtain ⟨batch, inside, found⟩ := List.mem_flatMap.mp member
      exact (owned batch inside).2 event found
  rw [cached, queried, List.flatMap_append, List.map_append, List.map_append, List.reverse_append, List.flatMap_singleton,
    eq_reverse_append_iff storedSummary_idempotent, List.reverse_eq_nil_iff, List.map_eq_nil_iff, List.map_eq_nil_iff,
    List.flatMap_eq_nil_iff, List.forall_mem_map]
  simp [storedSummary, summaryOf]

section Sample
open Sample

private def both : EventBatch := ⟨⟨1⟩, [opening, five], 0⟩

private def recordedBoth : BankingEs.Pipeline Unit AccountEvent where
  world := { issued := [((), ⟨4⟩), ((), ⟨3⟩)],
             transactions := [⟨⟨3⟩, ⟨1⟩, "AccountCreated", 0, 1000⟩, ⟨⟨4⟩, ⟨1⟩, "MoneyDeposited", 5, 2000⟩].map
               TransactionProjection.stored }

private theorem both_recorded : Runs (serves (exactStore .plain) .accepting ()) {}
    ((updateProjectionsFromEvents [opening, five]).embed .inl) (.ok ()) recordedBoth := by
  refine .request (⟨3⟩ : Uuid) ⟨_, .waits le_rfl, _, ⟨by decide, rfl⟩, rfl⟩ ?_
  refine .request (1000 : DateTime) ⟨_, .waits le_rfl, _, rfl, rfl⟩ ?_
  refine .request (.ok ()) ⟨_, .waits le_rfl, _, .inl ⟨rfl, rfl⟩, rfl⟩ ?_
  refine .request (.ok none) ⟨_, .waits le_rfl, .ok none, .inl rfl, _, rfl, rfl⟩ ?_
  refine .request (⟨4⟩ : Uuid) ⟨_, .waits le_rfl, _, ⟨by decide, rfl⟩, rfl⟩ ?_
  refine .request (2000 : DateTime) ⟨_, .waits le_rfl, _, rfl, rfl⟩ ?_
  refine .request (.ok ()) ⟨_, .waits le_rfl, _, .inl ⟨rfl, rfl⟩, rfl⟩ ?_
  exact .request (.ok none) ⟨_, .waits le_rfl, .ok none, .inl rfl, _, rfl, rfl⟩ .pure

private theorem both_delivered : ∃ last,
    Runs (serves (exactStore .plain) .accepting ()) recordedBoth (processBatch both) (.ok ()) last ∧
      last.world.transactions = recordedBoth.world.transactions ∧ last.world.issued = recordedBoth.world.issued ∧
      last.eventCache.memory ⟨1⟩ = some (versionedEvents both) ∧ last.projectionCache = {} := by
  have holds : Holds .plain ⟨1⟩ 0 [opening, five] [plainRow ⟨1⟩ 1 opening, plainRow ⟨1⟩ 2 five] := rfl
  exact ⟨_, .request (.ok ()) ⟨_, .waits le_rfl, _, .stored rfl holds, rfl⟩
    (.request (.ok ()) ⟨_, .waits le_rfl, .ok (), .inl rfl, _, rfl, rfl⟩
      (.request (.ok none) ⟨_, .waits le_rfl, .ok none, .inl rfl, _, rfl, rfl⟩ .pure)), rfl, rfl, rfl, rfl⟩

private theorem both_read {last : BankingEs.Pipeline Unit AccountEvent}
    (issued : last.world.issued = recordedBoth.world.issued)
    (held : last.eventCache.memory ⟨1⟩ = some (versionedEvents both)) : ∃ rows warm,
    Runs (serves (exactStore .plain) .accepting ()) last (getAccountTransactions ⟨1⟩) (.ok rows) warm := by
  have hit : last.eventCache.getAccountEvents last.world.now (.ok ()) ⟨1⟩ =
      (.ok (some [opening, five]), last.eventCache) := by
    rw [EventCache.getAccountEvents, held]
    rfl
  have fresh : ∀ entry ∈ last.world.issued, entry.2 ≠ ⟨5⟩ := by
    rw [issued]
    decide
  have freshAgain : ∀ entry ∈ ((), ⟨5⟩) :: last.world.issued, entry.2 ≠ (⟨6⟩ : Uuid) := by
    rw [issued]
    decide
  exact ⟨_, _, .request (.ok (some [opening, five])) ⟨_, .waits le_rfl, .ok (), .inl rfl, _, hit, rfl⟩
    (.request (⟨5⟩ : Uuid) ⟨_, .waits le_rfl, _, ⟨fresh, rfl⟩, rfl⟩
      (.request (3 : DateTime) ⟨_, .waits le_rfl, _, rfl, rfl⟩
        (.request (⟨6⟩ : Uuid) ⟨_, .waits le_rfl, _, ⟨freshAgain, rfl⟩, rfl⟩
          (.request (4 : DateTime) ⟨_, .waits le_rfl, _, rfl, rfl⟩ .pure))))⟩

private theorem both_queried {last : BankingEs.Pipeline Unit AccountEvent} (uncopied : last.projectionCache = {}) :
    ∃ rows cold, Runs (serves (exactStore .plain) .accepting ()) { last with eventCache := {} }
      (getAccountTransactions ⟨1⟩) (.ok rows) cold := by
  obtain ⟨left, missed⟩ : ∃ left, last.projectionCache.getAccountTransactions last.world.now
      (.ok (selectTransactions ⟨1⟩ last.world.transactions)) ⟨1⟩ =
        (.ok (selectTransactions ⟨1⟩ last.world.transactions), left) := by
    rw [uncopied]
    exact ⟨_, rfl⟩
  exact ⟨_, _, .request (.ok none) ⟨_, .waits le_rfl, .ok (), .inl rfl, _, rfl, rfl⟩
    (.request (.ok _) ⟨_, .waits le_rfl, .ok _, .inl rfl, _, missed, rfl⟩ .pure)⟩

private theorem both_activities : ∃ last,
    Activities .plain .accepting () {} [.record [opening, five], .deliver both] last ∧
    ((last.world.transactions.filter fun row => row.accountId = ⟨1⟩).Pairwise
      fun first second => first.timestamp < second.timestamp) ∧
    (∃ rows warm, Runs (serves (exactStore .plain) .accepting ()) last (getAccountTransactions ⟨1⟩) (.ok rows) warm) ∧
    ∃ rows cold, Runs (serves (exactStore .plain) .accepting ()) { last with eventCache := {} }
      (getAccountTransactions ⟨1⟩) (.ok rows) cold := by
  obtain ⟨last, run, transactions, issued, held, uncopied⟩ := both_delivered
  refine ⟨last, .deliver (.record .start both_recorded) run, ?_, both_read issued held, both_queried uncopied⟩
  rw [transactions]
  decide +kernel

/-- The cache lists an opening before a deposit, and the table after it. -/
theorem transactions_differ : ∃ last fromCache warm fromTable cold,
    Activities .plain .accepting () {} [.record [opening, five], .deliver both] last ∧
    ((last.world.transactions.filter fun row => row.accountId = ⟨1⟩).Pairwise
      fun first second => first.timestamp < second.timestamp) ∧
    Runs (serves (exactStore .plain) .accepting ()) last (getAccountTransactions ⟨1⟩) (.ok fromCache) warm ∧
    Runs (serves (exactStore .plain) .accepting ()) { last with eventCache := {} }
      (getAccountTransactions ⟨1⟩) (.ok fromTable) cold ∧
    fromCache.map summary = [("AccountCreated", 0), ("MoneyDeposited", 5)] ∧
    fromTable.map summary = [("MoneyDeposited", 5), ("AccountCreated", 0)] := by
  obtain ⟨last, run, transactions, issued, held, uncopied⟩ := both_delivered
  obtain ⟨fromCache, warm, read⟩ := both_read issued held
  obtain ⟨fromTable, cold, query⟩ := both_queried uncopied
  refine ⟨last, fromCache, warm, fromTable, cold, .deliver (.record .start both_recorded) run, ?_, read, query, ?_, ?_⟩
  · rw [transactions]
    decide +kernel
  · exact (cached_read held).runs read
  · have unread : ({ last with eventCache := {} } : BankingEs.Pipeline Unit AccountEvent).projectionCache.transactions ⟨1⟩ =
        none := by
      rw [uncopied]
    have selected := (table_read rfl rfl unread).runs query
    rw [selected, transactions]
    decide +kernel

theorem transactions_agree_sample : ∃ last fromCache warm fromTable cold,
    Activities .plain .accepting () {} [.record [opening, five], .deliver both] last ∧
    Runs (serves (exactStore .plain) .accepting ()) last (getAccountTransactions ⟨1⟩) (.ok fromCache) warm ∧
    Runs (serves (exactStore .plain) .accepting ()) { last with eventCache := {} }
      (getAccountTransactions ⟨1⟩) (.ok fromTable) cold ∧
    fromCache.map summary ≠ fromTable.map summary := by
  obtain ⟨last, run, increasing, ⟨fromCache, warm, read⟩, fromTable, cold, query⟩ := both_activities
  refine ⟨last, fromCache, warm, fromTable, cold, run, read, query, fun same => ?_⟩
  have delivered : [Activity.record [opening, five], .deliver both].filterMap Activity.delivered = [] ++ [both] := rfl
  have agree := transactions_agree_iff run delivered rfl (by decide) (by decide) (by decide) rfl increasing read
    ⟨rfl, rfl⟩ query
  exact absurd (agree.mp same).2.1 (by decide)

end Sample

end BankingEs.Proofs.TransactionHistory
