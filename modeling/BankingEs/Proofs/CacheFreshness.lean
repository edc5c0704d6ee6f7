import BankingEs.Cache.History
import BankingEs.Keyed

/-! Reads of the cache are never stale. Both levels together are a store that forgets:
what a lookup can be answered with is the last value that was set. A deletion is seen
by all later reads exactly if it leaves nothing to answer with. -/

namespace BankingEs.Proofs.CacheFreshness
open Cache Forgetful

def heldAccounts (state : Instant × Cache) (id : Uuid) (account : Account) : Prop :=
  state.2.accounts.Servable state.1 id account

def heldEvents (state : Instant × Cache) (id : Uuid) (events : VersionedEvents) : Prop :=
  state.2.events.Servable state.1 id events

section Traces
variable {permits : List Served → Cache → Instant → Operation → Prop} {first now : Instant} {start cache : Cache}
  {history : List Served}

private theorem accounts_trace (run : Run permits first start history now cache) :
    Trace heldAccounts (first, start)
      (history.map fun call => call.accountSet.map fun written => (written.key, written.value)) (now, cache) := by
  refine run.trace ?_
  intro before now cache redis operation later
  have earlier : Loses heldAccounts (before, cache) (now, cache) := fun _ _ held => held.earlier later
  rcases perform_accounts cache now redis operation with ⟨account, ttl, _, set, after⟩ | ⟨unset, moves⟩
  · rw [set]
    refine earlier.writes (?_ : Writes heldAccounts account.id account (now, cache) _)
    intro id held servable
    rw [heldAccounts, after] at servable
    exact CacheService.store_servable servable
  · rw [unset]
    exact earlier.trans fun _ _ servable => moves.servable servable

private theorem events_trace (run : Run permits first start history now cache) :
    Trace heldEvents (first, start)
      (history.map fun call => call.eventsSet.map fun written => (written.key, written.value)) (now, cache) := by
  refine run.trace ?_
  intro before now cache redis operation later
  have earlier : Loses heldEvents (before, cache) (now, cache) := fun _ _ held => held.earlier later
  rcases perform_events cache now redis operation with ⟨id, events, ttl, _, set, after⟩ | ⟨unset, moves⟩
  · rw [set]
    refine earlier.writes (?_ : Writes heldEvents id events (now, cache) _)
    intro other held servable
    rw [heldEvents, after] at servable
    exact EventCache.store_servable servable
  · rw [unset]
    exact earlier.trans fun _ _ servable => moves.servable servable

theorem returned_account {past : List Served} {call : Served} {id : Uuid} {account : Account}
    (run : Run permits first start history now cache) (earlier : past ++ [call] <+: history)
    (asked : call.operation = .getAccount id) (returned : call.reply = .account (.ok (some account))) :
    ∃ before found, Run permits first start past before found ∧ before ≤ call.now ∧
      found.accounts.Servable call.now id account := by
  obtain ⟨before, found, redis, run, later, _, reply⟩ := run.earlier earlier
  rw [asked, returned] at reply
  refine ⟨before, found, run, later, ?_⟩
  apply CacheService.getAccount_servable
  exact (Reply.account.inj reply).symm

private theorem returned_events {past : List Served} {call : Served} {id : Uuid} {answer : List AccountEvent}
    (run : Run permits first start history now cache) (earlier : past ++ [call] <+: history)
    (asked : call.operation = .getAccountEvents id) (returned : call.reply = .events (.ok (some answer))) :
    ∃ before found events, Run permits first start past before found ∧ before ≤ call.now ∧
      found.events.Servable call.now id events ∧ answer = events.map Prod.snd := by
  obtain ⟨before, found, redis, run, later, _, reply⟩ := run.earlier earlier
  rw [asked, returned] at reply
  obtain ⟨events, servable, same⟩ := EventCache.getAccountEvents_servable (Reply.events.inj reply).symm
  exact ⟨before, found, events, run, later, servable, same⟩

end Traces

/-- A cache in which nothing has been set. -/
def fresh (config : CacheConfig) (warmupBatchSize : Nat) : Cache := { accounts := { config }, warmupBatchSize }

private theorem fresh_accounts (config : CacheConfig) (size : Nat) (now : Instant) (id : Uuid) (account : Account) :
    ¬heldAccounts (now, fresh config size) id account := by
  intro held
  cases held with
  | memory member live => exact List.not_mem_nil member
  | redis found live => cases found

private theorem fresh_events (config : CacheConfig) (size : Nat) (now : Instant) (id : Uuid)
    (events : VersionedEvents) :
    ¬heldEvents (now, fresh config size) id events := by
  intro held
  cases held with
  | memory found => cases found
  | redis found live => cases found

section Last
variable {permits : List Served → Cache → Instant → Operation → Prop} {config : CacheConfig} {size : Nat}
  {first now later : Instant} {history : List Served} {cache : Cache} {id : Uuid}

/-- What a cache that started fresh can answer with is what was set last. -/
theorem last_account {account : Account} (run : Run permits first (fresh config size) history now cache)
    (order : now ≤ later) (servable : cache.accounts.Servable later id account) :
    ∃ written, (writtenTo Served.accountSet id history).getLast? = some written ∧ written.value = account := by
  have last := (accounts_trace run).last_written (fresh_accounts config size first) (servable.earlier order)
  rw [writesTo_history, List.getLast?_map] at last
  exact Option.map_eq_some_iff.mp last

theorem last_events {events : VersionedEvents} (run : Run permits first (fresh config size) history now cache)
    (order : now ≤ later) (servable : cache.events.Servable later id events) :
    ∃ written, (writtenTo Served.eventsSet id history).getLast? = some written ∧ written.value = events := by
  have last := (events_trace run).last_written (fresh_events config size first) (servable.earlier order)
  rw [writesTo_history, List.getLast?_map] at last
  exact Option.map_eq_some_iff.mp last

end Last

/-- Whatever calls are made, fail or go missing, a read returns the value of the last
successful set or nothing. -/
theorem reads_last_set {config : CacheConfig} {size : Nat} {first now : Instant} {history past : List Served}
    {cache : Cache} {call : Served} (run : Run anything first (fresh config size) history now cache)
    (earlier : past ++ [call] <+: history) (id : Uuid) :
    (∀ account, call.operation = .getAccount id → call.reply = .account (.ok (some account)) →
      (writtenTo Served.accountSet id past).getLast?.map Written.value = some account) ∧
    (∀ events, call.operation = .getAccountEvents id → call.reply = .events (.ok (some events)) →
      ((writtenTo Served.eventsSet id past).getLast?.map fun written => written.value.map Prod.snd) = some events) := by
  refine ⟨?_, ?_⟩
  · intro account asked returned
    obtain ⟨before, found, run, later, servable⟩ := returned_account run earlier asked returned
    obtain ⟨written, last, rfl⟩ := last_account run later servable
    rw [last, Option.map_some]
  · intro answer asked returned
    obtain ⟨before, found, events, run, later, servable, rfl⟩ := returned_events run earlier asked returned
    obtain ⟨written, last, rfl⟩ := last_events run later servable
    rw [last, Option.map_some]

private def sample : Account := Sample.account ⟨0⟩ 0

theorem reads_last_set_sample :
    (writtenTo Served.accountSet ⟨0⟩ [⟨0, .setAccount sample none, .done (.ok ())⟩,
      ⟨1, .setAccount { sample with balance := 5 } none, .done (.ok ())⟩]).getLast?.map Written.value =
      some { sample with balance := 5 } := by
  have run := (Run.single (fresh {} 100) 0 connected (.setAccount sample none)).next connected
    (.setAccount { sample with balance := 5 } none) (show (0 : Int) ≤ 1 by decide)
  have read := run.next connected (.getAccount ⟨0⟩) (show (1 : Int) ≤ 1000000000 by decide)
  exact (reads_last_set read (List.prefix_refl _) ⟨0⟩).1 { sample with balance := 5 } rfl rfl

/-- The keys of a `DashMap` are different from each other. -/
def UniqueKeys (cache : Cache) : Prop := ∀ index, ((cache.accounts.shards index).map Prod.fst).Nodup

private theorem entry_of_mem {cache : Cache} (unique : UniqueKeys cache) {id : Uuid} {entry : CacheEntry}
    (member : (id, entry) ∈ cache.accounts.shards (cache.accounts.getShardIndex id)) :
    cache.accounts.entry id = some entry :=
  (Keyed.lookup_eq_some_iff_mem (unique _)).mpr member

/-- What can be served is served by the next read, if Redis answers it. -/
theorem servable_answered {cache : Cache} (unique : UniqueKeys cache) {now : Instant} {id : Uuid} {account : Account}
    (servable : cache.accounts.Servable now id account) :
    ∃ found, (cache.accounts.getAccount now (.ok ()) id).1 = .ok (some found) := by
  have through {dropped : CacheService} (same : dropped.redis = cache.accounts.redis)
      (unheld : ∀ entry, cache.accounts.entry id = some entry → CacheService.isExpired now entry = true) :
      ∃ found, (dropped.readThrough now (.ok ()) id).1 = .ok (some found) := by
    cases servable with
    | memory member live =>
      have expired := unheld _ (entry_of_mem unique member)
      rw [live] at expired
      cases expired
    | @redis account expiresAt found live =>
      have read : dropped.redisGet now id = some ⟨some account, expiresAt⟩ := by
        rw [CacheService.redisGet, same, found]
        simpa using live
      exact ⟨account, by simp [CacheService.readThrough, read]⟩
  simp only [CacheService.getAccount]
  split
  next held entry found =>
    split
    next expired =>
      refine through rfl ?_
      intro other same
      cases found.symm.trans same
      exact expired
    next => exact ⟨_, rfl⟩
  next found =>
    refine through rfl ?_
    intro entry same
    cases found.symm.trans same

/-- No read returns the account until it is set again. -/
def StaysGone (id : Uuid) (now : Instant) (cache : Cache) : Prop :=
  ∀ history later last, Run anything now cache history later last → writtenTo Served.accountSet id history = [] →
    ∀ call ∈ history, call.operation = .getAccount id → ∀ account, call.reply ≠ .account (.ok (some account))

def EventsStayGone (id : Uuid) (now : Instant) (cache : Cache) : Prop :=
  ∀ history later last, Run anything now cache history later last → writtenTo Served.eventsSet id history = [] →
    ∀ call ∈ history, call.operation = .getAccountEvents id → ∀ events, call.reply ≠ .events (.ok (some events))

private theorem past_of_mem {call : Served} {history : List Served} (member : call ∈ history) :
    ∃ past, past ++ [call] <+: history := by
  obtain ⟨past, rest, split⟩ := List.append_of_mem member
  exact ⟨past, rest, by simp [split]⟩

private theorem unwritten_past {α : Type} {set : Served → Option (Written α)} {id : Uuid} {past history : List Served}
    {call : Served} (earlier : past ++ [call] <+: history) (unwritten : writtenTo set id history = []) :
    writtenTo set id past = [] := by
  obtain ⟨rest, rfl⟩ := earlier
  simp only [writtenTo, List.filterMap_append, List.filter_append, List.append_eq_nil_iff] at unwritten ⊢
  exact unwritten.1.1

private theorem staysGone_of_absent {cache : Cache} {id : Uuid} {now : Instant}
    (absent : ∀ account, ¬cache.accounts.Servable now id account) : StaysGone id now cache := by
  intro history later last run unwritten call member asked account returned
  obtain ⟨past, earlier⟩ := past_of_mem member
  obtain ⟨before, found, run, order, servable⟩ := returned_account run earlier asked returned
  refine (accounts_trace run).absent absent ?_ (servable.earlier order)
  rw [writesTo_history, unwritten_past earlier unwritten, List.map_nil]

private theorem staysGone_iff {cache : Cache} (unique : UniqueKeys cache) (id : Uuid) (now : Instant) :
    StaysGone id now cache ↔ ∀ account, ¬cache.accounts.Servable now id account := by
  refine ⟨?_, staysGone_of_absent⟩
  intro gone account servable
  obtain ⟨found, answer⟩ := servable_answered unique servable
  have run := Run.single cache now connected (.getAccount id)
  exact gone _ _ _ run rfl _ (List.mem_singleton.mpr rfl) rfl found (congrArg Reply.account answer)

private theorem eventsStayGone_iff (cache : Cache) (id : Uuid) (now : Instant) :
    EventsStayGone id now cache ↔ ∀ events, ¬cache.events.Servable now id events := by
  constructor
  · intro gone events servable
    have answered : ∃ answer, (cache.events.getAccountEvents now (.ok ()) id).1 = .ok (some answer) := by
      cases servable with
      | memory found => exact ⟨events.map Prod.snd, by simp only [EventCache.getAccountEvents, found]⟩
      | @redis expiresAt found live =>
        have read : cache.events.redisGet now id = some ⟨some events, expiresAt⟩ := by
          rw [EventCache.redisGet, found]
          simpa using live
        cases held : cache.events.memory id with
        | some other => exact ⟨other.map Prod.snd, by simp only [EventCache.getAccountEvents, held]⟩
        | none => exact ⟨events.map Prod.snd, by simp only [EventCache.getAccountEvents, held, read]⟩
    obtain ⟨answer, answered⟩ := answered
    have run := Run.single cache now connected (.getAccountEvents id)
    exact gone _ _ _ run rfl _ (List.mem_singleton.mpr rfl) rfl answer (congrArg Reply.events answered)
  · intro absent history later last run unwritten call member asked answer returned
    obtain ⟨past, earlier⟩ := past_of_mem member
    obtain ⟨before, found, events, run, order, servable, _⟩ := returned_events run earlier asked returned
    refine (events_trace run).absent absent ?_ (servable.earlier order)
    rw [writesTo_history, unwritten_past earlier unwritten, List.map_nil]

private theorem deleteAccount_ok {cache : Cache} {redis : Redis} {id : Uuid}
    (done : (cache.deleteAccount redis id).1 = .ok ()) : (cache.deleteAccount redis id).2 = cache.deleteKey id := by
  rw [deleteAccount] at done ⊢
  cases outcome : command redis with
  | error error => simp [outcome] at done
  | ok connected => rfl

private theorem deleteAccountEvents_ok {cache : Cache} {redis : Redis} {id : Uuid}
    (done : (cache.deleteAccountEvents redis id).1 = .ok ()) :
    (cache.deleteAccountEvents redis id).2 = cache.deleteEventsKey id := by
  rw [deleteAccountEvents] at done ⊢
  cases outcome : command redis with
  | error error => simp [outcome] at done
  | ok connected => rfl

private theorem invalidateAccount_ok {cache : Cache} {redis : Redis} {id : Uuid}
    (done : (cache.invalidateAccount redis id).1 = .ok ()) : (cache.invalidateAccount redis id).2 =
      (((cache.removeEntry id).removeEvents id).deleteKey id).deleteEventsKey id := by
  rw [invalidateAccount] at done ⊢
  cases outcome : command redis with
  | error error => simp [outcome] at done
  | ok connected =>
    cases last : redis 2 with
    | error error => simp [outcome, last] at done
    | ok connected => rfl

/-- Deleting an account or its events empties Redis only, so it is seen by all later
reads exactly if memory did not hold them; invalidating always is. -/
theorem deletion_seen_iff {cache : Cache} (unique : UniqueKeys cache) (now : Instant) (redis : Redis) (id : Uuid) :
    ((cache.deleteAccount redis id).1 = .ok () →
      (StaysGone id now (cache.deleteAccount redis id).2 ↔ cache.accounts.Misses now id)) ∧
    ((cache.deleteAccountEvents redis id).1 = .ok () →
      (EventsStayGone id now (cache.deleteAccountEvents redis id).2 ↔ cache.events.memory id = none)) ∧
    ((cache.invalidateAccount redis id).1 = .ok () →
      StaysGone id now (cache.invalidateAccount redis id).2 ∧
        EventsStayGone id now (cache.invalidateAccount redis id).2) := by
  refine ⟨?_, ?_, ?_⟩
  · intro done
    rw [deleteAccount_ok done, staysGone_iff (by exact unique)]
    constructor
    · intro gone entry found
      by_contra live
      exact gone _ (.memory (CacheService.entry_member found) (by simpa using live))
    · intro misses account servable
      cases servable with
      | memory member live =>
        have expired := misses _ (entry_of_mem unique member)
        rw [live] at expired
        cases expired
      | redis found live => simp [deleteKey] at found
  · intro done
    rw [deleteAccountEvents_ok done, eventsStayGone_iff]
    constructor
    · intro gone
      by_contra held
      obtain ⟨events, found⟩ := Option.ne_none_iff_exists'.mp held
      exact gone events (.memory found)
    · intro missing events servable
      cases servable with
      | memory found => exact absurd (missing.symm.trans found) (by simp)
      | redis found live => simp [deleteEventsKey] at found
  · intro done
    rw [invalidateAccount_ok done]
    refine ⟨?_, ?_⟩
    · apply staysGone_of_absent
      intro account servable
      cases servable with
      | memory member live =>
        simp [deleteEventsKey, deleteKey, removeEvents, removeEntry, CacheService.setShard,
          CacheService.getShardIndex, Shard.remove] at member
      | redis found live => simp [deleteEventsKey, deleteKey] at found
    · rw [eventsStayGone_iff]
      intro events servable
      cases servable with
      | memory found => simp [deleteEventsKey, deleteKey, removeEvents, removeEntry] at found
      | redis found live => simp [deleteEventsKey] at found

private def redisOnly : Cache :=
  { fresh {} 100 with accounts.redis := fun id => if id = ⟨0⟩ then some ⟨some sample, 1000000000⟩ else none }

private def heldEntry : CacheEntry :=
  { value := sample, createdAt := 0, lastAccessed := 0, accessCount := 1, ttl := Duration.fromSecs 1 }

private def held : Cache :=
  { redisOnly with
    accounts.shards := fun index => if index = 0 then [(⟨0⟩, heldEntry)] else []
    events.memory := fun id => if id = ⟨0⟩ then some [(1, .accountCreated ⟨0⟩ "" 0)] else none }

theorem deletion_seen_sample :
    redisOnly.accounts.Servable 0 ⟨0⟩ sample ∧ StaysGone ⟨0⟩ 0 (redisOnly.deleteAccount connected ⟨0⟩).2 ∧
    held.accounts.Servable 0 ⟨0⟩ sample ∧ held.events.Servable 0 ⟨0⟩ [(1, .accountCreated ⟨0⟩ "" 0)] ∧
    StaysGone ⟨0⟩ 0 (held.invalidateAccount connected ⟨0⟩).2 ∧
    EventsStayGone ⟨0⟩ 0 (held.invalidateAccount connected ⟨0⟩).2 := by
  have unique : UniqueKeys redisOnly := fun _ => List.nodup_nil
  have uniqueHeld : UniqueKeys held := by
    intro index
    dsimp only [held]
    split
    next => exact List.nodup_singleton _
    next => exact List.nodup_nil
  refine ⟨.redis rfl (by decide), ?_, ?_, .memory rfl, ?_⟩
  · exact ((deletion_seen_iff unique 0 connected ⟨0⟩).1 rfl).mpr fun _ found => by cases found
  · exact @CacheService.Servable.memory held.accounts 0 ⟨0⟩ heldEntry (List.mem_singleton_self _) (by decide)
  · exact (deletion_seen_iff uniqueHeld 0 connected ⟨0⟩).2.2 rfl

/-- An account that was deleted successfully, and the events beside it, come back. -/
theorem deleted_returned : ∃ history cache, Run anything 0 (fresh {} 100) history 0 cache ∧ history =
    [⟨0, .setAccount sample none, .done (.ok ())⟩, ⟨0, .setAccountEvents ⟨0⟩ [] none, .done (.ok ())⟩,
      ⟨0, .deleteAccount ⟨0⟩, .done (.ok ())⟩, ⟨0, .deleteAccountEvents ⟨0⟩, .done (.ok ())⟩,
      ⟨0, .getAccount ⟨0⟩, .account (.ok (some sample))⟩, ⟨0, .getAccountEvents ⟨0⟩, .events (.ok (some []))⟩] := by
  have set := (Run.single (fresh {} 100) 0 connected (.setAccount sample none)).next connected
    (.setAccountEvents ⟨0⟩ [] none) le_rfl
  have deleted := (set.next connected (.deleteAccount ⟨0⟩) le_rfl).next connected (.deleteAccountEvents ⟨0⟩) le_rfl
  have read := (deleted.next connected (.getAccount ⟨0⟩) le_rfl).next connected (.getAccountEvents ⟨0⟩) le_rfl
  exact ⟨_, _, read, rfl⟩

end BankingEs.Proofs.CacheFreshness
