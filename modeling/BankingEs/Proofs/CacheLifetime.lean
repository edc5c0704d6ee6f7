import BankingEs.Proofs.CacheFreshness

/-! Lifetimes. Redis drops a value when its lifetime is over, but memory keeps an account
for the default lifetime from the moment it was put there, and events for good. -/

namespace BankingEs.Proofs.CacheLifetime
open Cache CacheFreshness Forgetful

/-- The end of the lifetime with which a value was set. -/
def deadline {α : Type} (defaultTtl : Duration) (written : Written α) : Instant :=
  written.now + written.ttl.getD defaultTtl

/-- The last moment at which memory serves an account that is put there now. -/
def servedUntil (defaultTtl : Duration) (now : Instant) : Instant := now + defaultTtl - 1

def lastSet {α : Type} (set : Served → Option (Written α)) (id : Uuid) (history : List Served) : Option (Written α) :=
  (writtenTo set id history).getLast?

/-- Calls after which memory holds no account beyond its lifetime, and that read no
events from memory beyond theirs. -/
structure WithinLifetime (defaultTtl : Duration) (history : List Served) (cache : Cache) (now : Instant)
    (operation : Operation) : Prop where
  sets : ∀ account ttl, operation = .setAccount account ttl → servedUntil defaultTtl now ≤ now + ttl.getD defaultTtl
  refills : ∀ id written, cache.Refills now operation id → (cache.accounts.redisGet now id).isSome →
    lastSet Served.accountSet id history = some written → servedUntil defaultTtl now ≤ deadline defaultTtl written
  events : ∀ id written, operation = .getAccountEvents id → (cache.events.memory id).isSome →
    lastSet Served.eventsSet id history = some written → now ≤ deadline defaultTtl written

variable {permits : List Served → Cache → Instant → Operation → Prop} {first now : Instant} {start cache : Cache}
  {history : List Served} {config : CacheConfig} {size : Nat}

def stored {α : Type} (defaultTtl : Duration) (written : Written α) : α × Instant :=
  (written.value, written.now + Duration.fromSecs (written.ttl.getD defaultTtl).asSecs)

private theorem stored_expires {α : Type} (defaultTtl : Duration) (written : Written α) :
    (stored defaultTtl written).2 ≤ deadline defaultTtl written := by
  have whole : Duration.fromSecs (written.ttl.getD defaultTtl).asSecs ≤ written.ttl.getD defaultTtl :=
    Nat.div_mul_le_self _ _
  exact Int.add_le_add_left (Int.ofNat_le.mpr whole) _

def accountKeys (defaultTtl : Duration) (state : Instant × Cache) (id : Uuid) (key : Account × Instant) : Prop :=
  state.2.defaultTtl = defaultTtl ∧ state.2.accounts.redis id = some ⟨some key.1, key.2⟩

def eventsKeys (defaultTtl : Duration) (state : Instant × Cache) (id : Uuid) (key : VersionedEvents × Instant) : Prop :=
  state.2.defaultTtl = defaultTtl ∧ state.2.events.redis id = some ⟨some key.1, key.2⟩

private theorem perform_defaultTtl (cache : Cache) (now : Instant) (redis : Redis) (operation : Operation) :
    (cache.perform now redis operation).2.defaultTtl = cache.defaultTtl := by
  rw [defaultTtl, perform_config, ← defaultTtl]

private theorem accountKeys_trace (defaultTtl : Duration) (run : Run permits first start history now cache) :
    Trace (accountKeys defaultTtl) (first, start)
      (history.map fun call => call.accountSet.map fun written => (written.key, stored defaultTtl written))
      (now, cache) := by
  refine run.trace ?_
  intro before now cache redis operation later
  have ttl := perform_defaultTtl cache now redis operation
  rcases perform_accounts cache now redis operation with ⟨account, lifetime, _, set, after⟩ | ⟨unset, moves⟩
  · rw [set]
    intro id ⟨value, expiresAt⟩ held
    simp only [accountKeys, ttl, after] at held
    obtain ⟨rfl, found⟩ := held
    simp only [CacheService.store, CacheService.updateInMemoryCache, CacheService.setShard,
      Function.update_apply] at found
    split at found
    next same =>
      cases found
      exact .inl ⟨same, rfl⟩
    next differs => exact .inr ⟨differs, rfl, found⟩
  · rw [unset]
    intro id key held
    simp only [accountKeys, ttl] at held
    rcases moves.redis id with same | gone
    · exact ⟨held.1, same ▸ held.2⟩
    · simp [gone] at held

private theorem eventsKeys_trace (defaultTtl : Duration) (run : Run permits first start history now cache) :
    Trace (eventsKeys defaultTtl) (first, start)
      (history.map fun call => call.eventsSet.map fun written => (written.key, stored defaultTtl written))
      (now, cache) := by
  refine run.trace ?_
  intro before now cache redis operation later
  have ttl := perform_defaultTtl cache now redis operation
  rcases perform_events cache now redis operation with ⟨id, events, lifetime, _, set, after⟩ | ⟨unset, moves⟩
  · rw [set]
    intro other ⟨value, expiresAt⟩ held
    simp only [eventsKeys, ttl, after] at held
    obtain ⟨rfl, found⟩ := held
    simp only [EventCache.store, EventCache.insert, Function.update_apply] at found
    split at found
    next same =>
      cases found
      exact .inl ⟨same, rfl⟩
    next differs => exact .inr ⟨differs, rfl, found⟩
  · rw [unset]
    intro id key held
    simp only [eventsKeys, ttl] at held
    rcases moves.redis id with same | gone
    · exact ⟨held.1, same ▸ held.2⟩
    · simp [gone] at held

private theorem last_stored {α : Type} {set : Served → Option (Written α)} {id : Uuid} {defaultTtl : Duration}
    {key : α × Instant}
    (last : (writesTo id (history.map fun call => (set call).map fun written =>
      (written.key, stored defaultTtl written))).getLast? = some key) :
    ∃ written, lastSet set id history = some written ∧ written.value = key.1 ∧
      key.2 ≤ deadline defaultTtl written := by
  rw [writesTo_history, List.getLast?_map] at last
  obtain ⟨written, set, rfl⟩ := Option.map_eq_some_iff.mp last
  exact ⟨written, set, rfl, stored_expires defaultTtl written⟩

private theorem account_key_expires (run : Run permits first (fresh config size) history now cache) {id : Uuid}
    {account : Account} {expiresAt : Instant} (found : cache.accounts.redis id = some ⟨some account, expiresAt⟩) :
    ∃ written, lastSet Served.accountSet id history = some written ∧ written.value = account ∧
      expiresAt ≤ deadline config.defaultTtl written := by
  have ttl : cache.defaultTtl = config.defaultTtl := congrArg CacheConfig.defaultTtl run.config
  have held : accountKeys config.defaultTtl (now, cache) id (account, expiresAt) := ⟨ttl, found⟩
  exact last_stored ((accountKeys_trace _ run).last_written (fun _ _ held => by cases held.2) held)

private theorem events_key_expires (run : Run permits first (fresh config size) history now cache) {id : Uuid}
    {events : VersionedEvents} {expiresAt : Instant} (found : cache.events.redis id = some ⟨some events, expiresAt⟩) :
    ∃ written, lastSet Served.eventsSet id history = some written ∧ written.value = events ∧
      expiresAt ≤ deadline config.defaultTtl written := by
  have ttl : cache.defaultTtl = config.defaultTtl := congrArg CacheConfig.defaultTtl run.config
  have held : eventsKeys config.defaultTtl (now, cache) id (events, expiresAt) := ⟨ttl, found⟩
  exact last_stored ((eventsKeys_trace _ run).last_written (fun _ _ held => by cases held.2) held)

private theorem lastSet_unset {α : Type} {set : Served → Option (Written α)} {call : Served} (unset : set call = none)
    (id : Uuid) : lastSet set id (history ++ [call]) = lastSet set id history := by
  simp [lastSet, writtenTo, unset]

private theorem lastSet_set {α : Type} {set : Served → Option (Written α)} {call : Served} {written : Written α}
    (made : set call = some written) (id : Uuid) : lastSet set id (history ++ [call]) =
      if written.key = id then some written else lastSet set id history := by
  by_cases same : written.key = id
  · simp [lastSet, writtenTo, made, same]
  · simp [lastSet, writtenTo, made, same]

/-- An entry is served only while the account's lifetime lasts. -/
def Lasts (defaultTtl : Duration) (history : List Served) (id : Uuid) (entry : CacheEntry) : Prop :=
  ∀ written, lastSet Served.accountSet id history = some written →
    servedUntil entry.ttl entry.lastAccessed ≤ deadline defaultTtl written

private theorem memory_lasts (run : Run (WithinLifetime config.defaultTtl) first (fresh config size) history now cache) :
    ∀ id entry, (id, entry) ∈ cache.accounts.shards (cache.accounts.getShardIndex id) →
      Lasts config.defaultTtl history id entry := by
  induction run with
  | start => exact fun _ _ member => absurd member List.not_mem_nil
  | @call history before now cache operation redis run later permitted ih =>
    have ttl : cache.accounts.config.defaultTtl = config.defaultTtl := congrArg CacheConfig.defaultTtl run.config
    rcases perform_accounts cache now redis operation with ⟨account, lifetime, same, set, after⟩ | ⟨unset, moves⟩
    · rw [after]
      intro id entry member written last
      rw [lastSet_set set] at last
      rcases CacheService.mem_updateInMemoryCache member with ⟨rfl, _, rfl⟩ | ⟨apart, old⟩
      · rw [if_pos rfl] at last
        cases last
        have kept := permitted.sets account lifetime same
        rw [← ttl] at kept ⊢
        exact kept
      · rw [if_neg (fun equal => apart ⟨equal.symm, by rw [← equal]; rfl⟩)] at last
        exact ih id entry old written last
    · have kept (id : Uuid) : lastSet Served.accountSet id (history ++ [_]) = _ := lastSet_unset unset id
      simp only [Lasts, kept]
      refine moves.entries ih ?_
      intro id account expiresAt wanted found live written last
      have read : (cache.accounts.redisGet now id).isSome := by
        rw [CacheService.redisGet, found]
        simpa using live
      have bound := permitted.refills id written wanted read last
      rw [← ttl] at bound ⊢
      exact bound

private theorem live_until {entry : CacheEntry} (live : CacheService.isExpired now entry = false) :
    now ≤ servedUntil entry.ttl entry.lastAccessed := by
  simp only [CacheService.isExpired, decide_eq_false_iff_not, not_le] at live
  exact Int.le_sub_one_of_lt (sub_lt_iff_lt_add'.mp live)

/-- While every call leaves the lifetimes alone, no read returns a value after the end of
its lifetime, from whichever level it comes. -/
theorem reads_within_lifetime {past : List Served} {call : Served}
    (run : Run (WithinLifetime config.defaultTtl) first (fresh config size) history now cache)
    (earlier : past ++ [call] <+: history) (id : Uuid) :
    (∀ account, call.operation = .getAccount id → call.reply = .account (.ok (some account)) →
      ∃ written, lastSet Served.accountSet id past = some written ∧ written.value = account ∧
        call.now ≤ deadline config.defaultTtl written) ∧
    (∀ events, call.operation = .getAccountEvents id → call.reply = .events (.ok (some events)) →
      ∃ written, lastSet Served.eventsSet id past = some written ∧ written.value.map Prod.snd = events ∧
        call.now ≤ deadline config.defaultTtl written) := by
  refine ⟨?_, ?_⟩
  · intro account asked returned
    obtain ⟨before, found, run, order, servable⟩ := returned_account run earlier asked returned
    obtain ⟨written, last, same⟩ := last_account run order servable
    refine ⟨written, last, same, ?_⟩
    cases servable with
    | memory member live => exact le_trans (live_until live) (memory_lasts run id _ member written last)
    | redis stored live =>
      obtain ⟨other, again, _, bound⟩ := account_key_expires run stored
      cases last.symm.trans again
      exact le_trans (le_of_lt live) bound
  · intro answer asked returned
    obtain ⟨before, found, redis, run, order, permitted, reply⟩ := run.earlier earlier
    rw [asked, returned] at reply
    obtain ⟨events, servable, rfl⟩ := EventCache.getAccountEvents_servable (Reply.events.inj reply).symm
    obtain ⟨written, last, rfl⟩ := last_events run order servable
    refine ⟨written, last, rfl, ?_⟩
    cases servable with
    | memory held => exact permitted.events id written asked (by rw [held]; rfl) last
    | redis stored live =>
      obtain ⟨other, again, _, bound⟩ := events_key_expires run stored
      cases last.symm.trans again
      exact le_trans (le_of_lt live) bound

private theorem set_within (history : List Served) (cache : Cache) (now : Instant) (account : Account)
    (lasts : servedUntil (CacheConfig.defaultTtl {}) now ≤ now + (CacheConfig.defaultTtl {} : Duration)) :
    WithinLifetime (CacheConfig.defaultTtl {}) history cache now (.setAccount account none) := by
  refine ⟨?_, ?_, ?_⟩
  · intro _ ttl same
    cases same
    exact lasts
  · intro id written refills
    cases refills
  · intro id written same
    cases same

/-- An account is set twice, and read a nanosecond later as it was set last. -/
theorem reads_within_lifetime_sample :
    ∃ written, lastSet Served.accountSet ⟨0⟩ [⟨0, .setAccount (Sample.account ⟨0⟩ 0) none, .done (.ok ())⟩,
        ⟨1, .setAccount (Sample.account ⟨0⟩ 5) none, .done (.ok ())⟩] = some written ∧
      written.value = (Sample.account ⟨0⟩ 5) ∧ 2 ≤ deadline (CacheConfig.defaultTtl {}) written := by
  have first : Run (WithinLifetime (CacheConfig.defaultTtl {})) 0 (fresh {} 100) _ 0 _ :=
    .call connected .start le_rfl (set_within _ _ _ (Sample.account ⟨0⟩ 0) (by decide))
  have second : Run (WithinLifetime (CacheConfig.defaultTtl {})) 0 (fresh {} 100) _ 1 _ :=
    .call connected first (show (0 : Int) ≤ 1 by decide) (set_within _ _ _ (Sample.account ⟨0⟩ 5) (by decide))
  have read : ∃ last, Run (WithinLifetime (CacheConfig.defaultTtl {})) 0 (fresh {} 100)
      ([⟨0, .setAccount (Sample.account ⟨0⟩ 0) none, .done (.ok ())⟩, ⟨1, .setAccount (Sample.account ⟨0⟩ 5) none, .done (.ok ())⟩] ++
        [⟨2, .getAccount ⟨0⟩, .account (.ok (some (Sample.account ⟨0⟩ 5)))⟩]) 2 last := by
    refine ⟨_, .call connected second (show (1 : Int) ≤ 2 by decide) ⟨?_, ?_, ?_⟩⟩
    · intro account ttl same
      cases same
    · intro id written refills
      have expired := refills.2 _ rfl
      exact absurd expired (by decide)
    · intro id written same
      cases same
  obtain ⟨last, read⟩ := read
  exact (reads_within_lifetime read (List.prefix_refl _) ⟨0⟩).1 (Sample.account ⟨0⟩ 5) rfl rfl

/-- An account and its events are set for one second, and both are returned after two. -/
theorem read_after_lifetime : ∃ history cache,
    Run anything 0 (fresh {} 100) history (Duration.fromSecs 2) cache ∧ history =
      [⟨0, .setAccount (Sample.account ⟨0⟩ 0) (some (Duration.fromSecs 1)), .done (.ok ())⟩,
        ⟨0, .setAccountEvents ⟨0⟩ [] (some (Duration.fromSecs 1)), .done (.ok ())⟩,
        ⟨Duration.fromSecs 2, .getAccount ⟨0⟩, .account (.ok (some (Sample.account ⟨0⟩ 0)))⟩,
        ⟨Duration.fromSecs 2, .getAccountEvents ⟨0⟩, .events (.ok (some []))⟩] := by
  have set := (Run.single (fresh {} 100) 0 connected (.setAccount (Sample.account ⟨0⟩ 0) (some (Duration.fromSecs 1)))).next connected
    (.setAccountEvents ⟨0⟩ [] (some (Duration.fromSecs 1))) le_rfl
  have later : (0 : Instant) ≤ Duration.fromSecs 2 := by decide
  have read := (set.next connected (.getAccount ⟨0⟩) later).next connected (.getAccountEvents ⟨0⟩) le_rfl
  exact ⟨_, _, read, rfl⟩

end BankingEs.Proofs.CacheLifetime
