import BankingEs.Cache.Moves

/-! The history of a cache: which values were set, and what each call can have done
to the accounts and to the events, given what it answered. -/

namespace BankingEs
open Forgetful Relation

/-- A value that was set under a key, its lifetime and the time. -/
structure Written (α : Type) where
  key : Uuid
  value : α
  ttl : Option Duration
  now : Instant

namespace Cache

def Served.accountSet (call : Served) : Option (Written Account) :=
  match call.operation, call.reply with
  | .setAccount account ttl, .done (.ok ()) => some ⟨account.id, account, ttl, call.now⟩
  | _, _ => none

def Served.eventsSet (call : Served) : Option (Written VersionedEvents) :=
  match call.operation, call.reply with
  | .setAccountEvents accountId events ttl, .done (.ok ()) => some ⟨accountId, events, ttl, call.now⟩
  | _, _ => none

def writtenTo {α : Type} (set : Served → Option (Written α)) (key : Uuid) (history : List Served) : List (Written α) :=
  (history.filterMap set).filter fun written => written.key = key

variable {α β : Type} {permits : List Served → Cache → Instant → Operation → Prop} {first now : Instant}
  {start cache : Cache} {history : List Served}

theorem Run.single (cache : Cache) (now : Instant) (redis : Redis) (operation : Operation) :
    Run anything now cache [⟨now, operation, (cache.perform now redis operation).1⟩] now
      (cache.perform now redis operation).2 :=
  .call redis .start le_rfl trivial

theorem Run.next (run : Run anything first start history now cache) (redis : Redis) (operation : Operation)
    {later : Instant} (order : now ≤ later) :
    Run anything first start (history ++ [⟨later, operation, (cache.perform later redis operation).1⟩]) later
      (cache.perform later redis operation).2 :=
  .call redis run order trivial

theorem Run.earlier {past : List Served} {call : Served} (run : Run permits first start history now cache)
    (earlier : past ++ [call] <+: history) : ∃ before found redis, Run permits first start past before found ∧
      before ≤ call.now ∧ permits past found call.now call.operation ∧
      call.reply = (found.perform call.now redis call.operation).1 := by
  induction run with
  | start => simp at earlier
  | @call history before now cache operation redis run later permitted ih =>
    rcases List.prefix_concat_iff.mp earlier with all | earlier
    · obtain ⟨rfl, same⟩ := List.append_inj' all rfl
      obtain rfl := List.singleton_inj.mp same
      exact ⟨before, cache, redis, run, later, permitted, rfl⟩
    · exact ih earlier

theorem Run.trace {holds : Instant × Cache → Uuid → α → Prop} {set : Served → Option (Written β)}
    {value : Written β → α} (run : Run permits first start history now cache)
    (steps : ∀ (before now : Instant) (cache : Cache) (redis : Redis) (operation : Operation), before ≤ now →
      Step holds ((set ⟨now, operation, (cache.perform now redis operation).1⟩).map fun written =>
        (written.key, value written)) (before, cache) (now, (cache.perform now redis operation).2)) :
    Trace holds (first, start) (history.map fun call => (set call).map fun written => (written.key, value written))
      (now, cache) := by
  induction run with
  | start => exact .start
  | call redis run later permitted ih =>
    rw [List.map_append]
    exact .step ih (steps _ _ _ redis _ later)

theorem writesTo_history (set : Served → Option (Written β)) (value : Written β → α) (key : Uuid)
    (history : List Served) :
    writesTo key (history.map fun call => (set call).map fun written => (written.key, value written)) =
      (writtenTo set key history).map value := by
  induction history with
  | nil => rfl
  | cons call history ih =>
    simp only [writtenTo, writesTo, List.map_cons, List.filterMap_cons] at ih ⊢
    cases set call with
    | none => simpa using ih
    | some written =>
      by_cases same : written.key = key
      · simpa [same] using ih
      · simpa [same] using ih

theorem initializeService_same (cache : Cache) (redis : Redis) :
    (cache.initializeService redis).2.accounts = cache.accounts ∧
      (cache.initializeService redis).2.events = cache.events := by
  rw [initializeService]
  split
  next => exact ⟨rfl, rfl⟩
  next =>
    cases redis 0 with
    | error error => exact ⟨rfl, rfl⟩
    | ok connected => exact ⟨rfl, rfl⟩

theorem perform_accounts (cache : Cache) (now : Instant) (redis : Redis) (operation : Operation) :
    (∃ account ttl, operation = .setAccount account ttl ∧
      Served.accountSet ⟨now, operation, (cache.perform now redis operation).1⟩ = some ⟨account.id, account, ttl, now⟩ ∧
      (cache.perform now redis operation).2.accounts = cache.accounts.store now account ttl) ∨
    (Served.accountSet ⟨now, operation, (cache.perform now redis operation).1⟩ = none ∧
      CacheService.Moves now (cache.Refills now operation) cache.accounts
        (cache.perform now redis operation).2.accounts) := by
  cases operation with
  | setAccount account ttl =>
    simp only [perform, setAccount, CacheService.setAccount]
    cases CacheService.setEx (command redis) (ttl.getD cache.accounts.config.defaultTtl) with
    | error error => exact .inr ⟨rfl, .refl⟩
    | ok connected => exact .inl ⟨account, ttl, rfl, rfl, rfl⟩
  | getAccount accountId => exact .inr ⟨rfl, CacheService.getAccount_moves _ accountId⟩
  | deleteAccount accountId =>
    refine .inr ⟨rfl, ?_⟩
    simp only [perform, deleteAccount]
    cases command redis with
    | error error => exact .refl
    | ok connected => exact .single (deleteKey_drops _ _ _ accountId)
  | deleteAccountEvents accountId =>
    refine .inr ⟨rfl, ?_⟩
    simp only [perform, deleteAccountEvents]
    cases command redis with
    | error error => exact .refl
    | ok connected => exact .refl
  | invalidateAccount accountId => exact .inr ⟨rfl, (invalidateAccount_moves redis accountId _).1⟩
  | warmupCache accountIds => exact .inr ⟨rfl, (warmupCache_moves redis accountIds).1⟩
  | cleanUp => exact .inr ⟨rfl, .single (CacheService.cleanUp_drops now)⟩
  | loseKey accountId => exact .inr ⟨rfl, .single (deleteKey_drops _ _ _ accountId)⟩
  | loseEntry accountId => exact .inr ⟨rfl, .single (CacheService.removed_drops _ accountId)⟩
  | getAccountEvents accountId => exact .inr ⟨rfl, .refl⟩
  | setAccountEvents accountId events ttl => exact .inr ⟨rfl, .refl⟩
  | loseEventsKey accountId => exact .inr ⟨rfl, .refl⟩
  | initializeService =>
    refine .inr ⟨rfl, ?_⟩
    rw [perform, Prod.map_snd, id_eq, (initializeService_same cache redis).1]

theorem perform_config (cache : Cache) (now : Instant) (redis : Redis) (operation : Operation) :
    (cache.perform now redis operation).2.accounts.config = cache.accounts.config := by
  rcases perform_accounts cache now redis operation with ⟨account, ttl, _, _, after⟩ | ⟨_, moves⟩
  · rw [after]
    rfl
  · exact moves.config

theorem Run.config (run : Run permits first start history now cache) :
    cache.accounts.config = start.accounts.config := by
  induction run with
  | start => rfl
  | call redis run later permitted ih => exact (perform_config _ _ redis _).trans ih

theorem perform_events (cache : Cache) (now : Instant) (redis : Redis) (operation : Operation) :
    (∃ accountId events ttl, operation = .setAccountEvents accountId events ttl ∧
      Served.eventsSet ⟨now, operation, (cache.perform now redis operation).1⟩ = some ⟨accountId, events, ttl, now⟩ ∧
      (cache.perform now redis operation).2.events =
        cache.events.store now cache.defaultTtl accountId events ttl) ∨
    (Served.eventsSet ⟨now, operation, (cache.perform now redis operation).1⟩ = none ∧
      EventCache.Moves now cache.events (cache.perform now redis operation).2.events) := by
  cases operation with
  | setAccountEvents accountId events ttl =>
    simp only [perform, setAccountEvents, EventCache.setAccountEvents]
    cases CacheService.setEx (command redis) (ttl.getD cache.defaultTtl) with
    | error error => exact .inr ⟨rfl, .refl⟩
    | ok connected => exact .inl ⟨accountId, events, ttl, rfl, rfl, rfl⟩
  | getAccountEvents accountId => exact .inr ⟨rfl, EventCache.getAccountEvents_moves _ accountId⟩
  | deleteAccountEvents accountId =>
    refine .inr ⟨rfl, ?_⟩
    simp only [perform, deleteAccountEvents]
    cases command redis with
    | error error => exact .refl
    | ok connected => exact .single (deleteEventsKey_drops accountId)
  | deleteAccount accountId =>
    refine .inr ⟨rfl, ?_⟩
    simp only [perform, deleteAccount]
    cases command redis with
    | error error => exact .refl
    | ok connected => exact .refl
  | invalidateAccount accountId => exact .inr ⟨rfl, (invalidateAccount_moves redis accountId (fun _ => True)).2⟩
  | warmupCache accountIds => exact .inr ⟨rfl, (warmupCache_moves redis accountIds).2⟩
  | loseEventsKey accountId => exact .inr ⟨rfl, .single (deleteEventsKey_drops accountId)⟩
  | getAccount accountId => exact .inr ⟨rfl, .refl⟩
  | setAccount account ttl => exact .inr ⟨rfl, .refl⟩
  | cleanUp => exact .inr ⟨rfl, .refl⟩
  | loseKey accountId => exact .inr ⟨rfl, .refl⟩
  | loseEntry accountId => exact .inr ⟨rfl, .refl⟩
  | initializeService =>
    refine .inr ⟨rfl, ?_⟩
    rw [perform, Prod.map_snd, id_eq, (initializeService_same cache redis).2]

end Cache
end BankingEs
