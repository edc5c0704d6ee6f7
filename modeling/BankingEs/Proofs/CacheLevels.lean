import BankingEs.Async.Interference
import BankingEs.Cache.Levels
import BankingEs.Cache.Moves

/-! Memory and Redis under calls that overlap. If no call disturbs another between its two
levels, memory holds nothing but what Redis was last given. -/

namespace BankingEs.Proofs.CacheLevels
open Async AccountCall Levels Relation

variable {ι : Type} {id : Uuid} {world before after : Levels ι} {thread : ι}

/-- An entry of the account in memory. -/
def Entry (id : Uuid) (world : Levels ι) (entry : CacheEntry) : Prop :=
  (id, entry) ∈ world.cache.accounts.shards (world.cache.accounts.getShardIndex id)

/-- Redis was last given this account, whether or not it has expired there. -/
def Given (id : Uuid) (world : Levels ι) (account : Account) : Prop :=
  ∃ expiresAt, world.cache.accounts.redis id = some ⟨some account, expiresAt⟩

structure Coherent (id : Uuid) (world : Levels ι) : Prop where
  agrees : ∀ entry, Entry id world entry → Given id world entry.value ∨ ∃ thread, world.filling thread = true
  emptied : ∀ thread, world.emptying thread = true → ∀ entry, ¬Entry id world entry
  deleted : world.lastCommand = some .del → world.cache.accounts.redis id = none

/-- What an access of another thread may change for `thread`. -/
structure Spares (id : Uuid) (thread : ι) (before after : Levels ι) : Prop where
  filling : after.filling thread = before.filling thread
  emptying : after.emptying thread = before.emptying thread
  redis : before.filling thread = true → after.cache.accounts.redis id = before.cache.accounts.redis id

def rely (id : Uuid) (thread : ι) (before after : Levels ι) : Prop :=
  Coherent id before → Coherent id after ∧ Spares id thread before after

def guarantee (id : Uuid) (thread : ι) (before after : Levels ι) : Prop :=
  Coherent id before → Coherent id after ∧ ∀ other ≠ thread, Spares id other before after

structure Knows (id : Uuid) (thread : ι) (filling emptying : Bool) (world : Levels ι) : Prop where
  coherent : Coherent id world
  filling : world.filling thread = filling
  emptying : world.emptying thread = emptying

/-- It holds an account that Redis was last given. -/
structure Holds (id : Uuid) (thread : ι) (account : Account) (world : Levels ι) : Prop where
  knows : Knows id thread true false world
  given : Given id world account

private theorem Knows.relied {filling emptying : Bool} (step : rely id thread before after)
    (knows : Knows id thread filling emptying before) : Knows id thread filling emptying after := by
  obtain ⟨coherent, spares⟩ := step knows.coherent
  exact ⟨coherent, spares.filling.trans knows.filling, spares.emptying.trans knows.emptying⟩

private theorem Holds.relied {account : Account} (step : rely id thread before after)
    (holds : Holds id thread account before) :
    Holds id thread account after := by
  obtain ⟨coherent, spares⟩ := step holds.knows.coherent
  obtain ⟨expiresAt, given⟩ := holds.given
  exact ⟨holds.knows.relied step, expiresAt, (spares.redis holds.knows.filling).trans given⟩

/-- Memory loses entries and Redis is left alone. -/
theorem Coherent.of_fewer (coherent : Coherent id before)
    (entries : ∀ entry, Entry id after entry → Entry id before entry)
    (redis : after.cache.accounts.redis id = before.cache.accounts.redis id) (filling : after.filling = before.filling)
    (emptying : ∀ thread, after.emptying thread = true → before.emptying thread = true)
    (last : after.lastCommand = some .del → before.lastCommand = some .del) : Coherent id after := by
  refine ⟨?_, ?_, ?_⟩
  · intro entry member
    rw [Given, redis, filling]
    exact coherent.agrees entry (entries entry member)
  · intro thread open_ entry member
    exact coherent.emptied thread (emptying thread open_) entry (entries entry member)
  · intro deleted
    rw [redis]
    exact coherent.deleted (last deleted)

private theorem Spares.refl (thread : ι) (world : Levels ι) : Spares id thread world world := ⟨rfl, rfl, fun _ => rfl⟩

private theorem Spares.trans {middle : Levels ι} (first : Spares id thread before middle)
    (last : Spares id thread middle after) :
    Spares id thread before after := by
  refine ⟨last.filling.trans first.filling, last.emptying.trans first.emptying, ?_⟩
  intro filling
  exact (last.redis (first.filling.trans filling)).trans (first.redis filling)

private theorem passes_quiet (passes : Passes before after) :
    (Coherent id before → Coherent id after) ∧ ∀ thread, Spares id thread before after := by
  cases passes with
  | waits later => exact ⟨fun coherent => coherent.of_fewer (fun _ member => member) rfl rfl (fun _ open_ => open_)
      (fun last => last), fun _ => ⟨rfl, rfl, fun _ => rfl⟩⟩
  | cleans later => exact ⟨fun coherent => coherent.of_fewer (fun _ member => List.mem_of_mem_filter member) rfl rfl
      (fun _ open_ => open_) (fun last => last), fun _ => ⟨rfl, rfl, fun _ => rfl⟩⟩

private theorem Knows.ready {ready : Levels ι} {filling emptying : Bool}
    (knows : Knows id thread filling emptying before)
    (passes : Passes before ready) : Knows id thread filling emptying ready :=
  knows.relied fun coherent => ⟨(passes_quiet passes).1 coherent, (passes_quiet passes).2 thread⟩

private theorem guarantee_of_step {ready : Levels ι} (passes : Passes before ready) (coherent : Coherent id after)
    (spares : ∀ other ≠ thread, Spares id other ready after) : guarantee id thread before after :=
  fun _ => ⟨coherent, fun other differs => ((passes_quiet passes).2 other).trans (spares other differs)⟩

section Accesses
variable [DecidableEq ι]

private theorem removeEntry_fewer {cache : Cache} {index : Nat} {entry : CacheEntry}
    (member : (id, entry) ∈ (cache.removeEntry id).accounts.shards index) :
    (id, entry) ∈ cache.accounts.shards index ∧ index ≠ cache.accounts.getShardIndex id := by
  simp only [Cache.removeEntry, CacheService.setShard_shards] at member
  split at member
  next => simp [Shard.remove] at member
  next differs => exact ⟨member, differs⟩

private theorem lookup_knows {filling emptying : Bool} {reply : Option Account}
    (knows : Knows id thread filling emptying before) (served : orderly thread before (.lookup id) reply after) :
    guarantee id thread before after ∧ Knows id thread filling emptying after := by
  obtain ⟨⟨ready, passes, served⟩, _⟩ := served
  have known := knows.ready passes
  suffices quiet : Coherent id after ∧ after.filling = ready.filling ∧ after.emptying = ready.emptying ∧
      after.cache.accounts.redis = ready.cache.accounts.redis by
    obtain ⟨coherent, filling, emptying, redis⟩ := quiet
    refine ⟨guarantee_of_step passes coherent fun other _ => ?_, coherent, ?_, ?_⟩
    · exact ⟨by rw [filling], by rw [emptying], fun _ => by rw [redis]⟩
    · rw [filling, known.filling]
    · rw [emptying, known.emptying]
  simp only [step] at served
  split at served
  next =>
    split at served
    next =>
      obtain ⟨_, rfl⟩ := served
      refine ⟨known.coherent.of_fewer ?_ rfl rfl (fun _ open_ => open_) (fun last => last), rfl, rfl, rfl⟩
      exact fun _ member => (removeEntry_fewer member).1
    next =>
      obtain ⟨_, rfl⟩ := served
      exact ⟨known.coherent, rfl, rfl, rfl⟩
  next =>
    obtain ⟨_, rfl⟩ := served
    exact ⟨known.coherent, rfl, rfl, rfl⟩

private theorem stop_emptying (thread : ι) (coherent : Coherent id world) :
    Coherent id { world with emptying := Function.update world.emptying thread false } ∧
      ∀ other ≠ thread, Spares id other world
        { world with emptying := Function.update world.emptying thread false } := by
  refine ⟨coherent.of_fewer (fun _ member => member) rfl rfl ?_ (fun last => last), ?_⟩
  · intro other open_
    by_cases same : other = thread
    · simp [same] at open_
    · simpa [same] using open_
  · intro other differs
    exact ⟨rfl, by simp [differs], fun _ => rfl⟩

private theorem getConnection_knows {filling emptying : Bool} {reply : Except String Unit}
    (knows : Knows id thread filling emptying before) (served : orderly thread before .getConnection reply after) :
    guarantee id thread before after ∧ (reply = .ok () → Knows id thread filling emptying after) ∧
      (∀ error, reply = .error error → Knows id thread filling false after) := by
  obtain ⟨⟨ready, passes, served⟩, _⟩ := served
  have known := knows.ready passes
  rcases served with ⟨rfl, rfl⟩ | ⟨⟨error, rfl⟩, rfl⟩
  · exact ⟨guarantee_of_step passes known.coherent fun _ _ => .refl _ _, fun _ => known,
      fun _ impossible => (by cases impossible)⟩
  · obtain ⟨coherent, spares⟩ := stop_emptying thread known.coherent
    exact ⟨guarantee_of_step passes coherent spares, fun impossible => (by cases impossible),
      fun _ _ => ⟨coherent, known.filling, by simp⟩⟩

/-- An account that is read from Redis is what Redis was last given. -/
theorem get_holds {reply : Except String (Option RedisEntry)} (knows : Knows id thread false false before)
    (served : orderly thread before (.get id) reply after) :
    guarantee id thread before after ∧
      (∀ account expiresAt, reply = .ok (some ⟨some account, expiresAt⟩) → Holds id thread account after) ∧
      ((∀ account expiresAt, reply ≠ .ok (some ⟨some account, expiresAt⟩)) → Knows id thread false false after) := by
  obtain ⟨⟨ready, passes, served⟩, _⟩ := served
  have known := knows.ready passes
  rcases served with ⟨rfl, rfl⟩ | ⟨⟨error, rfl⟩, rfl⟩
  · have coherent : Coherent id { ready with
        lastCommand := some .get
        filling := Function.update ready.filling thread
          (((ready.cache.accounts.redisGet ready.now id).bind RedisEntry.data).isSome) } := by
      refine ⟨?_, known.coherent.emptied, fun deleted => by cases deleted⟩
      intro entry member
      rcases known.coherent.agrees entry member with given | ⟨other, filling⟩
      · exact .inl given
      · have differs : other ≠ thread := by
          rintro rfl
          simp [known.filling] at filling
        exact .inr ⟨other, by simp [differs, filling]⟩
    refine ⟨guarantee_of_step passes coherent ?_, ?_, ?_⟩
    · intro other differs
      exact ⟨by simp [differs], rfl, fun _ => rfl⟩
    · intro account expiresAt found
      have read := Except.ok.inj found
      obtain ⟨stored, _⟩ := Option.filter_eq_some_iff.mp read
      exact ⟨⟨coherent, by simp [read], known.emptying⟩, expiresAt, stored⟩
    · intro missing
      refine ⟨coherent, ?_, known.emptying⟩
      simp only [Function.update_self, Option.isSome_eq_false_iff, Option.isNone_iff_eq_none]
      cases read : ready.cache.accounts.redisGet ready.now id with
      | none => rfl
      | some key =>
        obtain ⟨data, expiresAt⟩ := key
        cases data with
        | none => rfl
        | some account => exact absurd (congrArg Except.ok read) (missing account expiresAt)
  · refine ⟨guarantee_of_step passes known.coherent fun _ _ => .refl _ _, ?_, fun _ => known⟩
    intro account expiresAt found
    cases found

/-- Redis is given an account while no other thread holds one. -/
theorem setEx_holds {account : Account} {ttl : Duration} {reply : Except String Unit} (own : account.id = id)
    (knows : Knows id thread false false before) (served : orderly thread before (.setEx account ttl) reply after) :
    guarantee id thread before after ∧ (reply = .ok () → Holds id thread account after) ∧
      (∀ error, reply = .error error → Knows id thread false false after) := by
  obtain ⟨⟨ready, passes, served⟩, undisturbed⟩ := served
  have known := knows.ready passes
  rcases served with ⟨rfl, _, rfl⟩ | ⟨⟨error, rfl⟩, rfl⟩
  · subst own
    have coherent : Coherent account.id { ready with
        cache.accounts.redis := Function.update ready.cache.accounts.redis account.id
          (some ⟨some account, ready.now + Duration.fromSecs ttl.asSecs⟩)
        filling := Function.update ready.filling thread true
        lastCommand := some .setEx } :=
      ⟨fun _ _ => .inr ⟨thread, by simp⟩, known.coherent.emptied, fun deleted => by cases deleted⟩
    refine ⟨guarantee_of_step passes coherent ?_, fun _ => ⟨⟨coherent, by simp, known.emptying⟩, _, by simp; rfl⟩,
      fun _ impossible => (by cases impossible)⟩
    intro other differs
    refine ⟨by simp [differs], rfl, ?_⟩
    intro filling
    rw [((passes_quiet passes).2 other : Spares account.id other before ready).filling, undisturbed other differs] at filling
    cases filling
  · exact ⟨guarantee_of_step passes known.coherent fun _ _ => .refl _ _, fun impossible => (by cases impossible),
      fun _ _ => known⟩

/-- The account goes into memory while no other thread is emptying it. -/
theorem update_knows {account : Account} {reply : Unit} (holds : Holds id thread account before)
    (served : orderly thread before (.update id account) reply after) :
    guarantee id thread before after ∧ Knows id thread false false after := by
  obtain ⟨⟨ready, passes, served⟩, undisturbed⟩ := served
  have kept : Holds id thread account ready :=
    holds.relied fun coherent => ⟨(passes_quiet passes).1 coherent, (passes_quiet passes).2 thread⟩
  obtain rfl : after = { ready with
    cache.accounts := ready.cache.accounts.updateInMemoryCache ready.now id account
    filling := Function.update ready.filling thread false } := served
  have coherent : Coherent id { ready with
      cache.accounts := ready.cache.accounts.updateInMemoryCache ready.now id account
      filling := Function.update ready.filling thread false } := by
    refine ⟨?_, ?_, kept.knows.coherent.deleted⟩
    · intro entry member
      rcases CacheService.mem_updateInMemoryCache member with ⟨_, _, rfl⟩ | ⟨apart, _⟩
      · exact .inl kept.given
      · exact absurd ⟨rfl, rfl⟩ apart
    · intro other emptying
      have idle : ready.emptying other = false := by
        by_cases same : other = thread
        · rw [same, kept.knows.emptying]
        · rw [((passes_quiet passes).2 other : Spares id other before ready).emptying]
          exact undisturbed other same
      simp [idle] at emptying
  refine ⟨guarantee_of_step passes coherent ?_, coherent, by simp, kept.knows.emptying⟩
  intro other differs
  exact ⟨by simp [differs], rfl, fun _ => rfl⟩

private theorem remove_knows {reply : Unit} (knows : Knows id thread false false before)
    (served : orderly thread before (.remove id) reply after) :
    guarantee id thread before after ∧ Knows id thread false true after := by
  obtain ⟨⟨ready, passes, served⟩, _⟩ := served
  have known := knows.ready passes
  obtain rfl : after = { ready with
    cache := (ready.cache.removeEntry id).removeEvents id
    emptying := Function.update ready.emptying thread true } := served
  have none_left (entry : CacheEntry) : ¬Entry id { ready with
      cache := (ready.cache.removeEntry id).removeEvents id
      emptying := Function.update ready.emptying thread true } entry :=
    fun member => (removeEntry_fewer member).2 rfl
  have coherent : Coherent id { ready with
      cache := (ready.cache.removeEntry id).removeEvents id
      emptying := Function.update ready.emptying thread true } :=
    ⟨fun entry member => absurd member (none_left entry), fun _ _ => none_left, known.coherent.deleted⟩
  refine ⟨guarantee_of_step passes coherent ?_, coherent, known.filling, by simp⟩
  intro other differs
  exact ⟨rfl, by simp [differs], fun _ => rfl⟩

/-- The key is deleted while memory is empty and no other thread holds the account. -/
theorem del_knows {reply : Except String Unit} (knows : Knows id thread false true before)
    (served : orderly thread before (.del id) reply after) :
    guarantee id thread before after ∧ Knows id thread false false after := by
  obtain ⟨⟨ready, passes, served⟩, undisturbed⟩ := served
  have known := knows.ready passes
  rcases served with ⟨rfl, rfl⟩ | ⟨⟨error, rfl⟩, rfl⟩
  · have empty (entry : CacheEntry) : ¬Entry id ready entry := known.coherent.emptied thread known.emptying entry
    have coherent : Coherent id { ready with
        cache := ready.cache.deleteKey id
        emptying := Function.update ready.emptying thread false
        lastCommand := some .del } :=
      ⟨fun entry member => absurd member (empty entry), fun _ _ => empty, fun _ => by simp [Cache.deleteKey]⟩
    refine ⟨guarantee_of_step passes coherent ?_, coherent, known.filling, by simp⟩
    intro other differs
    refine ⟨rfl, by simp [differs], ?_⟩
    intro filling
    rw [((passes_quiet passes).2 other : Spares id other before ready).filling, undisturbed other differs] at filling
    cases filling
  · obtain ⟨coherent, spares⟩ := stop_emptying thread known.coherent
    exact ⟨guarantee_of_step passes coherent spares, coherent, known.filling, by simp⟩

private theorem delEvents_knows {reply : Except String Unit} (knows : Knows id thread false false before)
    (served : orderly thread before (.delEvents id) reply after) :
    guarantee id thread before after ∧ Knows id thread false false after := by
  obtain ⟨⟨ready, passes, served⟩, _⟩ := served
  have known := knows.ready passes
  rcases served with ⟨rfl, rfl⟩ | ⟨⟨error, rfl⟩, rfl⟩
  · have coherent : Coherent id { ready with cache := ready.cache.deleteEventsKey id } :=
      ⟨known.coherent.agrees, known.coherent.emptied, known.coherent.deleted⟩
    exact ⟨guarantee_of_step passes coherent fun _ _ => ⟨rfl, rfl, fun _ => rfl⟩, coherent, known.filling, known.emptying⟩
  · exact ⟨guarantee_of_step passes known.coherent fun _ _ => .refl _ _, known⟩

/-- The program does what the others rely on, and returns with nothing in hand. -/
abbrev Settles (id : Uuid) (thread : ι) (program : Program LevelCall (Except String (Option Account)))
    (world : Levels ι) : Prop :=
  Guards (orderly thread) (rely id thread) (guarantee id thread) (fun _ => Knows id thread false false) program world

private theorem idle_pure {result : Except String (Option Account)} (knows : Knows id thread false false world) :
    Settles id thread (.pure result) world :=
  Guards.pure knows fun _ _ step knows => knows.relied step

private theorem update_guards {account : Account} {result : Except String (Option Account)}
    (holds : Holds id thread account world) :
    Settles id thread (.request (.update id account) fun _ => .pure result) world := by
  refine Guards.request (fun _ _ step holds => holds.relied step) ?_ holds
  intro before reply after holds served
  obtain ⟨step, knows⟩ := update_knows holds served
  exact ⟨step, idle_pure knows⟩

private theorem connect_guards {emptying : Bool} {next : Program LevelCall (Except String (Option Account))}
    (knows : Knows id thread false emptying world)
    (rest : ∀ after, Knows id thread false emptying after → Settles id thread next after) :
    Settles id thread ((Program.send .getConnection).andThen fun _ => next) world := by
  refine Guards.request (fun _ _ step knows => knows.relied step) ?_ knows
  intro before reply after knows served
  obtain ⟨step, connected, refused⟩ := getConnection_knows knows served
  refine ⟨step, ?_⟩
  cases reply with
  | error error => exact idle_pure (refused error rfl)
  | ok connection => exact rest after (connected rfl)

private theorem readRedis_guards (knows : Knows id thread false false world) :
    Settles id thread (readRedis id) world := by
  refine connect_guards knows fun _ knows => ?_
  refine Guards.request (fun _ _ step knows => knows.relied step) ?_ knows
  intro before reply after knows served
  obtain ⟨step, found, missing⟩ := get_holds knows served
  refine ⟨step, ?_⟩
  rcases reply with error | (_ | ⟨_ | account, expiresAt⟩)
  · exact idle_pure (missing fun _ _ impossible => by cases impossible)
  · exact idle_pure (missing fun _ _ impossible => by cases impossible)
  · exact idle_pure (missing fun _ _ impossible => by cases impossible)
  · exact update_guards (found account expiresAt rfl)

private theorem getAccount_guards (knows : Knows id thread false false world) :
    Settles id thread (getAccountProgram id) world := by
  refine Guards.request (fun _ _ step knows => knows.relied step) ?_ knows
  intro before reply after knows served
  obtain ⟨step, knows⟩ := lookup_knows knows served
  refine ⟨step, ?_⟩
  cases reply with
  | some account => exact idle_pure knows
  | none => exact readRedis_guards knows

private theorem setAccount_guards {account : Account} {ttl : Option Duration} (defaultTtl : Duration)
    (own : account.id = id)
    (knows : Knows id thread false false world) :
    Settles id thread (setAccountProgram defaultTtl account ttl) world := by
  refine connect_guards knows fun _ knows => ?_
  refine Guards.request (fun _ _ step knows => knows.relied step) ?_ knows
  intro before reply after knows served
  obtain ⟨step, stored, refused⟩ := setEx_holds own knows served
  refine ⟨step, ?_⟩
  cases reply with
  | error error => exact idle_pure (refused error rfl)
  | ok done =>
    subst own
    exact update_guards (stored rfl)

private theorem invalidateAccount_guards (knows : Knows id thread false false world) :
    Settles id thread (invalidateAccountProgram id) world := by
  refine Guards.request (fun _ _ step knows => knows.relied step) ?_ knows
  intro before reply after knows served
  obtain ⟨step, knows⟩ := remove_knows knows served
  refine ⟨step, connect_guards knows fun _ knows => ?_⟩
  refine Guards.request (fun _ _ step knows => knows.relied step) ?_ knows
  intro before reply after knows served
  obtain ⟨step, knows⟩ := del_knows knows served
  refine ⟨step, ?_⟩
  cases reply with
  | error error => exact idle_pure knows
  | ok deleted =>
    refine Guards.request (fun _ _ step knows => knows.relied step) ?_ knows
    intro before reply after knows served
    obtain ⟨step, knows⟩ := delEvents_knows knows served
    refine ⟨step, ?_⟩
    cases reply with
    | error error => exact idle_pure knows
    | ok deleted => exact idle_pure knows

private theorem program_guards (defaultTtl : Duration) {call : AccountCall} (own : call.accountId = id)
    (knows : Knows id thread false false world) : Settles id thread (call.program defaultTtl) world := by
  cases call with
  | getAccount accountId =>
    obtain rfl : accountId = id := own
    exact getAccount_guards knows
  | setAccount account ttl => exact setAccount_guards defaultTtl own knows
  | invalidateAccount accountId =>
    obtain rfl : accountId = id := own
    exact invalidateAccount_guards knows

end Accesses

section Alone
variable [DecidableEq ι] (thread : ι) (world : Levels ι) (redis : Cache.Redis)

private theorem serves_at_once {β : Type} {op : LevelCall β} {reply : β} (served : step thread before op reply after) :
    serves thread before op reply after :=
  ⟨before, .waits le_rfl, served⟩

private theorem command_alone {β γ : Type} {op : LevelCall (Except String β)}
    {next : β → Program LevelCall (Except String γ)} {result : Except String γ} {cache : Cache}
    (failing : ∀ error, ∃ after, step thread world op (.error error) after ∧ after.cache = world.cache)
    (succeeding : Cache.command redis = .ok () → ∃ reply middle last, step thread world op reply middle ∧
      Runs (serves thread) middle (Program.andThen (.pure reply) next) result last ∧ last.cache = cache)
    (failed : ∀ error, Cache.command redis = .error error → result = .error error ∧ cache = world.cache) :
    ∃ last, Runs (serves thread) world
      ((Program.send .getConnection).andThen fun _ => (Program.send op).andThen next) result last ∧ last.cache = cache := by
  cases connection : redis 0 with
  | error error =>
    obtain ⟨rfl, rfl⟩ := failed error (by simp only [Cache.command, connection]; rfl)
    exact ⟨_, .request (.error error) (serves_at_once thread (.inr ⟨⟨error, rfl⟩, rfl⟩)) .pure, rfl⟩
  | ok connected =>
    cases answer : redis 1 with
    | error error =>
      obtain ⟨rfl, rfl⟩ := failed error (by simp only [Cache.command, connection, answer]; rfl)
      obtain ⟨after, refused, same⟩ := failing error
      exact ⟨after, .request (.ok ()) (serves_at_once thread (.inl ⟨rfl, rfl⟩))
        (.request (.error error) (serves_at_once thread refused) .pure), same⟩
    | ok answered =>
      obtain ⟨reply, middle, last, served, run, same⟩ :=
        succeeding (by simp only [Cache.command, connection, answer]; rfl)
      exact ⟨last, .request (.ok ()) (serves_at_once thread (.inl ⟨rfl, rfl⟩))
        (.request reply (serves_at_once thread served) run), same⟩

private theorem readRedis_alone (id : Uuid) :
    ∃ last, Runs (serves thread) world (readRedis id)
      (world.cache.accounts.readThrough world.now (Cache.command redis) id).1 last ∧
      last.cache = { world.cache with
        accounts := (world.cache.accounts.readThrough world.now (Cache.command redis) id).2 } := by
  refine command_alone thread world redis (fun error => ⟨world, .inr ⟨⟨error, rfl⟩, rfl⟩, rfl⟩) ?_ ?_
  · intro outcome
    rw [outcome]
    simp only [CacheService.readThrough]
    cases read : world.cache.accounts.redisGet world.now id with
    | none => exact ⟨.ok none, _, _, .inl ⟨congrArg Except.ok read.symm, rfl⟩, .pure, rfl⟩
    | some key =>
      obtain ⟨data, expiresAt⟩ := key
      cases data with
      | none => exact ⟨.ok (some ⟨none, expiresAt⟩), _, _, .inl ⟨congrArg Except.ok read.symm, rfl⟩, .pure, rfl⟩
      | some account =>
        exact ⟨.ok (some ⟨some account, expiresAt⟩), _, _, .inl ⟨congrArg Except.ok read.symm, rfl⟩,
          .request () (serves_at_once thread rfl) .pure, rfl⟩
  · intro error outcome
    rw [outcome]
    exact ⟨rfl, rfl⟩

/-- By itself each call does what the operation of the sequential cache does. -/
theorem getAccount_alone (id : Uuid) :
    ∃ last, Runs (serves thread) world (getAccountProgram id) (world.cache.getAccount world.now redis id).1 last ∧
      last.cache = (world.cache.getAccount world.now redis id).2 := by
  simp only [Cache.getAccount, CacheService.getAccount]
  cases found : world.cache.accounts.entry id with
  | none =>
    obtain ⟨last, run, same⟩ := readRedis_alone thread world redis id
    have served : step thread world (.lookup id) none world := by simp [step, found]
    exact ⟨last, .request none (serves_at_once thread served) run, same⟩
  | some entry =>
    simp only
    split
    next expired =>
      obtain ⟨last, run, same⟩ :=
        readRedis_alone thread { world with cache := world.cache.removeEntry id } redis id
      have served : step thread world (.lookup id) none { world with cache := world.cache.removeEntry id } := by
        simp [step, found, expired]
      exact ⟨last, .request none (serves_at_once thread served) run, same⟩
    next live =>
      have served : step thread world (.lookup id) (some entry.value) world := by simp [step, found, live]
      exact ⟨world, .request (some entry.value) (serves_at_once thread served) .pure, rfl⟩

theorem setAccount_alone (account : Account) (ttl : Option Duration) :
    ∃ last, Runs (serves thread) world (setAccountProgram world.cache.defaultTtl account ttl)
        ((world.cache.setAccount world.now redis account ttl).1.map fun _ => none) last ∧
      last.cache = (world.cache.setAccount world.now redis account ttl).2 := by
  refine command_alone thread world redis (fun error => ⟨world, .inr ⟨⟨error, rfl⟩, rfl⟩, rfl⟩) ?_ ?_
  · intro outcome
    by_cases instant : (ttl.getD world.cache.defaultTtl).asSecs = 0
    · have refused : CacheService.setEx (.ok ()) (ttl.getD world.cache.accounts.config.defaultTtl) = _ :=
        CacheService.setEx_instant instant
      simp only [Cache.setAccount, CacheService.setAccount, outcome, refused]
      exact ⟨.error _, _, _, .inr ⟨⟨_, rfl⟩, rfl⟩, .pure, rfl⟩
    · have accepted : CacheService.setEx (.ok ()) (ttl.getD world.cache.accounts.config.defaultTtl) = .ok () :=
        CacheService.setEx_lasting instant
      simp only [Cache.setAccount, CacheService.setAccount, outcome, accepted]
      exact ⟨.ok (), _, _, .inl ⟨rfl, instant, rfl⟩, .request () (serves_at_once thread rfl) .pure, rfl⟩
  · intro error outcome
    rw [Cache.setAccount, outcome]
    exact ⟨rfl, rfl⟩

theorem invalidateAccount_alone (id : Uuid) :
    ∃ last, Runs (serves thread) world (invalidateAccountProgram id)
        ((world.cache.invalidateAccount redis id).1.map fun _ => none) last ∧
      last.cache = (world.cache.invalidateAccount redis id).2 := by
  have emptied : ∃ last, Runs (serves thread) { world with
        cache := (world.cache.removeEntry id).removeEvents id
        emptying := Function.update world.emptying thread true }
      ((Program.send .getConnection).andThen fun _ => (Program.send (.del id)).andThen fun _ =>
        (Program.send (.delEvents id)).andThen fun _ => .pure (.ok (none : Option Account)))
      ((world.cache.invalidateAccount redis id).1.map fun _ => none) last ∧
      last.cache = (world.cache.invalidateAccount redis id).2 := by
    refine command_alone thread _ redis (fun error => ⟨_, .inr ⟨⟨error, rfl⟩, rfl⟩, rfl⟩) ?_ ?_
    · intro outcome
      simp only [Cache.invalidateAccount, outcome]
      cases redis 2 with
      | error error =>
        exact ⟨.ok (), _, _, .inl ⟨rfl, rfl⟩,
          .request (.error error) (serves_at_once thread (.inr ⟨⟨error, rfl⟩, rfl⟩)) .pure, rfl⟩
      | ok deleted =>
        exact ⟨.ok (), _, _, .inl ⟨rfl, rfl⟩,
          .request (.ok ()) (serves_at_once thread (.inl ⟨rfl, rfl⟩)) .pure, rfl⟩
    · intro error outcome
      rw [Cache.invalidateAccount, outcome]
      exact ⟨rfl, rfl⟩
  obtain ⟨last, run, same⟩ := emptied
  exact ⟨last, .request () (serves_at_once thread rfl) run, same⟩

end Alone

/-- Calls for one account that do not disturb each other leave the levels in agreement:
memory holds what Redis was last given, and nothing if the last command on the key was
a delete. -/
theorem levels_agree [DecidableEq ι] {defaultTtl : Duration} {calls : ι → AccountCall} {first last : Levels ι}
    {threads : ι → Program LevelCall (Except String (Option Account))} {history : List (Served ι LevelCall (Levels ι))}
    (own : ∀ thread, (calls thread).accountId = id)
    (idle : ∀ thread, first.filling thread = false ∧ first.emptying thread = false)
    (agree : ∀ entry, Entry id first entry → Given id first entry.value)
    (unused : first.lastCommand = none)
    (run : Interleaves orderly (fun thread => (calls thread).program defaultTtl) first history threads last)
    (returned : ∀ thread, ∃ result, threads thread = .pure (.ok result)) :
    (∀ entry, Entry id last entry → Given id last entry.value) ∧
      (last.lastCommand = some .del → ∀ entry, ¬Entry id last entry) := by
  have coherent : Coherent id first := by
    refine ⟨fun entry member => .inl (agree entry member), ?_, ?_⟩
    · intro thread emptying
      simp [(idle thread).2] at emptying
    · intro deleted
      simp [unused] at deleted
  have guards (thread : ι) : Settles id thread ((calls thread).program defaultTtl) first :=
    program_guards defaultTtl (own thread) ⟨coherent, (idle thread).1, (idle thread).2⟩
  obtain ⟨moves, ends⟩ := run.guards (fun thread other before after differs step coherent =>
    ⟨(step coherent).1, (step coherent).2 other differs.symm⟩) guards
  have final : Coherent id last := by
    refine preserved_by_steps (fun before after step coherent => ?_) moves coherent
    obtain ⟨thread, step⟩ := step
    exact (step coherent).1
  have still (thread : ι) : last.filling thread = false := by
    obtain ⟨result, done⟩ := returned thread
    have ended := ends thread
    rw [done] at ended
    exact (ended last .refl).filling
  have given (entry : CacheEntry) (member : Entry id last entry) : Given id last entry.value := by
    rcases final.agrees entry member with given | ⟨thread, filling⟩
    · exact given
    · simp [still thread] at filling
  refine ⟨given, ?_⟩
  intro deleted entry member
  obtain ⟨expiresAt, stored⟩ := given entry member
  rw [final.deleted deleted] at stored
  cases stored

section Race

private def evicted : Levels (Fin 2) :=
  { cache.accounts.redis := fun _ => some ⟨some (Sample.account ⟨0⟩ 0), Duration.fromSecs 3600⟩ }

private def racing : Fin 2 → AccountCall
  | 0 => .getAccount ⟨0⟩
  | 1 => .setAccount (Sample.account ⟨0⟩ 1) none

private abbrev Racing := Interleaves serves (fun thread => (racing thread).program (Duration.fromSecs 3600)) evicted

private theorem Racing.next {history : List (Served (Fin 2) LevelCall (Levels (Fin 2)))}
    {threads : Fin 2 → Program LevelCall (Except String (Option Account))} {before after : Levels (Fin 2)} {β : Type}
    {op : LevelCall β} {resume : β → Program LevelCall (Except String (Option Account))}
    (run : Racing history threads before) (thread : Fin 2) (reply : β) (pending : threads thread = .request op resume)
    (served : step thread before op reply after) :
    Racing (history ++ [⟨thread, op, reply, after⟩]) (Function.update threads thread (resume reply)) after :=
  .serve thread reply run pending ⟨before, .waits le_rfl, served⟩

private theorem Racing.orderly {history : List (Served (Fin 2) LevelCall (Levels (Fin 2)))}
    {threads : Fin 2 → Program LevelCall (Except String (Option Account))} {before after : Levels (Fin 2)} {β : Type}
    {op : LevelCall β} {resume : β → Program LevelCall (Except String (Option Account))}
    (run : Interleaves orderly (fun thread => (racing thread).program (Duration.fromSecs 3600)) evicted history threads before)
    (thread : Fin 2) (reply : β) (pending : threads thread = .request op resume) (served : step thread before op reply after)
    (undisturbed : Undisturbed thread before op reply) :
    Interleaves Levels.orderly (fun thread => (racing thread).program (Duration.fromSecs 3600)) evicted
      (history ++ [⟨thread, op, reply, after⟩]) (Function.update threads thread (resume reply)) after :=
  .serve thread reply run pending ⟨⟨before, .waits le_rfl, served⟩, undisturbed⟩

/-- The reader fills memory while the writer is connected and has yet to write. -/
theorem levels_agree_overlapping : ∃ history threads last,
    Interleaves orderly (fun thread => (racing thread).program (Duration.fromSecs 3600)) evicted history threads last ∧
      (∃ entry, Entry ⟨0⟩ last entry ∧ entry.value = Sample.account ⟨0⟩ 1) ∧
      ∀ entry, Entry ⟨0⟩ last entry → Given ⟨0⟩ last entry.value := by
  have missed := Racing.orderly .start 0 none rfl ⟨rfl, rfl⟩ trivial
  have ready := Racing.orderly missed 1 (.ok ()) rfl (.inl ⟨rfl, rfl⟩) trivial
  have connected := Racing.orderly ready 0 (.ok ()) rfl (.inl ⟨rfl, rfl⟩) trivial
  have read := Racing.orderly connected 0 _ rfl (.inl ⟨rfl, rfl⟩) trivial
  have filled := Racing.orderly read 0 () rfl rfl fun _ _ => rfl
  have reader : ∀ other : Fin 2, other ≠ 1 → other = 0 := by decide
  have stored := Racing.orderly filled 1 (.ok ()) rfl (.inl ⟨rfl, by decide, rfl⟩) (by
    intro other differs
    rw [reader other differs]
    rfl)
  have written := Racing.orderly stored 1 () rfl rfl fun _ _ => rfl
  refine ⟨_, _, _, written, ⟨_, List.mem_cons_self, rfl⟩, ?_⟩
  refine (levels_agree ?_ (fun _ => ⟨rfl, rfl⟩) (fun _ member => absurd member List.not_mem_nil) rfl written ?_).1
  · intro thread
    match thread with
    | 0 => rfl
    | 1 => rfl
  · intro thread
    match thread with
    | 0 => exact ⟨_, rfl⟩
    | 1 => exact ⟨_, rfl⟩

/-- The reader puts the account it has read into memory after the writer is done. -/
theorem stale_fill : ∃ history threads last,
    Interleaves serves (fun thread => (racing thread).program (Duration.fromSecs 3600)) evicted history threads last ∧
      (∀ thread, ∃ result, threads thread = .pure (.ok result)) ∧
      ∃ entry, Entry ⟨0⟩ last entry ∧ ¬Given ⟨0⟩ last entry.value := by
  have missed := Racing.next .start 0 none rfl ⟨rfl, rfl⟩
  have connected := Racing.next missed 0 (.ok ()) rfl (.inl ⟨rfl, rfl⟩)
  have read := Racing.next connected 0 _ rfl (.inl ⟨rfl, rfl⟩)
  have ready := Racing.next read 1 (.ok ()) rfl (.inl ⟨rfl, rfl⟩)
  have stored := Racing.next ready 1 (.ok ()) rfl (.inl ⟨rfl, by decide, rfl⟩)
  have written := Racing.next stored 1 () rfl rfl
  have filled := Racing.next written 0 () rfl rfl
  refine ⟨_, _, _, filled, ?_, _, List.mem_cons_self, ?_⟩
  · intro thread
    match thread with
    | 0 => exact ⟨_, rfl⟩
    | 1 => exact ⟨_, rfl⟩
  · rintro ⟨expiresAt, found⟩
    cases found

end Race

end BankingEs.Proofs.CacheLevels
