import BankingEs.Async.Interference
import BankingEs.Cache.Moves
import BankingEs.Cache.Process

/-! How old what a process reads can be. Whatever the other processes do, an account that it returns
was in Redis at some moment of the last default lifetime, and of the delay with which accounts are
put in memory. -/

namespace BankingEs.Proofs.CacheProcess
open Async Relation BankingEs.CacheProcess

variable {ι : Type} {id : Uuid} {account : Account}

section Entries

/-- An entry in memory, in whatever shard. -/
def Within (cache : Cache) (id : Uuid) (entry : CacheEntry) : Prop :=
  ∃ index, (id, entry) ∈ cache.accounts.shards index

/-- The accounts that a call puts in memory. -/
def Puts : {β : Type} → LevelCall β → Uuid → Account → Prop
  | _, .update accountId account, id, held => id = accountId ∧ held = account
  | _, _, _, _ => False

/-- Memory after a change that adds at most what `puts` allows. -/
structure Refreshed (now : Instant) (puts : Uuid → Account → Prop) (before after : Cache) : Prop where
  config : after.accounts.config = before.accounts.config
  entries : ∀ id entry, Within after id entry → Within before id entry ∨
    puts id entry.value ∧ entry.lastAccessed = now ∧ entry.ttl = before.accounts.config.defaultTtl

private theorem Refreshed.of_shards {now : Instant} {puts : Uuid → Account → Prop} {before after : Cache}
    (config : after.accounts.config = before.accounts.config)
    (shards : ∀ index, after.accounts.shards index ⊆ before.accounts.shards index) : Refreshed now puts before after := by
  refine ⟨config, ?_⟩
  intro id entry within
  obtain ⟨index, member⟩ := within
  exact .inl ⟨index, shards index member⟩

private theorem Refreshed.same {now : Instant} {puts : Uuid → Account → Prop} {before after : Cache}
    (same : after.accounts.shards = before.accounts.shards) (config : after.accounts.config = before.accounts.config) :
    Refreshed now puts before after := by
  refine .of_shards config ?_
  intro index
  rw [same]
  exact List.Subset.refl _

private theorem removeEntry_refreshed {now : Instant} {puts : Uuid → Account → Prop} (cache : Cache) (id : Uuid) :
    Refreshed now puts cache (cache.removeEntry id) := by
  refine .of_shards rfl ?_
  intro index
  simp only [Cache.removeEntry, CacheService.setShard_shards]
  split
  next same =>
    rw [same]
    exact List.filter_subset_self _
  next => exact List.Subset.refl _

private theorem update_refreshed {now : Instant} {puts : Uuid → Account → Prop} {before after : Cache}
    (updated : after.accounts = before.accounts.updateInMemoryCache now id account) (allowed : puts id account) :
    Refreshed now puts before after := by
  refine ⟨by rw [updated]; rfl, ?_⟩
  intro other entry within
  obtain ⟨index, member⟩ := within
  rw [updated] at member
  rcases CacheService.mem_updateInMemoryCache member with ⟨rfl, _, rfl⟩ | ⟨_, old⟩
  · exact .inr ⟨allowed, rfl, rfl⟩
  · exact .inl ⟨index, old⟩

private theorem levels_refreshed [DecidableEq ι] {thread : ι} {world levels : Levels ι} {β : Type} {op : LevelCall β}
    {reply : β}
    (served : Levels.step thread world op reply levels) :
    Refreshed world.now (Puts op) world.cache levels.cache := by
  cases op with
  | lookup accountId =>
    simp only [Levels.step] at served
    split at served
    · split at served
      · rw [served.2]
        exact removeEntry_refreshed _ _
      · rw [served.2]
        exact .same rfl rfl
    · rw [served.2]
      exact .same rfl rfl
  | getConnection => rcases served with ⟨_, rfl⟩ | ⟨_, rfl⟩ <;> exact .same rfl rfl
  | get => rcases served with ⟨_, rfl⟩ | ⟨_, rfl⟩ <;> exact .same rfl rfl
  | setEx => rcases served with ⟨_, _, rfl⟩ | ⟨_, rfl⟩ <;> exact .same rfl rfl
  | del => rcases served with ⟨_, rfl⟩ | ⟨_, rfl⟩ <;> exact .same rfl rfl
  | delEvents => rcases served with ⟨_, rfl⟩ | ⟨_, rfl⟩ <;> exact .same rfl rfl
  | update accountId account =>
    cases served
    exact update_refreshed rfl ⟨rfl, rfl⟩
  | remove accountId =>
    cases served
    exact ⟨rfl, (removeEntry_refreshed world.cache accountId).entries⟩

end Entries

section Knowledge
variable {delay lifetime : Duration} {process before after ready : CacheProcess ι} {thread : ι} {time : Instant}

/-- Redis held the account under the id at a moment. -/
def Held (process : CacheProcess ι) (id : Uuid) (account : Account) (time : Instant) : Prop :=
  ∃ accounts expiresAt, (time, accounts) ∈ process.moments ∧ accounts id = some ⟨some account, expiresAt⟩ ∧ time < expiresAt

private theorem Held.later (held : Held before id account time) (moments : before.moments ⊆ after.moments) :
    Held after id account time := by
  obtain ⟨accounts, expiresAt, member, found, live⟩ := held
  exact ⟨accounts, expiresAt, moments member, found, live⟩

/-- Whatever is in memory was in Redis shortly before it was put there. -/
structure Sound (delay lifetime : Duration) (process : CacheProcess ι) : Prop where
  config : process.cache.accounts.config.defaultTtl = lifetime
  past : ∀ moment ∈ process.moments, moment.1 ≤ process.now
  entries : ∀ id entry, Within process.cache id entry → entry.ttl = lifetime ∧
    ∃ time, Held process id entry.value time ∧ entry.lastAccessed ≤ time + delay

structure Grows (delay lifetime : Duration) (thread : ι) (before after : CacheProcess ι) : Prop where
  moments : before.moments ⊆ after.moments
  touched : after.touched thread = before.touched thread
  sound : Sound delay lifetime before → Sound delay lifetime after

private theorem Grows.trans (first : Grows delay lifetime thread before ready)
    (second : Grows delay lifetime thread ready after) :
    Grows delay lifetime thread before after :=
  ⟨List.Subset.trans first.moments second.moments, second.touched.trans first.touched, fun sound => second.sound (first.sound sound)⟩

/-- Memory changes as it is refreshed, and what it gains was in Redis. -/
theorem Sound.refreshed {puts : Uuid → Account → Prop} (sound : Sound delay lifetime before)
    (refreshed : Refreshed before.now puts before.cache after.cache)
    (moments : before.moments ⊆ after.moments) (past : ∀ moment ∈ after.moments, moment.1 ≤ after.now)
    (put : ∀ id account, puts id account → ∃ time, Held after id account time ∧ before.now ≤ time + delay) :
    Sound delay lifetime after := by
  refine ⟨by rw [refreshed.config]; exact sound.config, past, ?_⟩
  intro id entry within
  rcases refreshed.entries id entry within with old | ⟨new, accessed, ttl⟩
  · obtain ⟨ttl, time, held, accessed⟩ := sound.entries id entry old
    exact ⟨ttl, time, held.later moments, accessed⟩
  · obtain ⟨time, held, soon⟩ := put id entry.value new
    exact ⟨ttl.trans sound.config, time, held, accessed.trans_le soon⟩

/-- The account was in Redis within the lifetime and the delay before the task read it. -/
def Recent (delay lifetime : Duration) (thread : ι) (process : CacheProcess ι) (id : Uuid) (account : Account) : Prop :=
  ∃ time, Held process id account time ∧ time ≤ process.touched thread ∧ process.touched thread ≤ time + delay + lifetime

private theorem recent_of_held (held : Held process id account (process.touched thread)) :
    Recent delay lifetime thread process id account :=
  ⟨process.touched thread, held, le_refl _, (Int.le_add_of_nonneg_right (Int.natCast_nonneg _)).trans
    (Int.le_add_of_nonneg_right (Int.natCast_nonneg _))⟩

/-- What a task has read last: what it may put in memory, and what it may return. -/
structure Known where
  carried : Uuid → Account → Prop
  read : Uuid → Account → Prop

def exchanged (accounts : Uuid → Account → Prop) : Known := ⟨accounts, accounts⟩

def learns : {β : Type} → Known → LevelCall β → β → Known
  | _, _, .lookup id, reply => ⟨fun _ _ => False, fun other account => other = id ∧ reply = some account⟩
  | _, _, .get id, reply => exchanged fun other account => other = id ∧ ∃ expiresAt, reply = .ok (some ⟨some account, expiresAt⟩)
  | _, _, .setEx account _, reply => exchanged fun id other => id = account.id ∧ other = account ∧ reply = .ok ()
  | _, known, _, _ => known

def permits {β : Type} (known : Known) (op : LevelCall β) :
    Prop := ∀ id account, Puts op id account → known.carried id account

structure Truth (delay lifetime : Duration) (thread : ι) (known : Known) (process : CacheProcess ι) : Prop where
  sound : Sound delay lifetime process
  carried : ∀ id account, known.carried id account → Held process id account (process.touched thread)
  read : ∀ id account, known.read id account → Recent delay lifetime thread process id account

private theorem Truth.later (known : Known) (before after : CacheProcess ι)
    (grows : Grows delay lifetime thread before after)
    (truth : Truth delay lifetime thread known before) : Truth delay lifetime thread known after := by
  refine ⟨grows.sound truth.sound, ?_, ?_⟩
  · intro id account carried
    rw [grows.touched]
    exact (truth.carried id account carried).later grows.moments
  · intro id account read
    obtain ⟨time, held, past, bound⟩ := truth.read id account read
    rw [← grows.touched] at past bound
    exact ⟨time, held.later grows.moments, past, bound⟩

/-- Time, entries that have expired and what the others do go by. -/
theorem passes_grows (passes : Passes before after) :
    after.moments = before.moments ∧ Grows delay lifetime thread before after := by
  cases passes with
  | waits later =>
    refine ⟨rfl, List.Subset.refl _, rfl, fun sound => ?_⟩
    exact ⟨sound.config, fun moment member => (sound.past moment member).trans later, sound.entries⟩
  | cleans =>
    refine ⟨rfl, List.Subset.refl _, rfl, fun sound => ?_⟩
    exact @Sound.refreshed _ _ _ _ _ (fun _ _ => False) sound (.of_shards rfl fun _ => List.filter_subset_self _)
      (List.Subset.refl _) sound.past fun _ _ impossible => impossible.elim
  | others accounts => exact ⟨rfl, List.Subset.refl _, rfl, fun sound => ⟨sound.config, sound.past, sound.entries⟩⟩

private theorem passing_grows (passes : ReflTransGen Passes before after) :
    after.moments = before.moments ∧ Grows delay lifetime thread before after := by
  induction passes with
  | refl => exact ⟨rfl, List.Subset.refl _, rfl, fun sound => sound⟩
  | tail _ step ih =>
    obtain ⟨moments, grows⟩ := @passes_grows _ delay lifetime _ _ thread step
    exact ⟨moments.trans ih.1, ih.2.trans grows⟩

variable [DecidableEq ι] {known : Known} {β : Type} {op : LevelCall β} {reply : β} {cache : Cache}

private theorem record_sound (truth : Truth delay lifetime thread known ready) (prompt : Prompt delay thread ready op)
    (stepped : step thread ready op reply cache) (permitted : permits known op) :
    Sound delay lifetime (ready.record thread op cache) := by
  obtain ⟨levels, stepped, rfl⟩ := stepped
  refine truth.sound.refreshed (levels_refreshed stepped) (List.subset_append_left _ _) ?_ ?_
  · intro moment member
    rcases List.mem_append.mp member with old | new
    · exact truth.sound.past moment old
    · cases List.mem_singleton.mp new
      exact le_refl _
  · intro id account new
    refine ⟨ready.touched thread, (truth.carried id account (permitted id account new)).later (List.subset_append_left _ _), ?_⟩
    cases op <;> first | exact new.elim | exact prompt

private theorem record_grows {other : ι} (kept : other ≠ thread ∨ touches op = false)
    (sound : Sound delay lifetime (ready.record thread op cache)) :
    Grows delay lifetime other ready (ready.record thread op cache) := by
  refine ⟨List.subset_append_left _ _, ?_, fun _ => sound⟩
  unfold record
  split
  next touching =>
    rcases kept with apart | untouched
    · exact Function.update_of_ne apart _ _
    · rw [untouched] at touching
      cases touching
  next => rfl

end Knowledge

section Replies
variable [DecidableEq ι] {delay lifetime : Duration} {thread : ι} {ready : CacheProcess ι} {cache : Cache} {known : Known}
  {β : Type} {op : LevelCall β} {reply : β}

/-- What memory answers with was put there within the lifetime. -/
theorem lookup_recent (sound : Sound delay lifetime ready)
    (stepped : step thread ready (.lookup id) (some account) cache) :
    Recent delay lifetime thread (ready.record thread (.lookup id) cache) id account := by
  have touched : (ready.record thread (.lookup id) cache).touched thread = ready.now := Function.update_self ..
  obtain ⟨levels, stepped, _⟩ := stepped
  simp only [Levels.step] at stepped
  split at stepped
  next entry found =>
    split at stepped
    · cases stepped.1
    next live =>
      cases stepped.1
      obtain ⟨ttl, time, ⟨_, _, member, held⟩, accessed⟩ := sound.entries id entry ⟨_, CacheService.entry_member found⟩
      have soon : ready.now - entry.lastAccessed < entry.ttl := by simpa [CacheService.isExpired] using live
      refine ⟨time, ⟨_, _, List.mem_append_left _ member, held⟩, touched ▸ sound.past _ member, ?_⟩
      rw [touched, ← ttl]
      exact (sub_lt_iff_lt_add'.mp soon).le.trans (Int.add_le_add_right accessed _)
  next => cases stepped.1

private theorem record_held {expiresAt : Instant} (touching : touches op = true)
    (found : cache.accounts.redis id = some ⟨some account, expiresAt⟩) (live : ready.now < expiresAt) :
    Held (ready.record thread op cache) id account ((ready.record thread op cache).touched thread) := by
  have touched : (ready.record thread op cache).touched thread = ready.now := by
    unfold record
    rw [if_pos touching]
    exact Function.update_self ..
  rw [touched]
  exact ⟨cache.accounts.redis, expiresAt, List.mem_append_right _ (List.mem_singleton_self _), found, live⟩

/-- What the replies of Redis tell was in Redis when it was told. -/
theorem exchange_held (touching : touches op = true)
    (stepped : step thread ready op reply cache)
    (learned : (learns known op reply).carried id account) :
    Held (ready.record thread op cache) id account ((ready.record thread op cache).touched thread) := by
  obtain ⟨levels, stepped, rfl⟩ := stepped
  cases op with
  | lookup => exact learned.elim
  | get =>
    obtain ⟨rfl, expiresAt, rfl⟩ := learned
    rcases stepped with ⟨same, rfl⟩ | ⟨⟨error, impossible⟩, _⟩
    · obtain ⟨stored, live⟩ := Option.filter_eq_some_iff.mp (Except.ok.inj same).symm
      exact record_held rfl stored (of_decide_eq_true live)
    · cases impossible
  | setEx =>
    obtain ⟨rfl, rfl, rfl⟩ := learned
    rcases stepped with ⟨_, lasting, rfl⟩ | ⟨⟨error, impossible⟩, _⟩
    · refine record_held rfl (Function.update_self ..) (Int.lt_add_of_pos_right _ ?_)
      exact Int.natCast_pos.mpr (Nat.mul_pos (Nat.pos_of_ne_zero lasting) (by decide))
    · cases impossible
  | _ => cases touching

private theorem learns_truth (truth : Truth delay lifetime thread known ready)
    (stepped : step thread ready op reply cache)
    (sound : Sound delay lifetime (ready.record thread op cache)) :
    Truth delay lifetime thread (learns known op reply) (ready.record thread op cache) := by
  have told (touching : touches op = true) :
      ∀ id account, (learns known op reply).carried id account →
        Held (ready.record thread op cache) id account ((ready.record thread op cache).touched thread) :=
    fun _ _ learned => exchange_held touching stepped learned
  cases op with
  | lookup =>
    refine ⟨sound, told rfl, ?_⟩
    intro other account read
    obtain ⟨rfl, rfl⟩ := read
    exact lookup_recent truth.sound stepped
  | get => exact ⟨sound, told rfl, fun id account learned => recent_of_held (told rfl id account learned)⟩
  | setEx => exact ⟨sound, told rfl, fun id account learned => recent_of_held (told rfl id account learned)⟩
  | _ => exact truth.later known _ _ (record_grows (.inr rfl) sound)

private theorem serves_truth {β : Type} (known : Known) (op : LevelCall β) (before : CacheProcess ι) (reply : β)
    (after : CacheProcess ι) (permitted : permits known op) (served : serves delay thread before op reply after)
    (truth : Truth delay lifetime thread known before) :
    (∀ other, other ≠ thread → Grows delay lifetime other before after) ∧
      Truth delay lifetime thread (learns known op reply) after := by
  obtain ⟨ready, cache, passes, prompt, stepped, rfl⟩ := served
  have truth := truth.later known before ready (passing_grows passes).2
  have sound := record_sound truth prompt stepped permitted
  exact ⟨fun other apart => (passing_grows passes).2.trans (record_grows (.inl apart) sound), learns_truth truth stepped sound⟩

end Replies

section Tasks
variable {known : Known}

def returns (id : Uuid) (known : Known) (value : Except String (Option Account)) : Prop :=
  ∀ account, value = .ok (some account) → known.read id account

private theorem returns_none : returns id known (.ok none) := fun _ impossible => by cases impossible

private theorem returns_error {error : String} :
    returns id known (.error error) := fun _ impossible => by cases impossible

private theorem send_follows {γ : Type} {op : LevelCall (Except String γ)}
    {next : γ → Program LevelCall (Except String (Option Account))}
    (permitted : permits known op)
    (rest : ∀ value, (next value).Follows permits learns (returns id) (learns known op (.ok value))) :
    ((Program.send op).andThen next).Follows permits learns (returns id) known := by
  refine ⟨permitted, fun reply => ?_⟩
  cases reply with
  | error error => exact returns_error
  | ok value => exact rest value

private theorem getAccount_follows : (AccountCall.getAccountProgram id).Follows permits learns (returns id) known := by
  refine ⟨fun _ _ put => put.elim, fun reply => ?_⟩
  cases reply with
  | some account =>
    intro other returned
    cases returned
    exact ⟨rfl, rfl⟩
  | none =>
    refine send_follows (fun _ _ put => put.elim) fun _ => send_follows (fun _ _ put => put.elim) fun found => ?_
    rcases found with _ | ⟨_ | account, expiresAt⟩
    · exact returns_none
    · exact returns_none
    · refine ⟨fun other stored put => ⟨put.1, expiresAt, by rw [put.2]⟩, fun _ other returned => ?_⟩
      cases returned
      exact ⟨rfl, expiresAt, rfl⟩

private theorem setAccount_follows (ttl : Duration) (lifetime : Option Duration) :
    (AccountCall.setAccountProgram ttl account lifetime).Follows permits learns (returns id) known :=
  send_follows (fun _ _ put => put.elim) fun _ => send_follows (fun _ _ put => put.elim) fun _ =>
    ⟨fun _ _ put => ⟨put.1, put.2, rfl⟩, fun _ => returns_none⟩

private theorem deleteAccountEvents_follows (accountId : Uuid) :
    (deleteAccountEventsProgram accountId).Follows permits learns (returns id) known :=
  send_follows (fun _ _ put => put.elim) fun _ => send_follows (fun _ _ put => put.elim) fun _ => returns_none

private theorem updater_follows (ttl : Duration) (polls : List (Except String (Option Account))) :
    (L1CacheUpdater.loop ttl polls).Follows permits learns (returns id) known := by
  induction polls generalizing known with
  | nil => exact returns_none
  | cons polled polls ih =>
    rcases polled with _ | _ | account
    · exact ih
    · exact ih
    · exact (setAccount_follows ttl none).bind fun _ _ (_ : returns id _ _) =>
        (deleteAccountEvents_follows account.id).bind fun _ _ (_ : returns id _ _) => ih

def subject : ProcessTask → Uuid
  | .account call => call.accountId
  | .deleteAccountEvents accountId => accountId
  | .updater _ _ => ⟨0⟩

/-- Every task puts in memory only what it has just exchanged with Redis, and returns only what it
has read. -/
theorem task_follows (ttl : Duration) (task : ProcessTask) :
    (task.program ttl).Follows permits learns (returns (subject task)) known := by
  cases task with
  | account call =>
    cases call with
    | getAccount => exact getAccount_follows
    | setAccount account lifetime => exact setAccount_follows ttl lifetime
    | invalidateAccount accountId =>
      exact ⟨fun _ _ put => put.elim, fun _ => send_follows (fun _ _ put => put.elim) fun _ =>
        send_follows (fun _ _ put => put.elim) fun _ => send_follows (fun _ _ put => put.elim) fun _ => returns_none⟩
  | deleteAccountEvents accountId => exact deleteAccountEvents_follows accountId
  | updater subscribed polls =>
    cases subscribed with
    | error error => exact returns_error
    | ok _ => exact updater_follows ttl polls

end Tasks

section Runs
variable [DecidableEq ι] {delay lifetime : Duration} {tasks : ι → ProcessTask} {start process : CacheProcess ι}
  {history : List (Served ι LevelCall (CacheProcess ι))} {threads : ι → Program LevelCall (Except String (Option Account))}

/-- The process has just started, over a Redis that may hold anything. -/
structure Opened (lifetime : Duration) (start : CacheProcess ι) : Prop where
  lifetime : start.cache.accounts.config.defaultTtl = lifetime
  empty : ∀ index, start.cache.accounts.shards index = []
  moments : start.moments = []

omit [DecidableEq ι] in
private theorem Opened.sound (opened : Opened lifetime start) : Sound delay lifetime start := by
  refine ⟨opened.lifetime, ?_, ?_⟩
  · intro moment member
    rw [opened.moments] at member
    cases member
  · intro id entry within
    obtain ⟨index, member⟩ := within
    rw [opened.empty] at member
    cases member

private theorem run_moments (opened : Opened lifetime start)
    (run : Interleaves (serves delay) (fun thread => (tasks thread).program lifetime) start history threads process) :
    process.moments = history.map fun entry => (entry.world.now, entry.world.cache.accounts.redis) := by
  induction run with
  | start => rw [opened.moments]; rfl
  | serve thread reply run pending served ih =>
    obtain ⟨ready, cache, passes, _, _, rfl⟩ := served
    have moments := (@passing_grows _ delay lifetime _ _ thread passes).1
    rw [List.map_append, ← ih, ← moments]
    rfl

private theorem run_truth (opened : Opened lifetime start)
    (run : Interleaves (serves delay) (fun thread => (tasks thread).program lifetime) start history threads process)
    {thread : ι} {value : Except String (Option Account)} (returned : threads thread = .pure value) :
    ∃ known, Truth delay lifetime thread known process ∧ returns (subject (tasks thread)) known value := by
  have compatible (thread other : ι) (before after : CacheProcess ι) (apart : thread ≠ other)
      (grows : ∀ other, other ≠ thread → Grows delay lifetime other before after) :
      Grows delay lifetime other before after := grows other apart.symm
  have nothing (thread : ι) : Truth delay lifetime thread (exchanged fun _ _ => False) start :=
    ⟨opened.sound, fun _ _ impossible => impossible.elim, fun _ _ impossible => impossible.elim⟩
  have starts (thread : ι) := Guards.of_follows (Truth delay lifetime thread)
    (task_follows lifetime (tasks thread)) Truth.later serves_truth (nothing thread)
  have returns := (Interleaves.guards compatible starts run).2 thread
  rw [returned] at returns
  exact returns process .refl

/-- A process runs any calls of its cache and updates from Kafka at the same time, while the others
that share its Redis change the accounts there. If accounts are put in memory no later than `delay`
after they were exchanged with Redis, then whatever account a call returns was live in Redis at some
moment of the run, at most the default lifetime and the delay before it was read. -/
theorem process_reads_recent (opened : Opened lifetime start)
    (run : Interleaves (serves delay) (fun thread => (tasks thread).program lifetime) start history threads process)
    {thread : ι} {id : Uuid} {account : Account} (asked : tasks thread = .account (.getAccount id))
    (returned : threads thread = .pure (.ok (some account))) :
    ∃ entry ∈ history, ∃ expiresAt, entry.world.cache.accounts.redis id = some ⟨some account, expiresAt⟩ ∧
      entry.world.now < expiresAt ∧ entry.world.now ≤ process.touched thread ∧
      process.touched thread ≤ entry.world.now + delay + lifetime := by
  obtain ⟨known, truth, answers⟩ := run_truth opened run returned
  rw [asked] at answers
  obtain ⟨time, ⟨accounts, expiresAt, member, found, live⟩, past, bound⟩ := truth.read id account (answers account rfl)
  rw [run_moments opened run] at member
  obtain ⟨entry, served, same⟩ := List.mem_map.mp member
  cases same
  exact ⟨entry, served, expiresAt, found, live, past, bound⟩

end Runs

section Sample

private theorem exists_runs {R : Type → Type} {σ α β : Type} {serves : Serves R σ} {post : σ → Prop} {op : R β}
    {resume : β → Program R α} {before middle : σ} {value : α} (reply : β) (served : serves before op reply middle)
    (rest : ∃ after, Runs serves middle (resume reply) value after ∧ post after) :
    ∃ after, Runs serves before (.request op resume) value after ∧ post after := by
  obtain ⟨after, runs, holds⟩ := rest
  exact ⟨after, .request reply served runs, holds⟩

private theorem serves_at {process : CacheProcess Bool} {levels : Levels Bool} {thread : Bool} {β : Type}
    {op : LevelCall β} {reply : β}
    (now : Instant) (later : process.now ≤ now) (prompt : Prompt 0 thread { process with now } op)
    (stepped : Levels.step thread { now, cache := process.cache } op reply levels) :
    serves 0 thread process op reply ({ process with now }.record thread op levels.cache) :=
  ⟨{ process with now }, levels.cache, .single (.waits later), prompt, ⟨levels, stepped, rfl⟩, rfl⟩

def saved : Account := Sample.account ⟨0⟩ 0

/-- Another process has set an account for a second, which this one keeps as long. -/
def second : CacheProcess Bool :=
  { cache := { accounts := { config := { defaultTtl := Duration.fromSecs 1 }, redis := fun _ => some ⟨some saved, 1000000000⟩ } } }

def readers : Bool → ProcessTask := fun _ => .account (.getAccount saved.id)

private theorem opened_second : Opened (Duration.fromSecs 1) second := ⟨rfl, fun _ => rfl, rfl⟩

private theorem account_read : ∃ filling,
    Runs (serves 0 false) second ((readers false).program (Duration.fromSecs 1)) (.ok (some saved)) filling ∧
    ∃ reading, Runs (serves 0 true) filling ((readers true).program (Duration.fromSecs 1)) (.ok (some saved)) reading ∧
      reading.touched true = 1999999998 := by
  refine exists_runs none (serves_at 999999999 (by decide) trivial ⟨rfl, rfl⟩) ?_
  refine exists_runs (.ok ()) (serves_at 999999999 (le_refl _) trivial (.inl ⟨rfl, rfl⟩)) ?_
  refine exists_runs (.ok (some ⟨some saved, 1000000000⟩)) (serves_at 999999999 (le_refl _) trivial (.inl ⟨rfl, rfl⟩)) ?_
  refine exists_runs () (serves_at 999999999 (le_refl _) (le_refl _) rfl) ?_
  refine ⟨_, .pure, ?_⟩
  refine exists_runs (some saved) (serves_at 1999999998 (by decide) trivial ⟨rfl, rfl⟩) ?_
  exact ⟨_, .pure, rfl⟩

/-- The account that is read last was in Redis less than a second before, though it was set almost
two seconds before. -/
theorem account_read_recent : ∃ history threads process,
    Interleaves (serves 0) (fun thread => (readers thread).program (Duration.fromSecs 1)) second history threads process ∧
      threads true = .pure (.ok (some saved)) ∧ process.touched true = 1999999998 ∧
      ∃ entry ∈ history, ∃ expiresAt, entry.world.cache.accounts.redis saved.id = some ⟨some saved, expiresAt⟩ ∧
        entry.world.now < expiresAt ∧ entry.world.now ≤ process.touched true ∧
        process.touched true ≤ entry.world.now + (0 : Duration) + Duration.fromSecs 1 := by
  obtain ⟨filling, fills, reading, reads, touched⟩ := account_read
  have began := @Interleaves.start _ _ _ _ _ (serves 0) (fun thread => (readers thread).program (Duration.fromSecs 1)) second
  obtain ⟨_, run⟩ := began.alone rfl fills
  obtain ⟨history, run⟩ := run.alone (show Function.update _ _ _ true = _ from rfl) reads
  exact ⟨history, _, reading, run, Function.update_self .., touched,
    process_reads_recent opened_second run rfl (Function.update_self ..)⟩

end Sample
end BankingEs.Proofs.CacheProcess
