import BankingEs.Cache.Moves
import BankingEs.Proofs.Footprint
import BankingEs.Proofs.SelfBlocking

/-! What `get_account` answers after deposits and withdrawals, if it answers. These append events
and record transactions, but no call of theirs writes an account projection, and
what they cache is the projection again. -/

namespace BankingEs.Proofs.ReadYourWrites
open Async AccountRepository CacheService Footprint Locking Relation World

variable {ι Value : Type} {env : Environment Value} {caller : ι}

inductive Operation where
  | depositMoney (accountId : Uuid) (amount : Decimal)
  | withdrawMoney (accountId : Uuid) (amount : Decimal)
  | getAccount (accountId : Uuid)

def Operation.program (codec : Codec Value) :
    Operation → Program (Call Value) (Except AccountError (Option AccountProjection))
  | depositMoney accountId amount =>
    (AccountService.depositMoney codec accountId amount).andThen fun _ => .pure (.ok none)
  | withdrawMoney accountId amount =>
    (AccountService.withdrawMoney codec accountId amount).andThen fun _ => .pure (.ok none)
  | getAccount accountId => AccountService.getAccount accountId

structure View where
  ownerName : String
  balance : Decimal
  isActive : Bool
  deriving DecidableEq

def View.ofAccount (account : Account) : View := ⟨account.ownerName, account.balance, account.isActive⟩

def View.ofRow (row : AccountProjection) : View := ⟨row.ownerName, row.balance, row.isActive⟩

/-- The view of the replayed events of an id. -/
def replayed (codec : Codec Value) (table : Table Value) (id : Uuid) : Except AccountError (Option View) :=
  (rehydrate codec id (.ok (table.getEvents id none))).map (Option.map .ofAccount)

/-- The projection of every account and each of its cached copies agree with its events. -/
structure Mirrors (codec : Codec Value) (world : World ι Value) : Prop where
  keyed : ∀ id row, world.accounts id = some row → row.id = id
  rows : ∀ id, replayed codec world.events id = .ok ((world.accounts id).map .ofRow)
  copies : ∀ id account, world.cache.Servable world.now id account →
    replayed codec world.events id = .ok (some (.ofAccount account))

/-- The account projections are as given, and the cache repeats them. -/
structure Steady (rows : Uuid → Option AccountProjection) (world : World ι Value) : Prop where
  accounts : world.accounts = rows
  copies : ∀ id account, world.cache.Servable world.now id account → (rows id).map View.ofRow = some (.ofAccount account)

private theorem Mirrors.steady {codec : Codec Value} {world : World ι Value} (mirrors : Mirrors codec world) :
    Steady world.accounts world := by
  refine ⟨rfl, ?_⟩
  intro id account copy
  have agree := (mirrors.rows id).symm.trans (mirrors.copies id account copy)
  exact Except.ok.inj agree

variable {rows : Uuid → Option AccountProjection}

/-- Calls that write no projection, and cache nothing but a projection. -/
def Harmless (rows : Uuid → Option AccountProjection) {β : Type} : Call Value β → Prop
  | .upsertAccountsBatch _ => False
  | .cacheSetAccount account _ => (rows account.id).map View.ofRow = some (.ofAccount account)
  | _ => True

private theorem passes_steady {before after : World ι Value} (passes : Passes before after)
    (steady : Steady rows before) :
    Steady rows after := by
  cases passes with
  | waits later => exact ⟨steady.accounts, fun id account copy => steady.copies id account (copy.earlier later)⟩
  | @cleans now later =>
    have cleaned : Move now (fun _ => True) before.cache (before.cache.cleanUp now) := cleanUp_drops now
    exact ⟨steady.accounts, fun id account copy => steady.copies id account ((cleaned.servable copy).earlier later)⟩

private theorem serves_steady {β : Type} {before after : World ι Value} {op : Call Value β} {reply : β}
    (harmless : Harmless rows op) (served : serves env caller before op reply after) (steady : Steady rows before) :
    Steady rows after := by
  obtain ⟨ready, passes, step⟩ := served
  obtain ⟨accounts, copies⟩ := passes_steady passes steady
  cases op with
  | newV4 =>
    obtain ⟨-, rfl⟩ := step
    exact ⟨accounts, copies⟩
  | utcNow =>
    obtain rfl := step
    exact ⟨accounts, copies⟩
  | isDuplicateCommand commandId =>
    obtain ⟨-, rfl⟩ := step
    split
    · exact ⟨accounts, copies⟩
    · exact ⟨accounts, copies⟩
  | getEvents | projectionsGetAccount =>
    obtain ⟨-, rfl⟩ := step
    exact ⟨accounts, copies⟩
  | saveEvents request =>
    cases step with
    | stored => exact ⟨accounts, copies⟩
    | refused => exact ⟨accounts, copies⟩
  | upsertAccountsBatch rows => exact harmless.elim
  | insertTransactionsBatch rows =>
    rcases step with ⟨-, rfl⟩ | ⟨-, rfl⟩
    · exact ⟨accounts, copies⟩
    · exact ⟨accounts, copies⟩
  | cacheGetAccount accountId =>
    obtain ⟨connection, -, cache, looked, rfl⟩ := step
    refine ⟨accounts, fun id account copy => copies id account ?_⟩
    apply (getAccount_moves connection accountId).servable
    rw [looked]
    exact copy
  | cacheSetAccount account ttl =>
    obtain ⟨connection, -, cache, stored, rfl⟩ := step
    refine ⟨accounts, fun id copied copy => ?_⟩
    simp only [CacheService.setAccount] at stored
    split at stored
    next =>
      cases stored
      exact copies id copied copy
    next =>
      cases stored
      rcases store_servable copy with ⟨rfl, rfl⟩ | ⟨_, before⟩
      · exact harmless
      · exact copies id copied before

section Threads
variable {world : World ι Value}

def Keeps (rows : Uuid → Option AccountProjection) (_before after : World ι Value) : Prop := Steady rows after

private theorem harmless_guards {α : Type} {program : Program (Call Value) α} (uses : program.Uses (Harmless rows))
    (steady : Steady rows world) :
    Guards (serves env caller) (Keeps rows) (Keeps rows) (fun _ => Steady rows) program world := by
  apply Guards.of_uses (Steady rows) uses
  · exact fun _ _ kept _ => kept
  · intro _ op before reply after harmless served steady
    have kept := serves_steady harmless served steady
    exact ⟨kept, kept⟩
  · exact steady

private theorem request_guards {α β : Type} {op : Call Value β} {resume : β → Program (Call Value) α}
    {post : α → World ι Value → Prop} (harmless : Harmless rows op) (steady : Steady rows world)
    (rest : ∀ before reply after, serves env caller before op reply after → Steady rows before → Steady rows after →
      Guards (serves env caller) (Keeps rows) (Keeps rows) post (resume reply) after) :
    Guards (serves env caller) (Keeps rows) (Keeps rows) post (.request op resume) world := by
  intro before reply after moves served
  have held : Steady rows before := preserved_by_steps (fun _ _ kept _ => kept) moves steady
  have kept := serves_steady harmless served held
  exact ⟨kept, rest before reply after served held kept⟩

private theorem serves_projection {before after : World ι Value} {id : Uuid} {found : Option AccountProjection}
    (served : serves env caller before (.projectionsGetAccount id) (.ok found) after) (steady : Steady rows before) :
    found = rows id := by
  obtain ⟨ready, passes, answer, -⟩ := served
  rw [← (passes_steady passes steady).accounts]
  rcases answer with answer | ⟨-, error, failed⟩
  · exact Except.ok.inj answer
  · cases failed

private theorem serves_answers {before after : World ι Value} {id : Uuid} {error : String}
    (served : serves env caller before (.projectionsGetAccount id) (.error error) after) : env.fails := by
  obtain ⟨ready, passes, answer | failed, -⟩ := served
  · cases answer
  · exact failed.1

/-- What is cached after a transaction is the projection as it is. -/
theorem updateProjection_guards (keyed : ∀ id row, rows id = some row → row.id = id) (event : AccountEvent)
    (steady : Steady rows world) :
    Guards (serves env caller) (Keeps rows) (Keeps rows) (fun _ => Steady rows)
      (AccountService.updateProjection event) world := by
  refine request_guards trivial steady ?_
  intro _ id _ _ _ steady
  refine request_guards trivial steady ?_
  intro _ timestamp _ _ _ steady
  refine request_guards trivial steady ?_
  intro _ reply _ _ _ steady
  cases reply with
  | error error => exact harmless_guards trivial steady
  | ok _ =>
    refine request_guards trivial steady ?_
    intro before reply _ served held steady
    cases reply with
    | error error => exact harmless_guards trivial steady
    | ok found =>
      have stored := serves_projection served held
      cases found with
      | none => exact harmless_guards trivial steady
      | some row =>
        have harmless : (rows row.id).map View.ofRow = some (.ofRow row) := by
          rw [keyed event.aggregateId row stored.symm, ← stored]
          rfl
        exact harmless_guards ⟨harmless, fun _ => trivial⟩ steady

private theorem updateProjections_guards (keyed : ∀ id row, rows id = some row → row.id = id)
    (events : List AccountEvent)
    (steady : Steady rows world) :
    Guards (serves env caller) (Keeps rows) (Keeps rows) (fun _ => Steady rows)
      (AccountService.updateProjectionsFromEvents events) world := by
  induction events generalizing world with
  | nil => exact harmless_guards trivial steady
  | cons event events ih =>
    apply (updateProjection_guards keyed event steady).andThen
    · exact fun _ _ steady => steady
    · exact fun _ _ steady => ih steady

private theorem reading_harmless {β : Type} {op : Call Value β} (reading : isReading op) : Harmless rows op := by
  cases op with
  | newV4 | getEvents => trivial
  | _ => cases reading

private theorem execute_guards (keyed : ∀ id row, rows id = some row → row.id = id) (duplicate : String) (id : Uuid)
    (command : AccountCommand) (steady : Steady rows world) :
    Guards (serves env caller) (Keeps rows) (Keeps rows) (fun _ => Steady rows)
      (AccountService.execute env.codec duplicate id command) world := by
  refine request_guards trivial steady ?_
  intro _ refused _ _ _ steady
  cases refused with
  | true => exact harmless_guards trivial steady
  | false =>
    apply (harmless_guards ((readAndDecide_uses id command).imp fun _ => reading_harmless) steady).andThen
    · exact fun _ _ steady => steady
    · intro decided _ steady
      have saves : (saveAccount (decided.1.replay decided.2) decided.2 : Program (Call Value) _).Uses (Harmless rows) :=
        ⟨trivial, fun _ => trivial⟩
      apply (harmless_guards saves steady).andThen
      · exact fun _ _ steady => steady
      · intro _ _ steady
        apply (updateProjections_guards keyed decided.2 steady).bind
        exact fun _ _ steady => harmless_guards trivial steady

private theorem operation_guards (keyed : ∀ id row, rows id = some row → row.id = id) (operation : Operation)
    (steady : Steady rows world) :
    Guards (serves env caller) (Keeps rows) (Keeps rows) (fun _ => Steady rows)
      (operation.program env.codec) world := by
  cases operation with
  | depositMoney accountId amount =>
    apply (execute_guards keyed _ accountId _ steady).andThen
    · exact fun _ _ steady => steady
    · exact fun _ _ steady => harmless_guards trivial steady
  | withdrawMoney accountId amount =>
    apply (execute_guards keyed _ accountId _ steady).andThen
    · exact fun _ _ steady => steady
    · exact fun _ _ steady => harmless_guards trivial steady
  | getAccount accountId =>
    refine request_guards trivial steady ?_
    intro _ reply _ _ _ steady
    cases reply with
    | error error => exact harmless_guards trivial steady
    | ok cached =>
      cases cached with
      | none => exact harmless_guards ⟨trivial, fun _ => trivial⟩ steady
      | some account => exact harmless_guards ⟨trivial, fun _ => ⟨trivial, fun _ => trivial⟩⟩ steady

/-- A lookup in the cache answers with the projection or with nothing. -/
theorem serves_lookup (reliable : ¬ env.fails) {before after : World ι Value} {id : Uuid}
    {reply : Except String (Option Account)} (served : serves env caller before (.cacheGetAccount id) reply after)
    (steady : Steady rows before) :
    ∃ cached, reply = .ok cached ∧ ∀ account, cached = some account →
      (rows id).map View.ofRow = some (.ofAccount account) := by
  obtain ⟨ready, passes, connection, connects, cache, looked, -⟩ := served
  obtain rfl : connection = .ok () := connects.resolve_right fun failed => reliable failed.1
  have answer : (ready.cache.getAccount ready.now (.ok ()) id).1 = reply := by rw [looked]
  obtain ⟨cached, found⟩ := getAccount_connected ready.cache ready.now id
  refine ⟨cached, answer.symm.trans found, ?_⟩
  intro account same
  subst same
  exact (passes_steady passes steady).copies id account (getAccount_servable found)

private theorem getAccount_guards (reliable : ¬ env.fails) (id : Uuid) (steady : Steady rows world) :
    Guards (serves env caller) (Keeps rows) (Keeps rows)
      (fun answer _ => answer.map (Option.map View.ofRow) = .ok ((rows id).map View.ofRow))
      (AccountService.getAccount id) world := by
  refine request_guards trivial steady ?_
  intro _ reply _ served held steady
  obtain ⟨cached, rfl, copied⟩ := serves_lookup reliable served held
  cases cached with
  | none =>
    refine request_guards trivial steady ?_
    intro _ reply _ served held steady
    cases reply with
    | error error => exact absurd (serves_answers served) reliable
    | ok found =>
      rw [← serves_projection served held]
      exact fun _ _ => rfl
  | some account =>
    rw [copied account rfl]
    refine request_guards trivial steady ?_
    intro _ createdAt _ _ _ steady
    refine request_guards trivial steady ?_
    exact fun _ updatedAt _ _ _ _ _ _ => rfl

end Threads

section Locks
variable {layout : CacheLayout} {world : World ι Value} {id : Uuid}
  {outcome : Option (Except AccountError (Option AccountProjection))}

/-- A call of the cache that does not return: without shards it panics, and with them it may
block on itself. -/
def Hangs (layout : CacheLayout) (world : World ι Value) {β : Type} : Call Value β → Prop
  | .cacheGetAccount accountId => world.cache.config.shardCount = 0 ∨
      Blocks [] (CacheLocks.getAccount layout world.now (.ok ()) accountId world.cache).trace
  | .cacheSetAccount account ttl => world.cache.config.shardCount = 0 ∨
      Blocks [] (CacheLocks.setAccount layout world.now (.ok ()) account ttl world.cache).trace
  | _ => False

def returning (layout : CacheLayout) (env : Environment Value) (caller : ι) : Serves (Call Value) (World ι Value) :=
  fun before op reply after => ∃ ready, Passes before ready ∧ ¬ Hangs layout ready op ∧ step env caller ready op reply after

/-- A `get_account` that is made in a world and hangs there, or returns an answer. -/
inductive Reads (layout : CacheLayout) (env : Environment Value) (caller : ι) (world : World ι Value) (id : Uuid) :
    Option (Except AccountError (Option AccountProjection)) → Prop where
  | hangs (hangs : Hangs layout world (.cacheGetAccount id : Call Value _)) : Reads layout env caller world id none
  | returns {resume : Except String (Option Account) → Program (Call Value) (Except AccountError (Option AccountProjection))}
      {reply : Except String (Option Account)} {answer : Except AccountError (Option AccountProjection)}
      {after last : World ι Value} (free : ¬ Hangs layout world (.cacheGetAccount id : Call Value _))
      (program : AccountService.getAccount id = .request (.cacheGetAccount id) resume)
      (looked : step env caller world (.cacheGetAccount id) reply after)
      (rest : Runs (serves env caller) after (resume reply) answer last) : Reads layout env caller world id (some answer)

/-- The memory holds no copy of the account that has expired, and room for it if it is only in Redis. -/
def Accessible (world : World ι Value) (id : Uuid) : Prop :=
  world.cache.config.shardCount ≠ 0 ∧ (∀ entry, world.cache.entry id = some entry → isExpired world.now entry = false) ∧
    (world.cache.entry id = none → (world.cache.fillOf world.now id).isSome → ¬ SelfBlocking.Full world.cache id)

private theorem accessible_iff : Accessible world id ↔ ¬ Hangs layout world (.cacheGetAccount id : Call Value _) := by
  change _ ↔ ¬ (_ ∨ Blocks [] _)
  rw [Accessible, SelfBlocking.getAccount_blocks_iff, not_or]
  refine and_congr_right' ?_
  cases world.cache.entry id with
  | none => simp
  | some entry => simp

/-- A `get_account` hangs or gets to its end. -/
theorem getAccount_reads (layout : CacheLayout) (env : Environment Value) (caller : ι) (world : World ι Value)
    (id : Uuid) :
    ∃ outcome, Reads layout env caller world id outcome := by
  by_cases hangs : Hangs layout world (.cacheGetAccount id : Call Value _)
  · exact ⟨none, .hangs hangs⟩
  · obtain ⟨cached, found⟩ := getAccount_connected world.cache world.now id
    have looked : step env caller world (.cacheGetAccount id) (.ok cached) _ :=
      ⟨.ok (), .inl rfl, _, Prod.ext found rfl, rfl⟩
    cases cached with
    | none => exact ⟨_, .returns hangs rfl looked (.request (.ok _) (serves_now ⟨.inl rfl, rfl⟩) .pure)⟩
    | some account =>
      let answer : Except AccountError (Option AccountProjection) :=
        .ok (some ⟨account.id, account.ownerName, account.balance, account.isActive, 0, 0⟩)
      have answered (now : World ι Value) : Runs (serves env caller) now (.pure answer) answer now := .pure
      exact ⟨some answer, .returns hangs rfl looked (.request 0 (serves_now rfl) (.request 0 (serves_now rfl) (answered _)))⟩

private theorem Reads.accessible {answer : Except AccountError (Option AccountProjection)}
    (read : Reads layout env caller world id (some answer)) : Accessible world id := by
  obtain _ | ⟨free, _, _, _⟩ := read
  exact accessible_iff.mpr free

end Locks

section Runs
variable [DecidableEq ι] {layout : CacheLayout} {operations : ι → Operation} {first middle ready : World ι Value}
  {history : List (Served ι (Call Value) (World ι Value))}
  {threads : ι → Program (Call Value) (Except AccountError (Option AccountProjection))} {id : Uuid}
  {outcome : Option (Except AccountError (Option AccountProjection))}

omit [DecidableEq ι] in
private theorem returning_serves {β : Type} {before after : World ι Value} {op : Call Value β} {reply : β}
    (served : returning layout env caller before op reply after) : serves env caller before op reply after := by
  obtain ⟨ready, passes, _, step⟩ := served
  exact ⟨ready, passes, step⟩

/-- Whatever deposits, withdrawals and reads came before, a `get_account` that returns answers with
the state the account had at the start. -/
theorem getAccount_unmoved {answer : Except AccountError (Option AccountProjection)} (reliable : ¬ env.fails)
    (mirrors : Mirrors env.codec first)
    (calls : Interleaves (returning layout env) (fun thread => (operations thread).program env.codec) first history
      threads middle)
    (passes : Passes middle ready) (read : Reads layout env caller ready id (some answer)) :
    answer.map (Option.map View.ofRow) = replayed env.codec first.events id := by
  have compatible (thread other : ι) (before after : World ι Value) (_ : thread ≠ other)
      (kept : Keeps first.accounts before after) : Keeps first.accounts before after := kept
  have served : Interleaves (serves env) (fun thread => (operations thread).program env.codec) first history threads
      middle := calls.mono fun _ _ _ _ _ _ returned => returning_serves returned
  obtain ⟨moves, -⟩ := Interleaves.guards compatible
    (fun thread => operation_guards mirrors.keyed (operations thread) mirrors.steady) served
  have steady : Steady first.accounts middle :=
    preserved_by_steps (fun _ _ ⟨_, kept⟩ _ => kept) moves mirrors.steady
  obtain _ | ⟨_, program, looked, rest⟩ := read
  have guards := @getAccount_guards _ _ env caller _ _ reliable id (passes_steady passes steady)
  rw [program] at guards
  obtain ⟨_, resumed⟩ := guards ready _ _ .refl (serves_now looked)
  rw [resumed.runs rest, mirrors.rows]

/-- `get_account` returns and shows the stored events exactly when it does not meet a lock of its
own and they replay as they did at the start. -/
theorem getAccount_replays_iff (reliable : ¬ env.fails) (mirrors : Mirrors env.codec first)
    (calls : Interleaves (returning layout env) (fun thread => (operations thread).program env.codec) first history
      threads middle)
    (passes : Passes middle ready) (read : Reads layout env caller ready id outcome) :
    (∃ answer, outcome = some answer ∧ answer.map (Option.map View.ofRow) = replayed env.codec middle.events id) ↔
      Accessible ready id ∧ replayed env.codec middle.events id = replayed env.codec first.events id := by
  cases outcome with
  | none =>
    obtain hangs | _ := read
    refine iff_of_false (by simp) fun accessible => ?_
    exact accessible_iff.mp accessible.1 hangs
  | some answer =>
    have unmoved := getAccount_unmoved reliable mirrors calls passes read
    simp only [Option.some.injEq, exists_eq_left', unmoved, read.accessible, true_and]
    exact eq_comm

end Runs

def opened : World Unit AccountEvent where
  events := [plainRow ⟨7⟩ 1 (.accountCreated ⟨7⟩ "Ann" 10)]
  accounts id := if id = ⟨7⟩ then some ⟨⟨7⟩, "Ann", 10, true, 0, 0⟩ else none

private theorem opened_mirrors : Mirrors .plain opened := by
  refine ⟨?_, ?_, ?_⟩
  · intro id row found
    simp only [opened, Option.ite_none_right_eq_some, Option.some.injEq] at found
    obtain ⟨rfl, rfl⟩ := found
    rfl
  · intro id
    by_cases same : id = ⟨7⟩
    · subst same
      rfl
    · have unknown : opened.events.rowsOf id = [] := List.filter_cons_of_neg fun owned => same (of_decide_eq_true owned).symm
      have missing : opened.accounts id = none := if_neg same
      rw [replayed, Table.getEvents, unknown, missing]
      rfl
  · intro id account copy
    cases copy with
    | memory member live => cases member
    | redis found live => cases found

private theorem returning_now {caller : Unit} {β : Type} {before after : World Unit AccountEvent}
    {op : Call AccountEvent β} {reply : β} (free : ¬ Hangs .single before op)
    (served : step .accepting caller before op reply after) : returning .single .accepting caller before op reply after :=
  ⟨before, .waits le_rfl, free, served⟩

private theorem set_free {world : World Unit AccountEvent} {account : Account} {ttl : Option Duration}
    (empty : world.cache = {}) : ¬ Hangs .single world (.cacheSetAccount account ttl : Call AccountEvent _) := by
  change ¬ (_ ∨ Blocks [] _)
  rw [SelfBlocking.setAccount_blocks_iff, empty]
  simp [SelfBlocking.Full]

private theorem opened_read {operation : Operation}
    {history : List (Served Unit (Call AccountEvent) (World Unit AccountEvent))}
    {threads : Unit → Program (Call AccountEvent) (Except AccountError (Option AccountProjection))}
    {middle : World Unit AccountEvent}
    (calls : Interleaves (returning .single .accepting) (fun _ => operation.program .plain) opened history threads middle)
    (accessible : Accessible middle ⟨7⟩) : ∃ answer, Reads .single .accepting () middle ⟨7⟩ (some answer) ∧
      answer.map (Option.map View.ofRow) = .ok (some ⟨"Ann", 10, true⟩) := by
  obtain ⟨_ | answer, read⟩ := getAccount_reads .single .accepting () middle ⟨7⟩
  · obtain hangs | _ := read
    exact absurd hangs (accessible_iff.mp accessible)
  · exact ⟨answer, read, getAccount_unmoved not_false opened_mirrors calls (.waits le_rfl) read⟩

theorem refused_withdrawal_read :
    ∃ (history : List (Served Unit (Call AccountEvent) (World Unit AccountEvent)))
      (threads : Unit → Program (Call AccountEvent) (Except AccountError (Option AccountProjection)))
      (middle : World Unit AccountEvent) (answer : Except AccountError (Option AccountProjection)),
      Interleaves (returning .single .accepting) (fun _ => (Operation.withdrawMoney ⟨7⟩ 20).program .plain) opened history
        threads middle ∧
      threads () = .pure (.error (.insufficientFunds 10 20)) ∧ Reads .single .accepting () middle ⟨7⟩ (some answer) ∧
      answer.map (Option.map View.ofRow) = replayed .plain middle.events ⟨7⟩ := by
  have begun : Interleaves (returning .single .accepting)
      (fun _ : Unit => (Operation.withdrawMoney ⟨7⟩ 20).program .plain) opened [] _ _ := .start
  have checked := begun.serve () false rfl (returning_now id ⟨rfl, rfl⟩)
  have found := checked.serve () (.ok _) rfl (returning_now id ⟨.inl rfl, rfl⟩)
  have refused := found.serve () (⟨1⟩ : Uuid) rfl (returning_now id ⟨by simp [opened], rfl⟩)
  obtain ⟨outcome, read⟩ := getAccount_reads .single .accepting () _ ⟨7⟩
  obtain ⟨answer, rfl, shown⟩ := (getAccount_replays_iff not_false opened_mirrors refused (.waits le_rfl) read).mpr
    ⟨⟨by decide, by simp [opened, entry], by simp [opened, fillOf, redisGet]⟩, rfl⟩
  exact ⟨_, _, _, answer, refused, rfl, read, shown⟩

/-- A deposit that was stored is not read back. -/
theorem deposit_not_read :
    ∃ (history : List (Served Unit (Call AccountEvent) (World Unit AccountEvent)))
      (threads : Unit → Program (Call AccountEvent) (Except AccountError (Option AccountProjection)))
      (middle : World Unit AccountEvent) (answer : Except AccountError (Option AccountProjection)),
      Mirrors .plain opened ∧
      Interleaves (returning .single .accepting) (fun _ => (Operation.depositMoney ⟨7⟩ 5).program .plain) opened history
        threads middle ∧
      threads () = .pure (.ok none) ∧ Reads .single .accepting () middle ⟨7⟩ (some answer) ∧
      answer.map (Option.map View.ofRow) = .ok (some ⟨"Ann", 10, true⟩) ∧
      replayed .plain middle.events ⟨7⟩ = .ok (some ⟨"Ann", 15, true⟩) := by
  have begun : Interleaves (returning .single .accepting)
      (fun _ : Unit => (Operation.depositMoney ⟨7⟩ 5).program .plain) opened [] _ _ := .start
  have checked := begun.serve () false rfl (returning_now id ⟨rfl, rfl⟩)
  have found := checked.serve () (.ok _) rfl (returning_now id ⟨.inl rfl, rfl⟩)
  have decided := found.serve () (⟨1⟩ : Uuid) rfl (returning_now id ⟨by simp [opened], rfl⟩)
  have rows : Holds Codec.plain ⟨7⟩ 2 [.moneyDeposited ⟨7⟩ 5 ⟨1⟩] [plainRow ⟨7⟩ 3 (.moneyDeposited ⟨7⟩ 5 ⟨1⟩)] := rfl
  have saved := decided.serve () (.ok ()) rfl (returning_now id (Saves.stored trivial rows))
  have drawn := saved.serve () (⟨2⟩ : Uuid) rfl (returning_now id ⟨by simp [opened], rfl⟩)
  have timed := drawn.serve () (0 : DateTime) rfl (returning_now id rfl)
  have recorded := timed.serve () (.ok ()) rfl (returning_now id (.inl ⟨rfl, rfl⟩))
  have projected := recorded.serve () (.ok _) rfl (returning_now id ⟨.inl rfl, rfl⟩)
  have cached := projected.serve () (.ok ()) rfl (returning_now (set_free rfl) ⟨.ok (), .inl rfl, _, rfl, rfl⟩)
  have total : (10 : Decimal) + 5 = 15 := by decide +kernel
  have stored : replayed .plain [plainRow ⟨7⟩ 1 (.accountCreated ⟨7⟩ "Ann" 10),
      plainRow ⟨7⟩ 3 (.moneyDeposited ⟨7⟩ 5 ⟨1⟩)] ⟨7⟩ = .ok (some ⟨"Ann", 15, true⟩) := by
    rw [← total]
    rfl
  obtain ⟨answer, read, shown⟩ := opened_read cached (by
    refine ⟨by decide, ?_, ?_⟩
    · intro entry found
      cases found
      rfl
    · intro absent
      cases absent)
  exact ⟨_, _, _, answer, opened_mirrors, cached, rfl, read, shown, stored⟩

end BankingEs.Proofs.ReadYourWrites
