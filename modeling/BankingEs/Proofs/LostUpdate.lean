import Mathlib.Data.List.Induction
import BankingEs.Application.Handlers
import BankingEs.Async.Interference
import BankingEs.MachineAccount
import BankingEs.Proofs.AccountLog

/-! Concurrent handlers over a store that locks optimistically. A thread decides on
a snapshot of a log; if its save is accepted, the log still is that snapshot. Amounts are
the decimals of the machine: a log whose sum overflows has no replay. -/

namespace BankingEs.Proofs.LostUpdate
open Async AccountCommandHandler AccountRepository Relation

/-- A call of one of the handlers of an existing account. -/
inductive Request (Amount : Type) where
  | depositMoney (accountId : Uuid) (amount : Amount)
  | withdrawMoney (accountId : Uuid) (amount : Amount)
  | closeAccount (accountId : Uuid) (reason : String)

variable {ι Value Amount : Type} [Money Amount] {codec : Codec Value Amount}

namespace Request

def accountId : Request Amount → Uuid
  | depositMoney accountId _ => accountId
  | withdrawMoney accountId _ => accountId
  | closeAccount accountId _ => accountId

def command : Request Amount → AccountCommand Amount
  | depositMoney accountId amount => .depositMoney accountId amount
  | withdrawMoney accountId amount => .withdrawMoney accountId amount
  | closeAccount accountId reason => .closeAccount accountId reason

def program (codec : Codec Value Amount) (request : Request Amount) :
    Program (HandlerCall Value Amount) (Option (Except AccountError (List (AccountEvent Amount)))) :=
  handleExisting? codec request.accountId request.command

end Request

/-- A store that commits a save at once, at the committed version only. Its answers do not depend
on whether it did. -/
def serves (codec : Codec Value Amount) : Serves (HandlerCall Value Amount) (Table Value)
  | _, before, .newV4, _, after => after = before
  | _, before, .getEvents id, reply, after =>
    (reply = .ok (before.getEvents id none) ∨ ∃ error, reply = .error error) ∧ after = before
  | _, before, .saveEvents id events version, _, after =>
    after = before ∨
      version = before.currentVersion id ∧ ∃ rows, Holds codec id version events rows ∧ after = before ++ rows

section Snapshots
variable {requests : ι → Request Amount} {before after table : Table Value} {id : Uuid}
  {log : List (AccountEvent Amount)}

/-- A request may append its event to a log if it is accepted in the state that the log replays to. -/
def Accepts (requests : ι → Request Amount) (id : Uuid) (log : List (AccountEvent Amount))
    (event : AccountEvent Amount) :
    Prop :=
  ∃ thread transactionId account, (requests thread).accountId = id ∧ (blank id).replay? log = some account ∧
    account.handleCommand (requests thread).command transactionId = .ok [event]

/-- All that happens to the events table: nothing, or one log grows by an event
that is accepted in the state the log replays to. -/
inductive Extends (codec : Codec Value Amount) (requests : ι → Request Amount) (before after : Table Value) : Prop where
  | same (events : after = before)
  | stored {id : Uuid} {log : List (AccountEvent Amount)} {event : AccountEvent Amount} {rows : Table Value}
      (logs : Logs codec before id log) (accepted : Accepts requests id log event)
      (holds : Holds codec id log.length [event] rows) (events : after = before ++ rows)

private theorem Extends.grows (step : Extends codec requests before after) (logs : Logs codec before id log) :
    Logs codec after id log ∨ ∃ event, Accepts requests id log event ∧ Logs codec after id (log ++ [event]) := by
  cases step with
  | same events => exact .inl (by rwa [events])
  | @stored owner old event rows current accepted holds events =>
    rw [events]
    by_cases mine : owner = id
    · subst mine
      obtain rfl := logs.unique current
      exact .inr ⟨event, accepted, logs.append holds⟩
    · exact .inl (logs.append_other holds mine)

private theorem Extends.tableGrows (step : Extends codec requests before after) : Table.Grows codec before after := by
  intro id log logs
  rcases step.grows logs with same | ⟨event, _, grown⟩
  · exact ⟨[], by rwa [List.append_nil]⟩
  · exact ⟨[event], grown⟩

/-- What a thread knows of the account it has read: it is the replay of a snapshot
that the log still extends. -/
def Snapshot (codec : Codec Value Amount) (id : Uuid) (account : Account Amount) (table : Table Value) : Prop :=
  ∃ log more, (blank id).replay? log = some account ∧ Logs codec table id (log ++ more)

private theorem snapshot_relied {account : Account Amount} (step : Extends codec requests before after)
    (snapshot : Snapshot codec id account before) : Snapshot codec id account after := by
  obtain ⟨log, more, replayed, logs⟩ := snapshot
  obtain ⟨rest, grown⟩ := step.tableGrows id _ logs
  exact ⟨log, more ++ rest, replayed, by rwa [← List.append_assoc]⟩

private theorem snapshot_read {account : Account Amount} {reply : Except EventStoreError (List (Event Value))}
    (logs : Logs codec table id log) (answer : reply = .ok (table.getEvents id none) ∨ ∃ error, reply = .error error)
    (found : rehydrate? codec id reply = some (.ok (some account))) : Snapshot codec id account table := by
  rcases answer with rfl | ⟨error, rfl⟩
  · have decoded := logs.getEvents
    rw [Lists] at decoded
    cases stored : table.getEvents id none with
    | nil =>
      rw [stored] at found
      cases found
    | cons row rows =>
      rw [stored] at decoded found
      rw [rehydrate?, Account.applyStored?_decoded _ decoded, Option.map_map] at found
      obtain ⟨replay, replayed, same⟩ := Option.map_eq_some_iff.mp found
      cases same
      exact ⟨log, [], replayed, by rwa [List.append_nil]⟩
  · cases found

/-- An accepted save appends to the very log that the thread decided on. -/
private theorem save_extends {thread : ι} {account : Account Amount} {events : List (AccountEvent Amount)}
    {transactionId : Uuid} {reply : Except EventStoreError Unit}
    (knows : Snapshot codec (requests thread).accountId account before)
    (decided : account.handleCommand (requests thread).command transactionId = .ok events)
    (served : serves codec before (.saveEvents account.id events account.version) reply after) :
    Extends codec requests before after := by
  rcases served with same | ⟨expected, rows, holds, table⟩
  · exact .same same
  · obtain ⟨log, more, replayed, logs⟩ := knows
    obtain ⟨own, version⟩ := Account.replay?_shape replayed
    have own : account.id = (requests thread).accountId := own
    have version : account.version = log.length := by simpa [blank, Account.default] using version
    rw [own, version] at holds
    rw [own, version, logs.currentVersion, List.length_append] at expected
    obtain rfl : more = [] := List.length_eq_zero_iff.mp (by omega)
    rw [List.append_nil] at logs
    obtain ⟨_, rfl⟩ := (Account.handleCommand_ok_iff _ _ _ _).mp decided
    exact .stored logs ⟨thread, transactionId, account, rfl, replayed, decided⟩ holds table

private theorem decideAndSave_guards (thread : ι) (found : Except AccountError (Option (Account Amount)))
    (knows : ∀ account, found = .ok (some account) → Snapshot codec (requests thread).accountId account table) :
    Guards (serves codec) (Extends codec requests) (Extends codec requests) (fun _ _ => True)
      (decideAndSave? (requests thread).command found) table := by
  cases found with
  | error error => exact fun _ _ => trivial
  | ok found =>
    cases found with
    | none => exact fun _ _ => trivial
    | some account =>
      intro before transactionId after moves unchanged
      obtain rfl : after = before := unchanged
      have knows := preserved_by_steps (fun _ _ step => snapshot_relied step) moves (knows account rfl)
      refine ⟨.same rfl, ?_⟩
      dsimp only [Program.bind]
      cases decided : account.handleCommand (requests thread).command transactionId with
      | error error => exact fun _ _ => trivial
      | ok events =>
        intro before reply after moves served
        have still := preserved_by_steps (fun _ _ step => snapshot_relied step) moves knows
        exact ⟨save_extends still decided served, fun _ _ => trivial⟩

private theorem handler_guards (thread : ι) (logged : Table.Logged codec table) :
    Guards (serves codec) (Extends codec requests) (Extends codec requests) (fun _ _ => True)
      ((requests thread).program codec) table := by
  intro before reply after moves served
  obtain ⟨answer, rfl⟩ := served
  obtain ⟨log, logs⟩ := preserved_by_steps (fun _ _ step kept => step.tableGrows.logged kept) moves logged
    (requests thread).accountId
  refine ⟨.same rfl, ?_⟩
  dsimp only [Program.bind]
  cases found : rehydrate? codec (requests thread).accountId reply with
  | none => exact fun _ _ => trivial
  | some result =>
    apply decideAndSave_guards thread result
    rintro account rfl
    exact snapshot_read logs answer found

/-- Every event of `added` is accepted in the state that what precedes it replays to. -/
def Serial (requests : ι → Request Amount) (id : Uuid) (initial added : List (AccountEvent Amount)) : Prop :=
  ∀ before event after, added = before ++ event :: after → Accepts requests id (initial ++ before) event

private theorem Serial.snoc {initial added : List (AccountEvent Amount)} {event : AccountEvent Amount}
    (serial : Serial requests id initial added) (accepted : Accepts requests id (initial ++ added) event) :
    Serial requests id initial (added ++ [event]) := by
  intro before other after split
  rcases List.eq_nil_or_concat after with rfl | ⟨rest, last, rfl⟩
  · obtain ⟨rfl, same⟩ := List.append_inj' split rfl
    cases same
    exact accepted
  · rw [List.concat_eq_append, ← List.cons_append, ← List.append_assoc] at split
    exact serial before other rest (List.append_inj' split rfl).1

def Grown (codec : Codec Value Amount) (requests : ι → Request Amount) (initial : Uuid → List (AccountEvent Amount))
    (table : Table Value) : Prop :=
  ∀ id, ∃ added, Logs codec table id (initial id ++ added) ∧ Serial requests id (initial id) added

private theorem extends_grown {initial : Uuid → List (AccountEvent Amount)} (step : Extends codec requests before after)
    (kept : Grown codec requests initial before) : Grown codec requests initial after := by
  intro id
  obtain ⟨added, now, serial⟩ := kept id
  rcases step.grows now with same | ⟨event, accepted, next⟩
  · exact ⟨added, same, serial⟩
  · exact ⟨added ++ [event], by rwa [← List.append_assoc], serial.snoc accepted⟩

private theorem run_grown [DecidableEq ι] {first last : Table Value} {initial : Uuid → List (AccountEvent Amount)}
    {history : List (Served ι (HandlerCall Value Amount) (Table Value))}
    {threads : ι → Program (HandlerCall Value Amount) (Option (Except AccountError (List (AccountEvent Amount))))}
    (logs : ∀ id, Logs codec first id (initial id))
    (run : Interleaves (fun _ => serves codec) (fun thread => (requests thread).program codec) first history threads
      last) : Grown codec requests initial last := by
  have logged : Table.Logged codec first := fun id => ⟨initial id, logs id⟩
  have compatible (thread other : ι) (before after : Table Value) (_ : thread ≠ other)
      (step : Extends codec requests before after) : Extends codec requests before after := step
  obtain ⟨moves, _⟩ := Interleaves.guards compatible (fun thread => handler_guards thread logged) run
  refine preserved_by_steps (fun _ _ ⟨_, step⟩ kept => extends_grown step kept) moves ?_
  intro id
  exact ⟨[], by rw [List.append_nil]; exact logs id, fun before event after split => by simp at split⟩

end Snapshots

section Overflow
variable {requests : ι → Request MachineDecimal} {id : Uuid} {initial added : List MachineEvent}

/-- The log has a replay, and it is not overdrawn. -/
def Solvent (id : Uuid) (log : List MachineEvent) : Prop :=
  ∃ account, (blank id).replay? log = some account ∧ 0 ≤ account.balance.value

/-- A deposit does not overflow: the new balance, rounded to an integer, has 96 bits. -/
def Fits (account : MachineAccount) : MachineEvent → Prop
  | .moneyDeposited _ amount _ => account.balance.value + amount.value < 2 ^ 96 - 1 / 2
  | _ => True

/-- Every event of `added` fits the state that what precedes it replays to. -/
def AllFit (id : Uuid) (initial added : List MachineEvent) : Prop :=
  ∀ before event after account, added = before ++ event :: after →
    (blank id).replay? (initial ++ before) = some account → Fits account event

private theorem changed_solvent_iff {account : MachineAccount} {event : MachineEvent} {result : Option MachineDecimal}
    (changes : account.change event = result.map fun balance => { account with balance }) :
    (∃ next, account.applyEvent? event = some next ∧ 0 ≤ next.balance.value) ↔
      ∃ balance, result = some balance ∧ 0 ≤ balance.value := by
  rw [Account.applyEvent?, changes]
  constructor
  · intro ⟨next, applied, solvent⟩
    obtain ⟨changed, computes, rfl⟩ := Option.map_eq_some_iff.mp applied
    obtain ⟨balance, computed, rfl⟩ := Option.map_eq_some_iff.mp computes
    exact ⟨balance, computed, solvent⟩
  · intro ⟨balance, computed, solvent⟩
    subst computed
    exact ⟨_, rfl, solvent⟩

/-- An accepted event can be applied unless it is a deposit that overflows. -/
private theorem accepted_solvent_iff {account : MachineAccount} {command : MachineCommand} {transactionId : Uuid}
    {event : MachineEvent} (accepted : account.handleCommand command transactionId = .ok [event])
    (solvent : 0 ≤ account.balance.value) :
    (∃ next, account.applyEvent? event = some next ∧ 0 ≤ next.balance.value) ↔ Fits account event := by
  have even : 2 ∣ 2 ^ 96 := by decide
  obtain ⟨allowed, same⟩ := (Account.handleCommand_ok_iff _ _ _ _).mp accepted
  obtain rfl := List.singleton_inj.mp same
  cases command with
  | createAccount accountId ownerName initialBalance => exact iff_of_true ⟨_, rfl, allowed⟩ trivial
  | closeAccount accountId reason => exact iff_of_true ⟨_, rfl, solvent⟩ trivial
  | depositMoney accountId amount =>
    have positive : 0 < amount.value := allowed.2
    have bound : ((2 ^ 96 : Nat) : ℚ) = 2 ^ 96 := by rw [Nat.cast_pow, Nat.cast_ofNat]
    refine (changed_solvent_iff rfl).trans ?_
    change _ ↔ account.balance.value + amount.value < 2 ^ 96 - 1 / 2
    rw [← bound]
    exact FixedDecimal.add_nonneg_iff even (add_nonneg solvent positive.le)
  | withdrawMoney accountId amount =>
    have positive : 0 < amount.value := allowed.2.1
    have covered : amount.value ≤ account.balance.value := allowed.2.2
    exact iff_of_true ((changed_solvent_iff rfl).mpr (FixedDecimal.sub_nonneg even positive.le covered)) trivial

private theorem Serial.solvent_iff (serial : Serial requests id initial added) (solvent : Solvent id initial) :
    (∀ before, before <+: added → Solvent id (initial ++ before)) ↔ AllFit id initial added := by
  constructor
  · intro all before event after account split replayed
    obtain ⟨_, transactionId, found, _, same, accepted⟩ := serial before event after split
    obtain rfl := Option.some.inj (replayed.symm.trans same)
    obtain ⟨_, earlier, covered⟩ := all before ⟨event :: after, split.symm⟩
    obtain rfl := Option.some.inj (replayed.symm.trans earlier)
    obtain ⟨next, later, kept⟩ := all (before ++ [event]) ⟨after, by rw [split, List.append_assoc]; rfl⟩
    rw [← List.append_assoc, Account.replay?_append, replayed, Option.bind_some, Account.replay?_cons] at later
    obtain ⟨last, applied, done⟩ := Option.bind_eq_some_iff.mp later
    cases done
    exact (accepted_solvent_iff accepted covered).mp ⟨_, applied, kept⟩
  · intro fits before
    induction before using List.reverseRecOn with
    | nil =>
      intro _
      rwa [List.append_nil]
    | append_singleton before event ih =>
      rintro ⟨after, split⟩
      rw [List.append_assoc] at split
      obtain ⟨account, replayed, covered⟩ := ih ⟨[event] ++ after, split⟩
      obtain ⟨_, transactionId, _, _, same, accepted⟩ := serial before event after split.symm
      obtain rfl := Option.some.inj (replayed.symm.trans same)
      obtain ⟨next, applied, kept⟩ :=
        (accepted_solvent_iff accepted covered).mpr (fits before event after account split.symm replayed)
      refine ⟨next, ?_, kept⟩
      rw [← List.append_assoc, Account.replay?_append, replayed, Option.bind_some, Account.replay?_cons, applied]
      rfl

/-- No lost update, and no overdraft unless a sum overflows. Whatever way the requests
interleave, each log grows by events that are accepted in the state the log replays to at that
point, and its prefixes from the initial log on all have a replay that is not overdrawn exactly
if no deposit among these events overflows. -/
theorem concurrent_handlers_serial [DecidableEq ι] {codec : Codec Value MachineDecimal} {first last : Table Value}
    {history : List (Served ι (HandlerCall Value MachineDecimal) (Table Value))}
    {threads : ι → Program (HandlerCall Value MachineDecimal) (Option (Except AccountError (List MachineEvent)))}
    {initial : Uuid → List MachineEvent} (logs : ∀ id, Logs codec first id (initial id))
    (solvent : ∀ id, Solvent id (initial id))
    (run : Interleaves (fun _ => serves codec) (fun thread => (requests thread).program codec) first history threads
      last) :
    ∀ id, ∃ added, Logs codec last id (initial id ++ added) ∧
      (∀ before event after, added = before ++ event :: after → ∃ thread transactionId account,
        (requests thread).accountId = id ∧ (blank id).replay? (initial id ++ before) = some account ∧
        account.handleCommand (requests thread).command transactionId = .ok [event]) ∧
      ((∀ log, initial id <+: log → log <+: initial id ++ added → Solvent id log) ↔ AllFit id (initial id) added) ∧
      ((∀ log, log <+: initial id → Solvent id log) →
        ((∀ log, log <+: initial id ++ added → Solvent id log) ↔ AllFit id (initial id) added)) := by
  intro id
  obtain ⟨added, now, serial⟩ := run_grown logs run id
  have fresh : (∀ log, initial id <+: log → log <+: initial id ++ added → Solvent id log) ↔
      AllFit id (initial id) added := by
    rw [← serial.solvent_iff (solvent id)]
    constructor
    · intro all before inside
      exact all _ (List.prefix_append _ _) ((List.prefix_append_right_inj _).mpr inside)
    · rintro all _ ⟨before, rfl⟩ inside
      exact all before ((List.prefix_append_right_inj _).mp inside)
  refine ⟨added, now, serial, fresh, fun old => ?_⟩
  rw [← fresh]
  constructor
  · exact fun all log _ inside => all log inside
  · intro all log inside
    rcases List.prefix_or_prefix_of_prefix inside (List.prefix_append (initial id) added) with early | late
    · exact old log early
    · exact all log late inside

end Overflow

section Sample

private def verbatim : Codec MachineEvent MachineDecimal := ⟨.ok, .ok, fun _ _ encoded => by cases encoded; rfl⟩

private def row (version : Int) (event : MachineEvent) : Event MachineEvent :=
  { id := ⟨0⟩, aggregateId := ⟨7⟩, eventType := event.eventType, eventData := event, version, timestamp := 0,
    metadata := .default }

private def created (balance : MachineDecimal) : MachineEvent := .accountCreated ⟨7⟩ "Ann" balance

private def opening (balance : MachineDecimal) (id : Uuid) :
    List MachineEvent := if id = ⟨7⟩ then [created balance] else []

private theorem opening_logs (balance : MachineDecimal) (id : Uuid) :
    Logs verbatim [row 1 (created balance)] id (opening balance id) := by
  by_cases mine : id = ⟨7⟩
  · subst mine
    rfl
  · have none : Table.rowsOf [row 1 (created balance)] id = [] := by
      apply rowsOf_apart
      intro stored member
      rw [List.mem_singleton.mp member]
      exact fun same => mine same.symm
    rw [opening, if_neg mine, Logs, Table.ordered, none]
    rfl

private theorem opening_solvent {balance : MachineDecimal} (sign : 0 ≤ balance.value) (id : Uuid) :
    Solvent id (opening balance id) := by
  by_cases mine : id = ⟨7⟩
  · rw [opening, if_pos mine]
    exact ⟨_, rfl, sign⟩
  · rw [opening, if_neg mine]
    exact ⟨_, rfl, show 0 ≤ MachineDecimal.zero.value by decide +kernel⟩

private def eight : MachineDecimal := .ofNat 8 (by decide)

private def ten : MachineDecimal := .ofNat 10 (by decide)

/-- Two withdrawals of eight from ten read the same balance; one of them is stored. -/
theorem one_of_two_withdrawals :
    ∃ (history : List (Served Bool (HandlerCall MachineEvent MachineDecimal) (Table MachineEvent)))
      (threads : Bool → Program (HandlerCall MachineEvent MachineDecimal)
        (Option (Except AccountError (List MachineEvent)))) (last : Table MachineEvent),
      Interleaves (fun _ => serves verbatim) (fun _ => (Request.withdrawMoney ⟨7⟩ eight).program verbatim)
        [row 1 (created ten)] history threads last ∧
      last.length = 2 ∧ ∃ added, Logs verbatim last ⟨7⟩ ([created ten] ++ added) := by
  have begun : Interleaves (fun _ : Bool => serves verbatim)
      (fun _ : Bool => (Request.withdrawMoney ⟨7⟩ eight).program verbatim) [row 1 (created ten)] [] _ _ := .start
  have read := begun.serve true (.ok [row 1 (created ten)]) rfl ⟨.inl rfl, rfl⟩
  have reread := read.serve false (.ok [row 1 (created ten)]) rfl ⟨.inl rfl, rfl⟩
  have drawn := reread.serve true (⟨1⟩ : Uuid) rfl rfl
  have redrawn := drawn.serve false (⟨2⟩ : Uuid) rfl rfl
  have rows : Holds verbatim ⟨7⟩ 1 [.moneyWithdrawn ⟨7⟩ eight ⟨1⟩] [row 2 (.moneyWithdrawn ⟨7⟩ eight ⟨1⟩)] := rfl
  have decided (transactionId : Uuid) : (⟨⟨7⟩, "Ann", ten, true, 1⟩ : MachineAccount).handleCommand
      (.withdrawMoney ⟨7⟩ eight) transactionId = .ok [.moneyWithdrawn ⟨7⟩ eight transactionId] :=
    (Account.handleCommand_ok_iff _ _ _ _).mpr ⟨⟨rfl, by decide +kernel, by decide +kernel⟩, rfl⟩
  have committed : serves verbatim [row 1 (created ten)]
      (.saveEvents ⟨7⟩ [.moneyWithdrawn ⟨7⟩ eight ⟨1⟩] 1) (.ok ()) _ := .inr ⟨rfl, _, rows, rfl⟩
  have saved := redrawn.serve true _ (congrArg (saveDecided? _) (decided ⟨1⟩)) committed
  have unchanged (table : Table MachineEvent) : serves verbatim table (.saveEvents ⟨7⟩ [.moneyWithdrawn ⟨7⟩ eight ⟨2⟩] 1)
      (.error (.internalError "")) table := .inl rfl
  have refused := saved.serve false _ (congrArg (saveDecided? _) (decided ⟨2⟩)) (unchanged _)
  obtain ⟨added, now, _⟩ := concurrent_handlers_serial (opening_logs ten) (opening_solvent (by decide +kernel)) refused ⟨7⟩
  exact ⟨_, _, _, refused, rfl, added, now⟩

/-- With the largest balance a deposit of 1 is accepted and stored, and then the log has no replay. -/
theorem deposit_not_replayed :
    ∃ (history : List (Served Unit (HandlerCall MachineEvent MachineDecimal) (Table MachineEvent)))
      (threads : Unit → Program (HandlerCall MachineEvent MachineDecimal)
        (Option (Except AccountError (List MachineEvent)))) (last : Table MachineEvent),
      Interleaves (fun _ => serves verbatim) (fun _ => (Request.depositMoney ⟨7⟩ .one).program verbatim)
        [row 1 (created .max)] history threads last ∧
      (∀ id, Logs verbatim [row 1 (created .max)] id (opening .max id) ∧ Solvent id (opening .max id)) ∧
      Logs verbatim last ⟨7⟩ [created .max, .moneyDeposited ⟨7⟩ .one ⟨1⟩] ∧
      (blank ⟨7⟩).replay? [created .max, .moneyDeposited ⟨7⟩ .one ⟨1⟩] = none := by
  have begun : Interleaves (fun _ : Unit => serves verbatim)
      (fun _ : Unit => (Request.depositMoney ⟨7⟩ .one).program verbatim) [row 1 (created .max)] [] _ _ := .start
  have read := begun.serve () (.ok [row 1 (created .max)]) rfl ⟨.inl rfl, rfl⟩
  have drawn := read.serve () (⟨1⟩ : Uuid) rfl rfl
  have rows : Holds verbatim ⟨7⟩ 1 [.moneyDeposited ⟨7⟩ .one ⟨1⟩] [row 2 (.moneyDeposited ⟨7⟩ .one ⟨1⟩)] := rfl
  have decided : (⟨⟨7⟩, "Ann", .max, true, 1⟩ : MachineAccount).handleCommand (.depositMoney ⟨7⟩ .one) ⟨1⟩ =
      .ok [.moneyDeposited ⟨7⟩ .one ⟨1⟩] :=
    (Account.handleCommand_ok_iff _ _ _ _).mpr ⟨⟨rfl, by decide +kernel⟩, rfl⟩
  have committed : serves verbatim [row 1 (created .max)]
      (.saveEvents ⟨7⟩ [.moneyDeposited ⟨7⟩ .one ⟨1⟩] 1) (.ok ()) _ := .inr ⟨rfl, _, rows, rfl⟩
  have saved := drawn.serve () _ (congrArg (saveDecided? _) decided) committed
  have solvent := opening_solvent (show 0 ≤ MachineDecimal.max.value by decide +kernel)
  exact ⟨_, _, _, saved, fun id => ⟨opening_logs .max id, solvent id⟩, rfl, by decide +kernel⟩

end Sample
end BankingEs.Proofs.LostUpdate
