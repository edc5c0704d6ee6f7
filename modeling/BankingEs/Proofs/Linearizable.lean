import BankingEs.Application.Handlers
import BankingEs.Application.Queries
import BankingEs.Async.Linearization
import BankingEs.Bank
import BankingEs.Proofs.AccountLog
import BankingEs.Proofs.Footprint

/-! The command and query handlers, called concurrently over a store that locks and reports
honestly, are a bank that executes one operation at a time. A read is executed where it reads
its events, an accepted command where its events are stored. -/

namespace BankingEs.Proofs.Linearizable
open Async Bank Relation World AccountRepository Footprint

variable {ι Value : Type} {codec : Codec Value} {fails lossy : Prop} {caller : ι}

/-- A success is reported for stored events only. A failure is reported for events that were
not stored, or for any if reports can be lost. -/
def Truthful (lossy : Prop) : {β : Type} → World ι Value → Call Value β → β → World ι Value → Prop
  | _, before, .saveEvents request, reply, after =>
    (reply = .ok () → after.saves = before.saves ++ [(request, true)]) ∧
      (¬ lossy → ∀ error, reply = .error error → after.saves = before.saves ++ [(request, false)])
  | _, _, _, _, _ => True

def honest (codec : Codec Value) (fails lossy : Prop) (caller : ι) : Serves (Call Value) (World ι Value) :=
  fun before op reply after => serves (locking codec fails) caller before op reply after ∧ Truthful lossy before op reply after

/-- The accounts as they can be read. -/
def bank (codec : Codec Value) (world : World ι Value) : Bank := fun id =>
  match rehydrate codec id (.ok (world.events.getEvents id none)) with
  | .ok found => found
  | .error _ => none

private theorem bank_known {world : World ι Value} {id : Uuid} {log : List AccountEvent}
    (logs : Logs codec world.events id log) : bank codec world id = known id log := by
  rw [bank, logs.rehydrate]

abbrev Logged (codec : Codec Value) (world : World ι Value) : Prop := Table.Logged codec world.events

abbrev Grows (codec : Codec Value) (before after : World ι Value) : Prop := Table.Grows codec before.events after.events

private theorem Grows.of_events {before after : World ι Value} (same : after.events = before.events) :
    Grows codec before after :=
  fun id log logs => ⟨[], by rwa [List.append_nil, same]⟩

private theorem bank_of_events {before after : World ι Value} (same : after.events = before.events) :
    bank codec after = bank codec before := by
  funext id
  rw [bank, bank, same]

private theorem Grows.all {first last : World ι Value} (moves : ReflTransGen (Grows codec) first last) :
    Grows codec first last := by
  induction moves with
  | refl => exact .of_events rfl
  | tail _ step ih => exact ih.trans step

/-- The operation that a handler is to execute. -/
abbrev Executing {α : Type} (codec : Codec Value) (fails lossy : Prop) (caller : ι)
    (atomic : Bank → Except AccountError α → Bank → Prop) (program : Program (Call Value) (Except AccountError α))
    (world : World ι Value) : Prop :=
  Commits (honest codec fails lossy caller) (Grows codec) (Grows codec) (bank codec) atomic program world

section Calls
variable {α β : Type} {before after : World ι Value}

private theorem quiet {op : Call Value β} {reply : β} (other : isSave op = false)
    (served : honest codec fails lossy caller before op reply after) :
    Grows codec before after ∧ bank codec after = bank codec before := by
  have same := (serves_unsaved other served.1).events
  exact ⟨.of_events same, bank_of_events same⟩

/-- What a read returns: the account as it is, or an infrastructure error. -/
theorem read_cases {id : Uuid} {reply : Except EventStoreError (List (Event Value))} (logged : Logged codec before)
    (served : honest codec fails lossy caller before (.getEvents id none) reply after) :
    (∃ message, rehydrate codec id reply = .error (.infrastructureError message)) ∨
      rehydrate codec id reply = .ok (bank codec before id) := by
  cases reply with
  | error error => exact .inl ⟨_, rfl⟩
  | ok stored =>
    obtain ⟨log, logs⟩ := logged id
    refine .inr ?_
    rw [bank_known logs, serves_getEvents served.1, logs.rehydrate]

/-- What a save does to the bank: nothing, or the events are appended to the log they were
decided on. -/
theorem save_cases {id : Uuid} {account : Account} {events log more : List AccountEvent}
    {reply : Except EventStoreError Unit} (logged : Logged codec before) (own : account.id = id)
    (version : account.version = log.length) (logs : Logs codec before.events id (log ++ more))
    (served : honest codec fails lossy caller before (.saveEvents ⟨account.id, events, account.version⟩) reply after) :
    (Grows codec before after ∧ bank codec after = bank codec before ∧ ∃ error, reply = .error error) ∨
    (Grows codec before after ∧ more = [] ∧
      bank codec after = Function.update (bank codec before) id (known id (log ++ events)) ∧
      (reply = .ok () ∨ lossy ∧ ∃ error, reply = .error error)) := by
  subst own
  obtain ⟨served, reported, unreported⟩ := served
  obtain ⟨_, rows, stored, table, saves, accepted, refused⟩ := serves_save served
  have outcome (reply : Except EventStoreError Unit) : reply = .ok () ∨ ∃ error, reply = .error error := by
    cases reply with
    | ok => exact .inl rfl
    | error error => exact .inr ⟨error, rfl⟩
  cases stored with
  | false =>
    rw [refused rfl, List.append_nil] at table
    refine .inl ⟨.of_events table, bank_of_events table, (outcome reply).resolve_left ?_⟩
    intro success
    have claims := (reported success).symm.trans saves
    simp at claims
  | true =>
    obtain ⟨expected, holds⟩ := accepted rfl
    simp only [locking] at expected holds
    rw [logs.currentVersion, version, List.length_append] at expected
    obtain rfl : more = [] := List.length_eq_zero_iff.mp (by omega)
    rw [List.append_nil] at logs
    rw [version] at holds
    have appended : Logs codec after.events account.id (log ++ events) := by
      rw [table]
      exact logs.append holds
    have others {other : Uuid} (apart : other ≠ account.id) {old : List AccountEvent}
        (kept : Logs codec before.events other old) : Logs codec after.events other old := by
      rw [table]
      exact kept.append_other holds (Ne.symm apart)
    refine .inr ⟨?_, rfl, ?_, ?_⟩
    · intro other old kept
      by_cases mine : other = account.id
      · subst mine
        obtain rfl := kept.unique logs
        exact ⟨events, appended⟩
      · exact ⟨[], by rw [List.append_nil]; exact others mine kept⟩
    · funext other
      by_cases mine : other = account.id
      · subst mine
        rw [Function.update_self, bank_known appended]
      · obtain ⟨old, kept⟩ := logged other
        rw [Function.update_of_ne mine, bank_known kept, bank_known (others mine kept)]
    · rcases outcome reply with success | failure
      · exact .inl success
      · refine .inr ⟨?_, failure⟩
        by_contra sure
        obtain ⟨error, failed⟩ := failure
        have claims := (unreported sure error failed).symm.trans saves
        simp at claims

end Calls

section Handlers
variable {world : World ι Value}

def afterDecision (account : Account) :
    Except AccountError (List AccountEvent) → Program (Call Value) (Except AccountError (List AccountEvent))
  | .error error => .pure (.error error)
  | .ok events => (saveAccount account events).andThen fun _ => .pure (.ok events)

def afterRead (command : AccountCommand) :
    Except AccountError (Option Account) → Program (Call Value) (Except AccountError (List AccountEvent))
  | .error error => .pure (.error error)
  | .ok none => .pure (.error .notFound)
  | .ok (some account) => .request .newV4 fun transactionId =>
    afterDecision account (account.handleCommand command transactionId)

private theorem handleExisting_eq (id : Uuid) (command : AccountCommand) :
    AccountCommandHandler.handleExisting codec id command =
      .request (.getEvents id none) fun stored => afterRead command (rehydrate codec id stored) := by
  refine congrArg (Program.request _) (funext fun stored => ?_)
  change Program.andThen (Program.andThen (.pure (rehydrate codec id stored)) _) _ = _
  cases rehydrate codec id stored with
  | error error => rfl
  | ok found =>
    cases found with
    | none => rfl
    | some account =>
      refine congrArg (Program.request _) (funext fun transactionId => ?_)
      change Program.andThen (Program.andThen (.pure (account.handleCommand command transactionId)) _) _ = _
      cases account.handleCommand command transactionId with
      | error error => rfl
      | ok events => rfl

abbrev Changes (lossy : Prop) (id : Uuid) (change : Change) (before : Bank)
    (result : Except AccountError (List AccountEvent)) (after : Bank) : Prop :=
  Attempts lossy (.change id change) before (result.map .changed) after

/-- The save executes the change, or fails without having done so. -/
theorem saving_commits {id transactionId : Uuid} {change : Change} {account next : Account}
    {log more : List AccountEvent}
    (logged : Logged codec world) (replayed : known id log = some account)
    (logs : Logs codec world.events id (log ++ more)) (applied : change.apply account = .ok next) :
    Executing codec fails lossy caller (Changes lossy id change)
      ((saveAccount account [(change.command id).event transactionId]).andThen fun _ =>
        .pure (.ok [(change.command id).event transactionId])) world := by
  intro before reply after moves served
  have grows := Grows.all moves
  obtain ⟨rest, logs⟩ := grows id _ logs
  rw [List.append_assoc] at logs
  have filled : log ≠ [] := by
    rintro rfl
    cases replayed
  have replay : account = (blank id).replay log := by
    rw [known, if_neg filled] at replayed
    exact (Option.some.inj replayed).symm
  have own : account.id = id := by
    rw [replay, Account.replay_id]
    rfl
  have version : account.version = log.length := by
    rw [replay, Account.replay_version]
    exact Int.zero_add _
  rcases save_cases (grows.logged logged) own version logs served with
    ⟨step, same, error, rfl⟩ | ⟨step, current, updated, outcome⟩
  · refine ⟨step, .inr ⟨_, ?_, rfl⟩⟩
    rw [same]
    exact .fails _
  · have found : bank codec before id = some account := by
      rw [current, List.append_nil] at logs
      rw [bank_known logs, replayed]
    have reached : known id (log ++ [(change.command id).event transactionId]) = some next := by
      rw [known, if_neg (by simp), Account.replay_append, ← replay, (change.handleCommand_apply account id _).2 _ applied]
    rw [reached] at updated
    have executes : Executes (bank codec before) (.change id change)
        (.ok (.changed [(change.command id).event transactionId])) (bank codec after) := by
      rw [updated]
      exact .changed found applied
    rcases outcome with rfl | ⟨lost, error, rfl⟩
    · exact ⟨step, .inr ⟨.ok _, .executes executes, rfl⟩⟩
    · exact ⟨step, .inr ⟨.error (.infrastructureError _), .unreported lost executes _, rfl⟩⟩

/-- A refused change is executed by the read. -/
theorem handleExisting_commits (id : Uuid) (change : Change) (logged : Logged codec world) :
    Executing codec fails lossy caller (Changes lossy id change)
      (AccountCommandHandler.handleExisting codec id (change.command id)) world := by
  rw [handleExisting_eq]
  intro before reply after moves served
  obtain ⟨step, same⟩ := quiet rfl served
  have logged := (Grows.all moves).logged logged
  dsimp only
  rcases read_cases logged served with ⟨message, failed⟩ | read
  · rw [failed]
    refine ⟨step, .inr ⟨.error (.infrastructureError message), ?_, rfl⟩⟩
    rw [same]
    exact .fails message
  · rw [read]
    cases found : bank codec before id with
    | none =>
      refine ⟨step, .inr ⟨.error .notFound, ?_, rfl⟩⟩
      rw [same]
      exact .executes (.absent found)
    | some account =>
      cases applied : change.apply account with
      | error error =>
        refine ⟨step, .inr ⟨.error error, ?_, ?_⟩⟩
        · rw [same]
          exact .executes (.refused found applied)
        · intro before transactionId after moves served
          obtain ⟨step, same⟩ := quiet rfl served
          refine ⟨step, same, ?_⟩
          dsimp only
          rw [(change.handleCommand_apply account id transactionId).1, applied]
          rfl
      | ok next =>
        refine ⟨step, .inl ⟨same, ?_⟩⟩
        intro before' transactionId after' moves served
        obtain ⟨quietly, still⟩ := quiet rfl served
        refine ⟨quietly, .inl ⟨still, ?_⟩⟩
        obtain ⟨log, logs⟩ := logged id
        have replayed : known id log = some account := by rw [← bank_known logs, found]
        obtain ⟨more, logs⟩ := Grows.all ((ReflTransGen.head step moves).tail quietly) id log logs
        have logged := (Grows.all ((ReflTransGen.head step moves).tail quietly)).logged logged
        dsimp only
        rw [(change.handleCommand_apply account id transactionId).1, applied]
        exact saving_commits logged replayed logs applied

abbrev Opens (lossy : Prop) (ownerName : String) (initialBalance : Decimal) (before : Bank)
    (result : Except AccountError Uuid) (after : Bank) : Prop :=
  Attempts lossy (.createAccount ownerName initialBalance) before (result.map .created) after

/-- The account under which the first event is saved. -/
def unsaved (accountId : Uuid) : Account :=
  { id := accountId, ownerName := "", balance := 0, isActive := false, version := 0 }

def afterOpening (accountId : Uuid) :
    Except AccountError (List AccountEvent) → Program (Call Value) (Except AccountError Uuid)
  | .error error => .pure (.error error)
  | .ok events => (saveAccount (unsaved accountId) events).andThen fun _ => .pure (.ok accountId)

private theorem handleCreateAccount_eq (ownerName : String) (initialBalance : Decimal) :
    (AccountCommandHandler.handleCreateAccount ownerName initialBalance : Program (Call Value) _) =
      .request .newV4 fun accountId => .request .newV4 fun unused => .request .newV4 fun transactionId =>
        afterOpening accountId
          ((Account.default unused).handleCommand (.createAccount accountId ownerName initialBalance) transactionId) := by
  refine congrArg (Program.request _) (funext fun accountId => ?_)
  refine congrArg (Program.request _) (funext fun unused => ?_)
  refine congrArg (Program.request _) (funext fun transactionId => ?_)
  change Program.andThen (.pure ((Account.default unused).handleCommand _ transactionId)) _ = _
  cases (Account.default unused).handleCommand (.createAccount accountId ownerName initialBalance) transactionId with
  | error error => rfl
  | ok events => rfl

/-- The first event is stored under an id that no account has. -/
theorem opening_commits {accountId : Uuid} {ownerName : String} {initialBalance : Decimal} (logged : Logged codec world)
    (valid : 0 ≤ initialBalance) :
    Executing codec fails lossy caller (Opens lossy ownerName initialBalance)
      ((saveAccount (unsaved accountId) [.accountCreated accountId ownerName initialBalance]).andThen fun _ =>
        .pure (.ok accountId)) world := by
  intro before reply after moves served
  have logged := (Grows.all moves).logged logged
  obtain ⟨log, logs⟩ := logged accountId
  have version : (unsaved accountId).version = ([] : List AccountEvent).length := rfl
  rcases save_cases logged rfl version logs served with
    ⟨step, same, error, rfl⟩ | ⟨step, empty, updated, outcome⟩
  · refine ⟨step, .inr ⟨.error (.infrastructureError error.display), ?_, rfl⟩⟩
    rw [same]
    exact .fails _
  · have fresh : bank codec before accountId = none := by
      rw [bank_known logs, empty]
      rfl
    have executes : Executes (bank codec before) (.createAccount ownerName initialBalance) (.ok (.created accountId))
        (bank codec after) := by
      rw [updated]
      exact .created fresh valid
    rcases outcome with rfl | ⟨lost, error, rfl⟩
    · exact ⟨step, .inr ⟨.ok accountId, .executes executes, rfl⟩⟩
    · exact ⟨step, .inr ⟨.error (.infrastructureError error.display), .unreported lost executes _, rfl⟩⟩

private theorem handleCreateAccount_commits (ownerName : String) (initialBalance : Decimal)
    (logged : Logged codec world) :
    Executing codec fails lossy caller (Opens lossy ownerName initialBalance)
      (AccountCommandHandler.handleCreateAccount ownerName initialBalance) world := by
  rw [handleCreateAccount_eq]
  intro first accountId drawn moves served
  obtain ⟨step, same⟩ := quiet rfl served
  have logged := (Grows.all (moves.tail step)).logged logged
  refine ⟨step, .inl ⟨same, ?_⟩⟩
  intro second unused redrawn moves served
  obtain ⟨step, same⟩ := quiet rfl served
  have logged := (Grows.all (moves.tail step)).logged logged
  refine ⟨step, .inl ⟨same, ?_⟩⟩
  intro third transactionId decided moves served
  obtain ⟨step, same⟩ := quiet rfl served
  have logged := (Grows.all (moves.tail step)).logged logged
  refine ⟨step, ?_⟩
  rcases lt_or_ge initialBalance 0 with negative | valid
  · refine .inr ⟨.error (.invalidAmount initialBalance), ?_, ?_⟩
    · rw [same]
      exact .executes (.negative negative)
    · simp [Account.handleCommand, negative, afterOpening, Settles]
  · refine .inl ⟨same, ?_⟩
    have accepted : (Account.default unused).handleCommand (.createAccount accountId ownerName initialBalance)
        transactionId = .ok [.accountCreated accountId ownerName initialBalance] :=
      (Account.handleCommand_ok_iff _ _ _ _).mpr ⟨valid, rfl⟩
    dsimp only
    rw [accepted]
    exact opening_commits logged valid

def afterQuery {α : Type} (field : Account → α) :
    Except AccountError (Option Account) → Program (Call Value) (Except AccountError α)
  | .error error => .pure (.error error)
  | .ok none => .pure (.error .notFound)
  | .ok (some account) => .pure (.ok (field account))

private theorem readField_eq {α : Type} (id : Uuid) (field : Account → α) :
    AccountQueryHandler.readField codec id field =
      .request (.getEvents id none) fun stored => afterQuery field (rehydrate codec id stored) := by
  refine congrArg (Program.request _) (funext fun stored => ?_)
  change Program.andThen (.pure (rehydrate codec id stored)) _ = _
  cases rehydrate codec id stored with
  | error error => rfl
  | ok found =>
    cases found with
    | none => rfl
    | some account => rfl

/-- A query is executed by its read. -/
theorem readField_commits {α : Type} (operation : Operation) (id : Uuid) (field : Account → α) (answer : α → Answer)
    (found : ∀ before account, before id = some account →
      Executes before operation (.ok (answer (field account))) before)
    (absent : ∀ before, before id = none → Executes before operation (.error .notFound) before)
    (logged : Logged codec world) :
    Executing codec fails lossy caller
      (fun before result after => Attempts lossy operation before (result.map answer) after)
      (AccountQueryHandler.readField codec id field) world := by
  rw [readField_eq]
  intro before reply after moves served
  obtain ⟨step, same⟩ := quiet rfl served
  refine ⟨step, .inr ?_⟩
  rw [same]
  dsimp only
  rcases read_cases ((Grows.all moves).logged logged) served with ⟨message, failed⟩ | read
  · rw [failed]
    exact ⟨.error (.infrastructureError message), .fails message, rfl⟩
  · rw [read]
    cases reads : bank codec before id with
    | none => exact ⟨.error .notFound, .executes (absent _ reads), rfl⟩
    | some account => exact ⟨.ok (field account), .executes (found _ account reads), rfl⟩

private theorem getAccountById_commits (id : Uuid) (logged : Logged codec world) :
    Executing codec fails lossy caller
      (fun before result after => Attempts lossy (.getAccountById id) before (result.map .account) after)
      (AccountQueryHandler.getAccountById codec id) world := by
  intro before reply after moves served
  obtain ⟨step, same⟩ := quiet rfl served
  refine ⟨step, .inr ⟨rehydrate codec id reply, ?_, rfl⟩⟩
  rw [same]
  rcases read_cases ((Grows.all moves).logged logged) served with ⟨message, failed⟩ | read
  · rw [failed]
    exact .fails message
  · rw [read]
    exact .executes .account

end Handlers

/-- The handler that is called for an operation, with its result as an answer of the bank. -/
def program (codec : Codec Value) : Operation → Program (Call Value) (Except AccountError Answer)
  | .createAccount ownerName initialBalance => do
    return (← AccountCommandHandler.handleCreateAccount ownerName initialBalance).map .created
  | .change accountId (.depositMoney amount) => do
    return (← AccountCommandHandler.handleDepositMoney codec accountId amount).map .changed
  | .change accountId (.withdrawMoney amount) => do
    return (← AccountCommandHandler.handleWithdrawMoney codec accountId amount).map .changed
  | .change accountId (.closeAccount reason) => do
    return (← AccountCommandHandler.handleCloseAccount codec accountId reason).map .changed
  | .getAccountById accountId => do return (← AccountQueryHandler.getAccountById codec accountId).map .account
  | .getAccountBalance accountId => do return (← AccountQueryHandler.getAccountBalance codec accountId).map .balance
  | .isAccountActive accountId => do return (← AccountQueryHandler.isAccountActive codec accountId).map .active

theorem program_commits (operation : Operation) {world : World ι Value} (logged : Logged codec world) :
    Executing codec fails lossy caller (Attempts lossy operation) (program codec operation) world := by
  cases operation with
  | createAccount ownerName initialBalance =>
    exact (handleCreateAccount_commits ownerName initialBalance logged).map _ fun _ _ _ attempts => attempts
  | change accountId change =>
    have commits : Executing codec fails lossy caller (Changes lossy accountId change) _ world :=
      handleExisting_commits accountId change logged
    cases change with
    | depositMoney amount => exact commits.map _ fun _ _ _ attempts => attempts
    | withdrawMoney amount => exact commits.map _ fun _ _ _ attempts => attempts
    | closeAccount reason => exact commits.map _ fun _ _ _ attempts => attempts
  | getAccountById accountId => exact (getAccountById_commits accountId logged).map _ fun _ _ _ attempts => attempts
  | getAccountBalance accountId =>
    have commits : Executing codec fails lossy caller _ _ world := readField_commits (.getAccountBalance accountId)
      accountId Account.balance .balance (fun _ _ => .balance) (fun _ => .noBalance) logged
    exact commits.map _ fun _ _ _ attempts => attempts
  | isAccountActive accountId =>
    have commits : Executing codec fails lossy caller _ _ world := readField_commits (.isAccountActive accountId)
      accountId Account.isActive .active (fun _ _ => .active) (fun _ => .noActive) logged
    exact commits.map _ fun _ _ _ attempts => attempts

/-- The handlers are linearizable. Every run of any number of concurrent calls is explained by
one point per call, among the calls that it makes itself: executed in this order, at once and
one after another, the operations lead the bank from its first state to its last, and every
call that has returned returned what its operation did. -/
theorem handlers_linearizable [DecidableEq ι] {operations : ι → Operation} {first last : World ι Value}
    {history : List (Served ι (Call Value) (World ι Value))}
    {threads : ι → Program (Call Value) (Except AccountError Answer)} (logged : Logged codec first)
    (run : Interleaves (honest codec fails lossy) (fun thread => program codec (operations thread)) first history
      threads last) :
    ∃ points, Explained (bank codec) (fun thread => Attempts lossy (operations thread)) first history points last ∧
      Sequential (fun thread => Attempts lossy (operations thread)) (bank codec first) points (bank codec last) ∧
      (points.map Prod.fst).Nodup ∧ ∀ thread answer, threads thread = .pure answer → (thread, answer) ∈ points := by
  have compatible (thread other : ι) (before after : World ι Value) (_ : thread ≠ other)
      (grows : Grows codec before after) : Grows codec before after := grows
  obtain ⟨points, explained, once, returned⟩ :=
    Interleaves.linearizes compatible (fun thread => program_commits (operations thread) logged) run
  exact ⟨points, explained, explained.sequential, once, returned⟩

private def openingAndQuery : Bool → Operation
  | true => .createAccount "Ann" 10
  | false => .getAccountBalance ⟨7⟩

/-- An account is opened, and its balance is asked for while it is: the query finds it. -/
theorem opening_before_query :
    ∃ (history : List (Served Bool (Call AccountEvent) (World Bool AccountEvent)))
      (threads : Bool → Program (Call AccountEvent) (Except AccountError Answer)) (last : World Bool AccountEvent)
      (points : List (Bool × Except AccountError Answer)),
      Interleaves (honest .plain False False) (fun thread => program .plain (openingAndQuery thread)) {} history
        threads last ∧
      Sequential (fun thread => Attempts False (openingAndQuery thread)) (bank .plain ({} : World Bool AccountEvent))
        points (bank .plain last) ∧
      (true, .ok (.created ⟨7⟩)) ∈ points ∧ (false, .ok (.balance 10)) ∈ points := by
  have begun : Interleaves (honest .plain False False) (fun thread => program .plain (openingAndQuery thread))
      ({} : World Bool AccountEvent) [] _ _ := .start
  have drawn := begun.serve true (⟨7⟩ : Uuid) rfl ⟨serves_now ⟨by simp, rfl⟩, trivial⟩
  have unused := drawn.serve true (⟨8⟩ : Uuid) rfl ⟨serves_now ⟨by simp, rfl⟩, trivial⟩
  have decided := unused.serve true (⟨9⟩ : Uuid) rfl ⟨serves_now ⟨by simp, rfl⟩, trivial⟩
  have rows : Holds Codec.plain ⟨7⟩ 0 [.accountCreated ⟨7⟩ "Ann" 10] [plainRow ⟨7⟩ 1 (.accountCreated ⟨7⟩ "Ann" 10)] := rfl
  have saved := decided.serve true (.ok ()) rfl ⟨serves_now (Saves.stored rfl rows), fun _ => rfl, fun _ _ failed => by cases failed⟩
  have read := saved.serve false (.ok [plainRow ⟨7⟩ 1 (.accountCreated ⟨7⟩ "Ann" 10)]) rfl
    ⟨serves_now ⟨.inl rfl, rfl⟩, trivial⟩
  have logged : Logged Codec.plain ({} : World Bool AccountEvent) := fun id => ⟨[], rfl⟩
  obtain ⟨points, _, sequential, _, returned⟩ := handlers_linearizable logged read
  exact ⟨_, _, _, points, read, sequential, returned true _ rfl, returned false _ rfl⟩

end BankingEs.Proofs.Linearizable
