import BankingEs.Application.Handlers
import BankingEs.Application.Services
import BankingEs.Application.Stack
import BankingEs.Proofs.Footprint
import BankingEs.Proofs.InertStore

/-! The application on an empty events table. No save is ever stored, so no account is ever
found and no command succeeds, however the calls of both front ends interleave. -/

namespace BankingEs.Proofs.EmptyBank
open Async Relation Stack AccountRepository InertStore

variable {ι Value : Type} {env : Environment Value} {config : EventStoreConfig} {caller : ι}
  {before after stack : Stack ι Value}

inductive Command where
  | createAccount (ownerName : String) (initialBalance : Decimal)
  | depositMoney (accountId : Uuid) (amount : Decimal)
  | withdrawMoney (accountId : Uuid) (amount : Decimal)
  | handleCreateAccount (ownerName : String) (initialBalance : Decimal)
  | handleDepositMoney (accountId : Uuid) (amount : Decimal)
  | handleWithdrawMoney (accountId : Uuid) (amount : Decimal)
  | handleCloseAccount (accountId : Uuid) (reason : String)

def discard {α : Type} (program : Program (Call Value) (Except AccountError α)) :
    Program (Call Value) (Except AccountError Unit) :=
  program.andThen fun _ => .pure (.ok ())

def Command.program (codec : Codec Value) : Command → Program (Call Value) (Except AccountError Unit)
  | createAccount ownerName initialBalance => discard (AccountService.createAccount ownerName initialBalance)
  | depositMoney accountId amount => AccountService.depositMoney codec accountId amount
  | withdrawMoney accountId amount => AccountService.withdrawMoney codec accountId amount
  | handleCreateAccount ownerName initialBalance =>
    discard (AccountCommandHandler.handleCreateAccount ownerName initialBalance)
  | handleDepositMoney accountId amount => discard (AccountCommandHandler.handleDepositMoney codec accountId amount)
  | handleWithdrawMoney accountId amount => discard (AccountCommandHandler.handleWithdrawMoney codec accountId amount)
  | handleCloseAccount accountId reason => discard (AccountCommandHandler.handleCloseAccount codec accountId reason)

/-- The projections that a run started with. -/
structure Projections where
  accounts : Uuid → Option AccountProjection
  transactions : List TransactionProjection

/-- Nothing is stored or about to be, and the projections are as they were. -/
structure Barren (projections : Projections) (stack : Stack ι Value) : Prop where
  inert : Inert [] stack.path
  accounts : stack.world.accounts = projections.accounts
  transactions : stack.world.transactions = projections.transactions

variable {projections : Projections}

/-- The calls that a command can get to while nothing is stored. -/
def isFutile {β : Type} : Call Value β → Bool
  | .newV4 => true
  | .isDuplicateCommand _ => true
  | .getEvents .. => true
  | _ => false

private theorem moves_barren {path : WritePath Value} (barren : Inert [] path) {later : WritePath Value}
    (moves : ReflTransGen (WritePath.Moves config) path later) : Inert [] later :=
  preserved_by_steps (fun _ _ moves => moves_inert moves) moves barren

private theorem passes_projections {world later : World ι Value} (passes : World.Passes world later) :
    later.accounts = world.accounts ∧ later.transactions = world.transactions := by
  cases passes with
  | waits => exact ⟨rfl, rfl⟩
  | cleans => exact ⟨rfl, rfl⟩

private theorem world_futile {β : Type} {op : Call Value β} {reply : β} {world later : World ι Value}
    (futile : isFutile op = true) (served : World.serves env caller world op reply later) :
    later.accounts = world.accounts ∧ later.transactions = world.transactions := by
  obtain ⟨ready, passes, step⟩ := served
  obtain ⟨accounts, transactions⟩ := passes_projections passes
  rw [← accounts, ← transactions]
  cases op with
  | newV4 =>
    obtain ⟨_, rfl⟩ := step
    exact ⟨rfl, rfl⟩
  | isDuplicateCommand =>
    obtain ⟨_, rfl⟩ := step
    split <;> exact ⟨rfl, rfl⟩
  | getEvents =>
    obtain ⟨_, rfl⟩ := step
    exact ⟨rfl, rfl⟩
  | _ => cases futile

private theorem serves_world {β : Type} {op : Call Value β} {reply : β} (futile : isFutile op = true)
    (served : serves env config caller before op reply after) :
    ReflTransGen (WritePath.Moves config) before.path after.path ∧
      World.serves env caller { before.world with events := after.path.committed } op reply after.world := by
  cases op with
  | saveEvents => cases futile
  | _ => exact served

private theorem serves_futile {β : Type} {op : Call Value β} {reply : β} (futile : isFutile op = true)
    (served : serves env config caller before op reply after) (barren : Barren projections before) :
    Barren projections after := by
  obtain ⟨moves, served⟩ := serves_world futile served
  obtain ⟨accounts, transactions⟩ := world_futile futile served
  exact ⟨moves_barren barren.inert moves, accounts.trans barren.accounts, transactions.trans barren.transactions⟩

private theorem serves_getEvents {accountId : Uuid} {fromVersion : Option Int}
    {reply : Except EventStoreError (List (Event Value))} (barren : Barren projections before)
    (served : serves env config caller before (.getEvents accountId fromVersion) reply after) :
    reply = .ok [] ∨ ∃ error, reply = .error error := by
  obtain ⟨moves, ready, passes, answer, _⟩ := served
  have empty : ready.events = [] := by
    have committed := (moves_barren barren.inert moves).committed
    cases passes <;> exact committed
  rcases answer with read | ⟨_, failed⟩
  · rw [empty] at read
    exact .inl read
  · exact .inr failed

private theorem serves_saveEvents {request : SaveRequest} {reply : Except EventStoreError Unit}
    (filled : request.events ≠ [])
    (barren : Barren projections before) (served : serves env config caller before (.saveEvents request) reply after) :
    (∃ error, reply = .error error) ∧ Barren projections after := by
  obtain ⟨passes, saves⟩ := served
  rw [Saves, if_neg filled] at saves
  obtain ⟨ready, taken, waits, acquired, moves, returned⟩ := saves
  have sent : WritePath.Moves config ready _ :=
    .inl (.sends request.aggregateId request.expectedVersion filled acquired)
  have inert := moves_barren (moves_barren barren.inert waits) (.head sent moves)
  obtain ⟨accounts, transactions⟩ := passes_projections passes
  exact ⟨inert.results _ returned,
    inert, accounts.trans barren.accounts, transactions.trans barren.transactions⟩

/-- What a thread relies on and guarantees. -/
def Keeps (projections : Projections) (before after : Stack ι Value) : Prop :=
  Barren projections before → Barren projections after

/-- The program ends in an error, whatever the others do meanwhile. -/
abbrev Fruitless {α : Type} (env : Environment Value) (config : EventStoreConfig) (caller : ι) (projections : Projections)
    (program : Program (Call Value) (Except AccountError α)) (stack : Stack ι Value) : Prop :=
  Guards (serves env config caller) (Keeps projections) (Keeps projections) (fun result _ => ∃ error, result = .error error)
    program stack

namespace Fruitless
variable {α β : Type}

private theorem error {error : AccountError} :
    Fruitless env config caller projections (.pure (.error error) : Program (Call Value) (Except AccountError α)) stack :=
  fun _ _ => ⟨error, rfl⟩

private theorem request {op : Call Value β} {resume : β → Program (Call Value) (Except AccountError α)}
    (futile : isFutile op = true) (barren : Barren projections stack)
    (rest : ∀ reply after, Barren projections after → Fruitless env config caller projections (resume reply) after) :
    Fruitless env config caller projections (.request op resume) stack := by
  refine Guards.request (fun _ _ keeps => keeps) ?_ barren
  intro before reply after barren served
  have kept := serves_futile futile served barren
  exact ⟨fun _ => kept, rest reply after kept⟩

/-- Nothing is asked of what follows a program that fails. -/
theorem andThen {program : Program (Call Value) (Except AccountError α)}
    {next : α → Program (Call Value) (Except AccountError β)}
    (fails : Fruitless env config caller projections program stack) :
    Fruitless env config caller projections (program.andThen next) stack := by
  refine Guards.andThen fails ?_ ?_
  · exact fun error _ _ => ⟨error, rfl⟩
  · rintro value now ⟨error, impossible⟩
    cases impossible

end Fruitless

private theorem readAndDecide_fruitless {codec : Codec Value} (accountId : Uuid) (command : AccountCommand)
    (barren : Barren projections stack) :
    Fruitless env config caller projections (readAndDecide codec accountId command) stack := by
  refine Guards.request (fun _ _ keeps => keeps) ?_ barren
  intro before reply after barren served
  refine ⟨fun _ => serves_futile rfl served barren, ?_⟩
  rcases serves_getEvents barren served with rfl | ⟨error, rfl⟩
  · exact Fruitless.error
  · exact Fruitless.error

private theorem saveAccount_fruitless (account : Account) {events : List AccountEvent} (filled : events ≠ [])
    (barren : Barren projections stack) :
    Fruitless env config caller projections (saveAccount account events) stack := by
  refine Guards.request (fun _ _ keeps => keeps) ?_ barren
  intro before reply after barren served
  obtain ⟨⟨error, rfl⟩, kept⟩ := serves_saveEvents filled barren served
  exact ⟨fun _ => kept, Fruitless.error⟩

/-- A command that is accepted has events to save. -/
theorem decideCommand_filled (account : Account) (command : AccountCommand) (barren : Barren projections stack) :
    Guards (serves env config caller) (Keeps projections) (Keeps projections)
      (fun result now => Barren projections now ∧ ∀ events, result = .ok events → events ≠ [])
      (decideCommand account command) stack := by
  refine Guards.request (fun _ _ keeps => keeps) ?_ barren
  intro before transactionId after barren served
  have kept := serves_futile rfl served barren
  refine ⟨fun _ => kept, Guards.pure ⟨kept, ?_⟩ fun _ _ keeps holds => ⟨keeps holds.1, holds.2⟩⟩
  intro events decided
  obtain ⟨_, rfl⟩ := (Account.handleCommand_ok_iff _ _ _ _).mp decided
  exact List.cons_ne_nil _ _

private theorem decideAndSave_fruitless {α : Type} (account saved : Account) (command : AccountCommand)
    {next : List AccountEvent → Unit → Program (Call Value) (Except AccountError α)} (barren : Barren projections stack) :
    Fruitless env config caller projections
      ((decideCommand account command).andThen fun events => (saveAccount saved events).andThen (next events)) stack := by
  refine (decideCommand_filled account command barren).andThen ?_ ?_
  · exact fun error _ _ => ⟨error, rfl⟩
  · rintro events now ⟨kept, filled⟩
    exact (saveAccount_fruitless saved (filled events rfl) kept).andThen

private theorem execute_fruitless {codec : Codec Value} (duplicate : String) (accountId : Uuid)
    (command : AccountCommand)
    (barren : Barren projections stack) :
    Fruitless env config caller projections (AccountService.execute codec duplicate accountId command) stack := by
  refine Fruitless.request rfl barren ?_
  intro known after kept
  cases known with
  | true => exact Fruitless.error
  | false => exact (readAndDecide_fruitless accountId command kept).andThen

private theorem command_fruitless {codec : Codec Value} (command : Command) (barren : Barren projections stack) :
    Fruitless env config caller projections (command.program codec) stack := by
  cases command with
  | createAccount ownerName initialBalance =>
    refine Fruitless.andThen (Fruitless.request rfl barren ?_)
    intro accountId after kept
    refine Fruitless.request rfl kept ?_
    intro known after kept
    cases known with
    | true => exact Fruitless.error
    | false =>
      refine Fruitless.request rfl kept ?_
      exact fun unused after kept => decideAndSave_fruitless _ _ _ kept
  | handleCreateAccount ownerName initialBalance =>
    refine Fruitless.andThen (Fruitless.request rfl barren ?_)
    intro accountId after kept
    refine Fruitless.request rfl kept ?_
    exact fun unused after kept => decideAndSave_fruitless _ _ _ kept
  | depositMoney accountId amount => exact execute_fruitless _ accountId _ barren
  | withdrawMoney accountId amount => exact execute_fruitless _ accountId _ barren
  | handleDepositMoney accountId amount => exact (readAndDecide_fruitless accountId _ barren).andThen.andThen
  | handleWithdrawMoney accountId amount => exact (readAndDecide_fruitless accountId _ barren).andThen.andThen
  | handleCloseAccount accountId reason => exact (readAndDecide_fruitless accountId _ barren).andThen.andThen

/-- Starting from an empty events table, every command of every interleaving fails, and neither
the events table nor the projections ever change. -/
theorem no_command_succeeds [DecidableEq ι] {commands : ι → Command} {world : World ι Value} {last : Stack ι Value}
    {history : List (Served ι (Call Value) (Stack ι Value))}
    {threads : ι → Program (Call Value) (Except AccountError Unit)}
    (run : Interleaves (serves env config) (fun thread => (commands thread).program env.codec)
      ⟨world, .new config []⟩ history threads last) :
    last.path.committed = [] ∧ last.world.accounts = world.accounts ∧
      last.world.transactions = world.transactions ∧
      ∀ thread result, threads thread = .pure result → ∃ error, result = .error error := by
  have barren : Barren ⟨world.accounts, world.transactions⟩ (⟨world, .new config []⟩ : Stack ι Value) :=
    ⟨.new config [], rfl, rfl⟩
  have compatible (thread other : ι) (before after : Stack ι Value) (_ : thread ≠ other)
      (keeps : Keeps ⟨world.accounts, world.transactions⟩ before after) :
      Keeps ⟨world.accounts, world.transactions⟩ before after := keeps
  obtain ⟨moves, fruitless⟩ := Interleaves.guards compatible (fun thread => command_fruitless (commands thread) barren) run
  have final : Barren ⟨world.accounts, world.transactions⟩ last :=
    preserved_by_steps (fun _ _ ⟨_, keeps⟩ => keeps) moves barren
  refine ⟨final.inert.committed, final.accounts, final.transactions, ?_⟩
  intro thread result finished
  have post := fruitless thread
  rw [finished] at post
  exact post last .refl

/-- A deposit reads no event and is refused. -/
theorem deposit_not_found :
    ∃ (history : List (Served Unit (Call AccountEvent) (Stack Unit AccountEvent)))
      (threads : Unit → Program (Call AccountEvent) (Except AccountError Unit)) (last : Stack Unit AccountEvent),
      Interleaves (serves .accepting {}) (fun _ => (Command.handleDepositMoney ⟨7⟩ 1).program .plain)
        ⟨{}, .new {} []⟩ history threads last ∧
      threads () = .pure (.error .notFound) ∧ last.path.committed = [] := by
  have begun : Interleaves (serves .accepting {})
      (fun _ : Unit => (Command.handleDepositMoney ⟨7⟩ 1).program .plain)
      (⟨{}, .new {} []⟩ : Stack Unit AccountEvent) [] _ _ := .start
  have read := begun.serve () (.ok []) rfl ⟨.refl, World.serves_now ⟨.inl rfl, rfl⟩⟩
  exact ⟨_, _, _, read, rfl, (no_command_succeeds read).1⟩

end BankingEs.Proofs.EmptyBank
