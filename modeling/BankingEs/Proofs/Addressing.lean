import BankingEs.Application.Handlers
import BankingEs.Application.Services
import BankingEs.Proofs.Founding

/-! Which log a save goes to. Both front ends share one event store; every save is
addressed by the account value in hand, and its event by the command. -/

namespace BankingEs.Proofs.Addressing
open Async AccountRepository Footprint Founding Relation World

inductive Request where
  | createAccount (ownerName : String) (initialBalance : Decimal)
  | depositMoney (accountId : Uuid) (amount : Decimal)
  | withdrawMoney (accountId : Uuid) (amount : Decimal)
  | handleCreateAccount (ownerName : String) (initialBalance : Decimal)
  | handleDepositMoney (accountId : Uuid) (amount : Decimal)
  | handleWithdrawMoney (accountId : Uuid) (amount : Decimal)
  | handleCloseAccount (accountId : Uuid) (reason : String)

inductive Answer where
  | created (accountId : Uuid)
  | emitted (events : List AccountEvent)
  | done

namespace Request
variable {Value : Type}

def program (codec : Codec Value) : Request → Program (Call Value) (Except AccountError Answer)
  | createAccount ownerName initialBalance =>
    (AccountService.createAccount ownerName initialBalance).andThen fun id => .pure (.ok (.created id))
  | depositMoney accountId amount =>
    (AccountService.depositMoney codec accountId amount).andThen fun _ => .pure (.ok .done)
  | withdrawMoney accountId amount =>
    (AccountService.withdrawMoney codec accountId amount).andThen fun _ => .pure (.ok .done)
  | handleCreateAccount ownerName initialBalance =>
    (AccountCommandHandler.handleCreateAccount ownerName initialBalance).andThen fun id => .pure (.ok (.created id))
  | handleDepositMoney accountId amount =>
    (AccountCommandHandler.handleDepositMoney codec accountId amount).andThen fun events => .pure (.ok (.emitted events))
  | handleWithdrawMoney accountId amount =>
    (AccountCommandHandler.handleWithdrawMoney codec accountId amount).andThen fun events => .pure (.ok (.emitted events))
  | handleCloseAccount accountId reason =>
    (AccountCommandHandler.handleCloseAccount codec accountId reason).andThen fun events => .pure (.ok (.emitted events))

def creates : Request → Option (String × Decimal)
  | createAccount ownerName initialBalance => some (ownerName, initialBalance)
  | handleCreateAccount ownerName initialBalance => some (ownerName, initialBalance)
  | _ => none

end Request

variable {ι Value : Type} {env : Environment Value} {thread : ι} {world : World ι Value}

/-- The thread has drawn an id that nothing is stored under. -/
structure Reserved (thread : ι) (id : Uuid) (world : World ι Value) : Prop where
  mine : (thread, id) ∈ world.issued
  alone : ∀ entry ∈ world.issued, entry.2 = id → entry.1 = thread
  absent : ∀ row ∈ world.events, row.aggregateId ≠ id

private theorem Reserved.unsaved {id : Uuid} {caller : ι} {before after : World ι Value}
    (reserved : Reserved thread id before)
    (same : Unsaved caller before after) : Reserved thread id after := by
  refine ⟨same.issued _ reserved.mine, ?_, ?_⟩
  · intro entry member is
    rcases same.drawn entry member with old | ⟨_, fresh⟩
    · exact reserved.alone entry old is
    · exact absurd is.symm (fresh _ reserved.mine)
  · rw [same.events]
    exact reserved.absent

private theorem Reserved.relied {codec : Codec Value} {id : Uuid} {before after : World ι Value}
    (reserved : Reserved thread id before) (step : Relies codec thread before after) : Reserved thread id after := by
  obtain ⟨other, differs, step⟩ := step
  cases step with
  | silent same => exact reserved.unsaved same
  | @saves request event stored rows single own allowed recorded events holds refused issued =>
    have elsewhere : request.aggregateId ≠ id := by
      rintro rfl
      rcases allowed with updates | creates
      · obtain ⟨row, member, owner⟩ := updates.present
        exact reserved.absent row member owner
      · exact differs (reserved.alone _ creates.mine rfl)
    refine ⟨by rw [issued]; exact reserved.mine, by rw [issued]; exact reserved.alone, ?_⟩
    intro row member
    rw [events] at member
    rcases List.mem_append.mp member with member | member
    · exact reserved.absent row member
    · rwa [row_owner holds refused member]

/-- What a thread knows of an account it has read. -/
structure Seen (id : Uuid) (account : Account) (world : World ι Value) : Prop where
  own : account.id = id
  later : 1 ≤ account.version
  present : ∃ row ∈ world.events, row.aggregateId = id

private theorem applyStored_shape {codec : Codec Value} {account result : Account} {stored : List (Event Value)}
    (applied : account.applyStored codec deserializationError stored = .ok result) :
    result.id = account.id ∧ result.version = account.version + stored.length := by
  induction stored generalizing account with
  | nil =>
    cases applied
    exact ⟨rfl, by simp⟩
  | cons row stored ih =>
    cases decoded : codec.fromValue row.eventData with
    | error error =>
      rw [Account.applyStored_error account decoded] at applied
      cases applied
    | ok event =>
      rw [Account.applyStored_ok account decoded] at applied
      obtain ⟨own, version⟩ := ih applied
      rw [own, version, Account.applyEvent_id, Account.applyEvent_version, List.length_cons]
      refine ⟨rfl, ?_⟩
      omega

private theorem mem_getEvents {table : Table Value} {id : Uuid} {row : Event Value}
    (member : row ∈ table.getEvents id none) : ∃ stored ∈ table, stored.aggregateId = id := by
  obtain ⟨stored, inside, _⟩ := List.mem_map.mp member
  have filtered := (List.mem_filter.mp ((List.mem_insertionSort _).mp inside)).1
  obtain ⟨present, owner⟩ := List.mem_filter.mp filtered
  exact ⟨stored, present, by simpa using owner⟩

private theorem seen_read {id : Uuid} {account : Account}
    (found : rehydrate env.codec id (.ok (world.events.getEvents id none)) = .ok (some account)) :
    Seen id account world := by
  cases stored : world.events.getEvents id none with
  | nil =>
    rw [stored] at found
    cases found
  | cons row rest =>
    rw [stored, rehydrate_cons] at found
    cases applied : (blank id).applyStored env.codec deserializationError (row :: rest) with
    | error error =>
      rw [applied] at found
      cases found
    | ok result =>
      rw [applied] at found
      cases found
      obtain ⟨own, version⟩ := applyStored_shape applied
      refine ⟨own, ?_, mem_getEvents (by rw [stored]; exact List.mem_cons_self)⟩
      rw [version, List.length_cons]
      simp only [blank, Account.default]
      omega

private theorem seen_watched {codec : Codec Value} (id : Uuid) :
    Watches thread (Relies codec thread) (Makes codec thread) (Seen id) where
  frame := fun _ _ same => .silent same
  relied := by
    intro account before after step seen
    obtain ⟨other, _, step⟩ := step
    obtain ⟨own, later, row, member, owner⟩ := seen
    exact ⟨own, later, row, step.events_grow row member, owner⟩
  kept := by
    intro account before after same seen
    obtain ⟨own, later, row, member, owner⟩ := seen
    exact ⟨own, later, row, by rwa [same.events], owner⟩

private theorem reserved_watched {codec : Codec Value} (id : Uuid) :
    Watches thread (Relies codec thread) (Makes codec thread) (fun _ => Reserved thread id) where
  frame := fun _ _ same => .silent same
  relied := fun _ _ _ step reserved => reserved.relied step
  kept := fun _ _ _ same reserved => reserved.unsaved same

/-- A save of one event is a step that the others may rely on, if its address is right. -/
private theorem save_makes {request : SaveRequest} {event : AccountEvent} {reply : Except EventStoreError Unit}
    {before after : World ι Value} (single : request.events = [event])
    (own : event.aggregateId = request.aggregateId)
    (allowed : Updates before request event ∨ Creates thread before request event)
    (served : serves env thread before (.saveEvents request) reply after) :
    Makes env.codec thread before after ∧ ∃ stored, (request, stored) ∈ after.saves := by
  obtain ⟨issued, rows, stored, table, recorded, accepted, refused⟩ := serves_save served
  refine ⟨.saves single own allowed recorded table (fun yes => (accepted yes).2) refused issued, stored, ?_⟩
  rw [recorded]
  exact List.mem_append_right _ List.mem_cons_self

structure Existing (id : Uuid) (command : AccountCommand) : Prop where
  own : command.accountId = id
  other : ∀ transactionId, (command.event transactionId).eventType ≠ "AccountCreated"

section Existing
variable {id : Uuid} {command : AccountCommand}

private theorem update_guards {account saved : Account} {events : List AccountEvent} {transactionId : Uuid}
    (existing : Existing id command) (knows : Seen id account world) (same : saved.id = account.id)
    (later : account.version ≤ saved.version)
    (decided : account.handleCommand command transactionId = .ok events) :
    Guards (serves env thread) (Relies env.codec thread) (Makes env.codec thread) (fun _ _ => True)
      (saveAccount saved events) world := by
  apply saveAccount_guards _ (fun _ _ _ _ => trivial)
  intro before reply after moves served
  have still := preserved_by_steps ((seen_watched id).relied account) moves knows
  obtain ⟨_, rfl⟩ := (Account.handleCommand_ok_iff _ _ _ _).mp decided
  have address : saved.id = id := same.trans still.own
  refine ⟨(save_makes rfl ?_ (.inl ⟨?_, ?_, existing.other transactionId⟩) served).1, trivial⟩
  · rw [AccountCommand.event_aggregateId, existing.own, address]
  · rw [address]
    exact still.present
  · exact le_trans still.later later

private theorem handleExisting_guards (existing : Existing id command) :
    Guards (serves env thread) (Relies env.codec thread) (Makes env.codec thread) (fun _ _ => True)
      (AccountCommandHandler.handleExisting env.codec id command) world := by
  refine (readAndDecide_guards (seen_watched id) (fun _ _ _ => seen_read)).andThen (fun _ _ _ => trivial) ?_
  intro (account, events) now decided
  obtain ⟨knows, transactionId, decided⟩ := decided account events rfl
  exact (update_guards existing knows rfl le_rfl decided).andThen (fun _ _ _ => trivial) (fun _ _ _ _ _ => trivial)

private theorem execute_guards (duplicate : String) (existing : Existing id command) :
    Guards (serves env thread) (Relies env.codec thread) (Makes env.codec thread) (fun _ _ => True)
      (AccountService.execute env.codec duplicate id command) world := by
  intro before reply after moves served
  refine ⟨.silent (serves_unsaved rfl served), ?_⟩
  cases reply with
  | true => exact fun _ _ => trivial
  | false =>
    refine (readAndDecide_guards (seen_watched id) (fun _ _ _ => seen_read)).andThen (fun _ _ _ => trivial) ?_
    intro (account, events) now decided
    obtain ⟨knows, transactionId, decided⟩ := decided account events rfl
    have later : account.version ≤ (account.replay events).version := by
      rw [Account.replay_version]
      omega
    refine (update_guards existing knows (by simp) later decided).andThen (fun _ _ _ => trivial) ?_
    intro _ now _
    refine Guards.bind (Guards.of_uses (fun _ => True) (updateProjections_uses events) ?_ ?_ trivial) ?_
    · exact fun _ _ _ _ => trivial
    · intro _ op before reply after upkeep served _
      exact ⟨.silent (serves_unsaved (isUpkeep_unsaving upkeep) served), trivial⟩
    · exact fun _ _ _ _ _ => trivial

end Existing

/-- The save that creates an account has reached the store. -/
def Asked (ownerName : String) (balance : Decimal) (id : Uuid) (world : World ι Value) : Prop :=
  ∃ stored, (⟨id, [.accountCreated id ownerName balance], 0⟩, stored) ∈ world.saves

private theorem asked_relied {codec : Codec Value} {ownerName : String} {balance : Decimal} {id : Uuid}
    (before after : World ι Value) (step : Relies codec thread before after) (asked : Asked ownerName balance id before) :
    Asked ownerName balance id after := by
  obtain ⟨other, _, step⟩ := step
  obtain ⟨stored, member⟩ := asked
  exact ⟨stored, step.saves_grow _ member⟩

private theorem relies_sound {codec : Codec Value} (before after : World ι Value)
    (step : Relies codec thread before after) (sound : Sound codec before) : Sound codec after := by
  obtain ⟨other, _, step⟩ := step
  exact step.sound sound

private theorem drawn_reserved {id : Uuid} {before after : World ι Value} (sound : Sound env.codec before)
    (served : serves env thread before .newV4 id after) : Reserved thread id after := by
  obtain ⟨fresh, issued⟩ := serves_newV4 served
  refine ⟨by rw [issued]; exact List.mem_cons_self, ?_, ?_⟩
  · intro entry member is
    rw [issued] at member
    rcases List.mem_cons.mp member with rfl | member
    · rfl
    · exact absurd is (fresh entry member)
  · intro row member owner
    rw [(serves_unsaved rfl served).events] at member
    obtain ⟨caller, taken⟩ := sound.drawn row member
    exact fresh _ taken owner

private theorem handleCreateAccount_guards {ownerName : String} {balance : Decimal} (sound : Sound env.codec world) :
    Guards (serves env thread) (Relies env.codec thread) (Makes env.codec thread)
      (fun result now => ∀ id, result = .ok id → Asked ownerName balance id now)
      (AccountCommandHandler.handleCreateAccount ownerName balance) world := by
  intro before id drawn moves served
  have reserved := drawn_reserved (preserved_by_steps relies_sound moves sound) served
  refine ⟨.silent (serves_unsaved rfl served), ?_⟩
  intro before unused after moves served
  have same := serves_unsaved rfl served
  have still := (preserved_by_steps (fun _ _ step reserved => Reserved.relied reserved step) moves reserved).unsaved same
  refine ⟨.silent same, ?_⟩
  apply (decideCommand_guards (reserved_watched id) still).andThen
  · intro error now _ other same
    cases same
  · intro events now decided
    obtain ⟨reserved, transactionId, decided⟩ := decided events rfl
    obtain ⟨_, rfl⟩ := (Account.handleCommand_ok_iff _ _ _ _).mp decided
    have saved : Guards (serves env thread) (Relies env.codec thread) (Makes env.codec thread)
        (fun _ => Asked ownerName balance id)
        (saveAccount { id, ownerName := "", balance := 0, isActive := false, version := 0 }
          [.accountCreated id ownerName balance]) now := by
      refine saveAccount_guards ?_ asked_relied
      intro before reply after moves served
      have still := preserved_by_steps (fun _ _ step reserved => Reserved.relied reserved step) moves reserved
      exact save_makes rfl rfl (.inr ⟨still.mine, still.absent, rfl⟩) served
    apply saved.andThen
    · intro error now _ other same
      cases same
    · intro _ now asked
      apply Guards.pure
      · intro _ same
        cases same
        exact asked
      · intro before after step holds _ same
        cases same
        exact asked_relied before after step (holds id rfl)

/-- With a negative balance nothing is saved and nothing returned. -/
theorem createAccount_guards {ownerName : String} {balance : Decimal} (negative : balance < 0) :
    Guards (serves env thread) (Relies env.codec thread) (Makes env.codec thread) (fun result _ => ∀ id, result ≠ .ok id)
      (AccountService.createAccount ownerName balance) world := by
  intro before accountId after moves served
  refine ⟨.silent (serves_unsaved rfl served), ?_⟩
  intro before duplicate after moves served
  refine ⟨.silent (serves_unsaved rfl served), ?_⟩
  cases duplicate with
  | true =>
    intro later _ id same
    cases same
  | false =>
    intro before newV4 after moves served
    refine ⟨.silent (serves_unsaved rfl served), ?_⟩
    have anything : Watches thread (Relies env.codec thread) (Makes env.codec thread) (fun _ _ => True) :=
      ⟨fun _ _ same => .silent same, fun _ _ _ _ _ => trivial, fun _ _ _ _ _ => trivial⟩
    apply (decideCommand_guards anything trivial).andThen
    · intro error now _ id same
      cases same
    · intro events now decided
      obtain ⟨_, transactionId, decided⟩ := decided events rfl
      obtain ⟨accepted, _⟩ := (Account.handleCommand_ok_iff _ _ _ _).mp decided
      exact absurd accepted (not_le.mpr negative)

/-- A call that creates an account and returns its id has asked for it to be stored. -/
def Returns (request : Request) (result : Except AccountError Answer) (world : World ι Value) : Prop :=
  ∀ ownerName balance id, request.creates = some (ownerName, balance) → result = .ok (.created id) →
    Asked ownerName balance id world

private theorem existing_returns {α : Type} {request : Request} {program : Program (Call Value) (Except AccountError α)}
    {answer : α → Answer} (other : request.creates = none)
    (guards : Guards (serves env thread) (Relies env.codec thread) (Makes env.codec thread) (fun _ _ => True)
      program world) :
    Guards (serves env thread) (Relies env.codec thread) (Makes env.codec thread) (Returns request)
      (program.andThen fun value => .pure (.ok (answer value))) world := by
  have vacuous (result : Except AccountError Answer) (now : World ι Value) : Returns request result now := by
    intro ownerName balance id creates
    cases other.symm.trans creates
  exact guards.andThen (fun error now _ => vacuous _ now) (fun value now _ later _ => vacuous _ later)

private theorem request_guards (request : Request) (sound : Sound env.codec world)
    (refused : ∀ ownerName balance, request = .createAccount ownerName balance → balance < 0) :
    Guards (serves env thread) (Relies env.codec thread) (Makes env.codec thread) (Returns request)
      (request.program env.codec) world := by
  cases request with
  | createAccount ownerName balance =>
    apply (createAccount_guards (refused ownerName balance rfl)).andThen
    · intro error now _ owner amount id _ same
      cases same
    · intro id now never
      exact absurd rfl (never id)
  | depositMoney | withdrawMoney =>
    exact existing_returns rfl (execute_guards _ ⟨rfl, fun _ => by simp [AccountCommand.event, AccountEvent.eventType]⟩)
  | handleCreateAccount ownerName balance =>
    apply (handleCreateAccount_guards sound).andThen
    · intro error now _ owner amount id _ same
      cases same
    · intro id now asked
      apply Guards.pure
      · intro _ _ _ creates same
        cases creates
        cases same
        exact asked id rfl
      · intro before after step holds owner amount other creates same
        exact asked_relied before after step (holds owner amount other creates same)
  | handleDepositMoney | handleWithdrawMoney | handleCloseAccount =>
    exact existing_returns rfl (handleExisting_guards ⟨rfl, fun _ => by simp [AccountCommand.event, AccountEvent.eventType]⟩)

/-- Every save goes to the log of the account it is about, and a created account
whose save was stored can be read, as long as the service itself only gets calls
to create an account that it refuses. -/
theorem saves_addressed [DecidableEq ι] {requests : ι → Request} {first last : World ι Value}
    {history : List (Served ι (Call Value) (World ι Value))}
    {threads : ι → Program (Call Value) (Except AccountError Answer)} (unsaved : first.saves = [])
    (drawn : ∀ row ∈ first.events, ∃ caller, (caller, row.aggregateId) ∈ first.issued)
    (refused : ∀ thread ownerName balance, requests thread = .createAccount ownerName balance → balance < 0)
    (run : Interleaves (serves env) (fun thread => (requests thread).program env.codec) first history threads last) :
    (∀ save ∈ last.saves, ∀ event ∈ save.1.events, event.aggregateId = save.1.aggregateId) ∧
      ∀ thread ownerName balance id, (requests thread).creates = some (ownerName, balance) →
        threads thread = .pure (.ok (.created id)) →
        Asked ownerName balance id last ∧
          ((⟨id, [.accountCreated id ownerName balance], 0⟩, true) ∈ last.saves →
            Reads env.codec last.events id ownerName balance) := by
  have sound : Sound env.codec first := by
    refine ⟨?_, drawn, ?_⟩
    · rw [unsaved]
      simp
    · rw [unsaved]
      simp
  have compatible (thread other : ι) (before after : World ι Value) (differs : thread ≠ other)
      (step : Makes env.codec thread before after) : Relies env.codec other before after := ⟨thread, differs, step⟩
  obtain ⟨moves, promises⟩ := Interleaves.guards compatible
    (fun thread => request_guards (requests thread) sound (refused thread)) run
  have safe : Sound env.codec last :=
    preserved_by_steps (fun _ _ ⟨_, step⟩ kept => step.sound kept) moves sound
  refine ⟨safe.addressed, ?_⟩
  intro thread ownerName balance id creates finished
  have promise := promises thread
  rw [finished] at promise
  refine ⟨promise last .refl ownerName balance id creates rfl, ?_⟩
  intro stored
  exact (safe.founded id ownerName balance stored).reads

/-- An account created through the handler is read back. -/
theorem handled_account_reads :
    ∃ (history : List (Served Unit (Call AccountEvent) (World Unit AccountEvent)))
      (threads : Unit → Program (Call AccountEvent) (Except AccountError Answer)) (last : World Unit AccountEvent),
      Interleaves (serves .accepting) (fun _ => (Request.handleCreateAccount "Ann" 10).program .plain) {} history
        threads last ∧
      threads () = .pure (.ok (.created ⟨1⟩)) ∧ Reads .plain last.events ⟨1⟩ "Ann" 10 := by
  have begun : Interleaves (serves .accepting) (fun _ : Unit => (Request.handleCreateAccount "Ann" 10).program .plain)
      {} [] _ _ := .start
  have drawn := begun.serve () (⟨1⟩ : Uuid) rfl (serves_now ⟨by simp, rfl⟩)
  have unused := drawn.serve () (⟨2⟩ : Uuid) rfl (serves_now ⟨by simp, rfl⟩)
  have decided := unused.serve () (⟨3⟩ : Uuid) rfl (serves_now ⟨by simp, rfl⟩)
  have rows : Holds Codec.plain ⟨1⟩ 0 [.accountCreated ⟨1⟩ "Ann" 10] [plainRow ⟨1⟩ 1 (.accountCreated ⟨1⟩ "Ann" 10)] := rfl
  have saved := decided.serve () (.ok ()) rfl (serves_now (Saves.stored trivial rows))
  have unsaved : ({} : World Unit AccountEvent).saves = [] := rfl
  have addressed := saves_addressed unsaved (by simp) (fun _ _ _ same => by cases same) saved
  have reads := (addressed.2 () "Ann" 10 ⟨1⟩ rfl rfl).2 List.mem_cons_self
  exact ⟨_, _, _, saved, rfl, reads⟩

/-- An account created through the service is stored under an id that nobody knows. -/
theorem created_account_misplaced :
    ∃ (history : List (Served Unit (Call AccountEvent) (World Unit AccountEvent)))
      (threads : Unit → Program (Call AccountEvent) (Except AccountError Answer)) (last : World Unit AccountEvent),
      Interleaves (serves .accepting) (fun _ => (Request.createAccount "Ann" 10).program .plain) {} history
        threads last ∧
      threads () = .pure (.ok (.created ⟨1⟩)) ∧
      (∃ save ∈ last.saves, ∃ event ∈ save.1.events, event.aggregateId ≠ save.1.aggregateId) ∧
      rehydrate .plain ⟨1⟩ (.ok (last.events.getEvents ⟨1⟩ none)) = .ok none := by
  have begun : Interleaves (serves .accepting) (fun _ : Unit => (Request.createAccount "Ann" 10).program .plain)
      {} [] _ _ := .start
  have drawn := begun.serve () (⟨1⟩ : Uuid) rfl (serves_now ⟨by simp, rfl⟩)
  have checked := drawn.serve () false rfl (serves_now ⟨rfl, rfl⟩)
  have redrawn := checked.serve () (⟨2⟩ : Uuid) rfl (serves_now ⟨by simp, rfl⟩)
  have decided := redrawn.serve () (⟨3⟩ : Uuid) rfl (serves_now ⟨by simp, rfl⟩)
  have rows : Holds Codec.plain ⟨2⟩ 0 [.accountCreated ⟨1⟩ "Ann" 10] [plainRow ⟨2⟩ 1 (.accountCreated ⟨1⟩ "Ann" 10)] := rfl
  have saved := decided.serve () (.ok ()) rfl (serves_now (Saves.stored trivial rows))
  have timed := saved.serve () (0 : DateTime) rfl (serves_now rfl)
  have retimed := timed.serve () (0 : DateTime) rfl (serves_now rfl)
  have projected := retimed.serve () (.ok ()) rfl (serves_now (.inl ⟨rfl, rfl⟩))
  exact ⟨_, _, _, projected, rfl, ⟨_, List.mem_cons_self, _, List.mem_cons_self, by decide⟩, rfl⟩

end BankingEs.Proofs.Addressing
