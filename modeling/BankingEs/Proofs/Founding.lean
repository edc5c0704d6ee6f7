import BankingEs.Proofs.AccountLog
import BankingEs.Proofs.Footprint

/-! What the saves of well-behaved threads make of the events table: a thread either
adds to an account that is there, or founds one under an id that it has drawn. -/

namespace BankingEs.Proofs.Founding
open Async AccountRepository Footprint Relation World

variable {ι Value : Type} {codec : Codec Value} {thread : ι}

/-- A save for an account that is in the table already. -/
structure Updates (world : World ι Value) (request : SaveRequest) (event : AccountEvent) : Prop where
  present : ∃ row ∈ world.events, row.aggregateId = request.aggregateId
  later : 1 ≤ request.expectedVersion
  other : event.eventType ≠ "AccountCreated"

/-- The first save for an account whose id the thread has drawn. -/
structure Creates (thread : ι) (world : World ι Value) (request : SaveRequest) (event : AccountEvent) : Prop where
  mine : (thread, request.aggregateId) ∈ world.issued
  absent : ∀ row ∈ world.events, row.aggregateId ≠ request.aggregateId
  first : request.expectedVersion = 0

/-- All that a call of a thread may do to the events. -/
inductive Makes (codec : Codec Value) (thread : ι) (before after : World ι Value) : Prop where
  | silent (same : Unsaved thread before after)
  | saves {request : SaveRequest} {event : AccountEvent} {stored : Bool} {rows : Table Value}
      (single : request.events = [event]) (own : event.aggregateId = request.aggregateId)
      (allowed : Updates before request event ∨ Creates thread before request event)
      (recorded : after.saves = before.saves ++ [(request, stored)])
      (events : after.events = before.events ++ rows)
      (holds : stored = true → Holds codec request.aggregateId request.expectedVersion request.events rows)
      (refused : stored = false → rows = []) (issued : after.issued = before.issued)

def Relies (codec : Codec Value) (thread : ι) (before after : World ι Value) : Prop :=
  ∃ other, other ≠ thread ∧ Makes codec other before after

theorem Makes.saves_grow {before after : World ι Value} (step : Makes codec thread before after) :
    ∀ save ∈ before.saves, save ∈ after.saves := by
  intro save member
  cases step with
  | silent same => rwa [same.saves]
  | saves _ _ _ recorded =>
    rw [recorded]
    exact List.mem_append_left _ member

theorem Makes.events_grow {before after : World ι Value} (step : Makes codec thread before after) :
    ∀ row ∈ before.events, row ∈ after.events := by
  intro row member
  cases step with
  | silent same => rwa [same.events]
  | saves _ _ _ _ events =>
    rw [events]
    exact List.mem_append_left _ member

theorem row_owner {request : SaveRequest} {stored : Bool} {rows : Table Value}
    (holds : stored = true → Holds codec request.aggregateId request.expectedVersion request.events rows)
    (refused : stored = false → rows = []) {row : Event Value} (member : row ∈ rows) :
    row.aggregateId = request.aggregateId := by
  cases stored with
  | false =>
    rw [refused rfl] at member
    cases member
  | true =>
    obtain ⟨_, _, _, _, owner, _⟩ := (holds rfl).member member
    exact owner

section Founded

/-- The account was created with this owner and balance, and its other rows came later. -/
def Founded (codec : Codec Value) (table : Table Value) (id : Uuid) (ownerName : String) (balance : Decimal) : Prop :=
  ∃ row rest, table.rowsOf id = row :: rest ∧ row.version = 1 ∧
    codec.fromValue row.eventData = .ok (.accountCreated id ownerName balance) ∧
    ∀ later ∈ rest, 1 < later.version ∧ ∃ event, codec.fromValue later.eventData = .ok event ∧
      event.eventType ≠ "AccountCreated"

variable {table rows : Table Value} {id : Uuid} {ownerName : String} {balance : Decimal}

private theorem Founded.present (founded : Founded codec table id ownerName balance) :
    ∃ row ∈ table, row.aggregateId = id := by
  obtain ⟨row, rest, stored, _⟩ := founded
  have first : row ∈ table.rowsOf id := by
    rw [stored]
    exact List.mem_cons_self
  obtain ⟨member, owner⟩ := List.mem_filter.mp first
  exact ⟨row, member, by simpa using owner⟩

private theorem Founded.other (founded : Founded codec table id ownerName balance)
    (apart : ∀ row ∈ rows, row.aggregateId ≠ id) : Founded codec (table ++ rows) id ownerName balance := by
  obtain ⟨row, rest, stored, fields⟩ := founded
  exact ⟨row, rest, by rw [Table.rowsOf_append, rowsOf_apart apart, List.append_nil, stored], fields⟩

private theorem Founded.update (founded : Founded codec table id ownerName balance) {version : Int}
    {event : AccountEvent}
    (later : 1 ≤ version) (plain : event.eventType ≠ "AccountCreated") (holds : Holds codec id version [event] rows) :
    Founded codec (table ++ rows) id ownerName balance := by
  obtain ⟨row, rest, stored, number, created, others⟩ := founded
  refine ⟨row, rest ++ rows, ?_, number, created, ?_⟩
  · rw [Table.rowsOf_append, rowsOf_own holds, stored, List.cons_append]
  · intro next member
    rcases List.mem_append.mp member with member | member
    · exact others next member
    · obtain ⟨index, accepted, _, inside, _, placed, decoded⟩ := holds.member member
      rw [List.mem_singleton.mp inside] at decoded
      exact ⟨by omega, event, decoded, plain⟩

private theorem founded_by_create (absent : ∀ row ∈ table, row.aggregateId ≠ id)
    (holds : Holds codec id 0 [.accountCreated id ownerName balance] rows) :
    Founded codec (table ++ rows) id ownerName balance := by
  obtain ⟨row, rfl⟩ := List.length_eq_one_iff.mp holds.length
  obtain ⟨event, found, _, number, decoded⟩ := holds.at_index (show [row][0]? = some row from rfl)
  cases found
  refine ⟨row, [], ?_, number, decoded, by simp⟩
  rw [Table.rowsOf_append, rowsOf_apart absent, rowsOf_own holds, List.nil_append]

/-- No save of a well-behaved thread undoes a creation. -/
theorem Founded.saved {world : World ι Value} {request : SaveRequest} {event : AccountEvent} {stored : Bool}
    (founded : Founded codec world.events id ownerName balance) (single : request.events = [event])
    (allowed : Updates world request event ∨ Creates thread world request event)
    (holds : stored = true → Holds codec request.aggregateId request.expectedVersion request.events rows)
    (refused : stored = false → rows = []) : Founded codec (world.events ++ rows) id ownerName balance := by
  by_cases same : request.aggregateId = id
  · cases stored with
    | false => rwa [refused rfl, List.append_nil]
    | true =>
      rcases allowed with updates | creates
      · have added := holds rfl
        rw [single, same] at added
        exact founded.update updates.later updates.other added
      · obtain ⟨row, member, owner⟩ := founded.present
        exact absurd (owner.trans same.symm) (creates.absent row member)
  · apply founded.other
    intro row inside
    rwa [row_owner holds refused inside]

private theorem decoded_rows {stored : Table Value}
    (each : ∀ row ∈ stored, ∃ event, codec.fromValue row.eventData = .ok event ∧ event.eventType ≠ "AccountCreated") :
    ∃ events : List AccountEvent, stored.map (fun row => codec.fromValue row.eventData) = events.map .ok ∧
      ∀ event ∈ events, event.eventType ≠ "AccountCreated" := by
  induction stored with
  | nil => exact ⟨[], rfl, by simp⟩
  | cons row stored ih =>
    obtain ⟨event, decoded, plain⟩ := each row List.mem_cons_self
    obtain ⟨events, rest, others⟩ := ih (fun other member => each other (List.mem_cons_of_mem _ member))
    refine ⟨event :: events, ?_, ?_⟩
    · rw [List.map_cons, List.map_cons, rest, decoded]
    · intro other member
      rcases List.mem_cons.mp member with rfl | member
      · exact plain
      · exact others other member

/-- What `get_by_id` returns for an account created with an owner and a balance:
that account, with the other stored events applied to it. -/
def Reads (codec : Codec Value) (table : Table Value) (id : Uuid) (ownerName : String) (balance : Decimal) : Prop :=
  ∃ rest : List AccountEvent, (∀ event ∈ rest, event.eventType ≠ "AccountCreated") ∧
    (table.rowsOf id).length = rest.length + 1 ∧
    rehydrate codec id (.ok (table.getEvents id none)) = .ok (some
      (({ id, ownerName, balance, isActive := true, version := 1 } : Account).replay rest))

theorem Founded.reads (founded : Founded codec table id ownerName balance) :
    Reads codec table id ownerName balance := by
  obtain ⟨row, rest, stored, number, created, others⟩ := founded
  let sorted := rest.insertionSort (fun first second => first.version ≤ second.version)
  have order : table.getEvents id none = (row :: sorted).map (fun row => { row with metadata := .default }) := by
    have all : (table.rowsOf id).filter (fun row => (none : Option Int).getD (-1) < row.version) = row :: rest := by
      rw [stored]
      apply List.filter_eq_self.mpr
      intro other member
      simp only [Option.getD_none, decide_eq_true_eq]
      rcases List.mem_cons.mp member with rfl | member
      · omega
      · have := (others other member).1
        omega
    rw [Table.getEvents, all, List.insertionSort_cons_of_forall_rel]
    intro other member
    have := (others other member).1
    omega
  have each : ∀ other ∈ sorted, ∃ event, codec.fromValue other.eventData = .ok event ∧
      event.eventType ≠ "AccountCreated" :=
    fun other member => (others other ((List.mem_insertionSort _).mp member)).2
  obtain ⟨events, decoded, plain⟩ := decoded_rows each
  refine ⟨events, plain, ?_, ?_⟩
  · have count := congrArg List.length decoded
    simp only [List.length_map, sorted, List.length_insertionSort] at count
    rw [stored, List.length_cons, count]
  · have read : (table.getEvents id none).map (fun row => codec.fromValue row.eventData) =
        (AccountEvent.accountCreated id ownerName balance :: events).map .ok := by
      rw [order, List.map_map, List.map_cons, List.map_cons, ← decoded]
      exact congrArg (· :: _) created
    rw [rehydrate_decoded id read]
    rfl

end Founded

/-- Saves are addressed to the account of their events, stored ids were drawn, and
an account whose creation was stored can be read back. -/
structure Sound (codec : Codec Value) (world : World ι Value) : Prop where
  addressed : ∀ save ∈ world.saves, ∀ event ∈ save.1.events, event.aggregateId = save.1.aggregateId
  drawn : ∀ row ∈ world.events, ∃ caller, (caller, row.aggregateId) ∈ world.issued
  founded : ∀ id ownerName balance, (⟨id, [.accountCreated id ownerName balance], 0⟩, true) ∈ world.saves →
    Founded codec world.events id ownerName balance

theorem Makes.sound {before after : World ι Value} (step : Makes codec thread before after)
    (sound : Sound codec before) : Sound codec after := by
  cases step with
  | silent same =>
    refine ⟨?_, ?_, ?_⟩
    · rw [same.saves]
      exact sound.addressed
    · rw [same.events]
      intro row member
      obtain ⟨caller, issued⟩ := sound.drawn row member
      exact ⟨caller, same.issued _ issued⟩
    · rw [same.saves, same.events]
      exact sound.founded
  | @saves request event stored rows single own allowed recorded events holds refused issued =>
    refine ⟨?_, ?_, ?_⟩
    · intro save member accepted inside
      rw [recorded] at member
      rcases List.mem_append.mp member with member | member
      · exact sound.addressed save member accepted inside
      · rw [List.mem_singleton.mp member] at inside ⊢
        rw [single] at inside
        rwa [List.mem_singleton.mp inside]
    · intro row member
      rw [events] at member
      rw [issued]
      rcases List.mem_append.mp member with member | member
      · exact sound.drawn row member
      · rw [row_owner holds refused member]
        rcases allowed with ⟨⟨old, inside, owner⟩, _, _⟩ | ⟨mine, _, _⟩
        · rw [← owner]
          exact sound.drawn old inside
        · exact ⟨thread, mine⟩
    · intro id ownerName balance member
      rw [recorded] at member
      rw [events]
      rcases List.mem_append.mp member with member | member
      · exact (sound.founded id ownerName balance member).saved single allowed holds refused
      · obtain ⟨rfl, rfl⟩ := Prod.mk.inj (List.mem_singleton.mp member)
        cases single
        rcases allowed with updates | creates
        · exact absurd rfl updates.other
        · exact founded_by_create creates.absent (holds rfl)

end BankingEs.Proofs.Founding
