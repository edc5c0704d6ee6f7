import BankingEs.Application.Repository

/-! The log of one account, read off the events table in version order, and how
it grows when the store appends rows. -/

namespace BankingEs
open AccountRepository

variable {Value Amount : Type}

/-- The rows of an account in version order. -/
def Table.ordered (table : Table Value) (aggregateId : Uuid) : Table Value :=
  (table.rowsOf aggregateId).insertionSort (fun first second => first.version ≤ second.version)

/-- The stored events of an account are `log`, under the versions from one on. -/
def Logs (codec : Codec Value Amount) (table : Table Value) (aggregateId : Uuid) (log : List (AccountEvent Amount)) :
    Prop :=
  Holds codec aggregateId 0 log (table.ordered aggregateId)

instance : IsTrans (Event Value) fun first second => first.version ≤ second.version := ⟨fun _ _ _ => le_trans⟩

instance : Std.Total fun first second : Event Value => first.version ≤ second.version := ⟨fun _ _ => le_total _ _⟩

private theorem sort_append {α : Type} (r : α → α → Prop) [DecidableRel r] {old new : List α}
    (apart : ∀ first ∈ old, ∀ second ∈ new, r first second) (sorted : new.Pairwise r) :
    (old ++ new).insertionSort r = old.insertionSort r ++ new := by
  have insert (first : α) (rest : List α) (before : ∀ second ∈ new, r first second) :
      (rest ++ new).orderedInsert r first = rest.orderedInsert r first ++ new := by
    induction rest with
    | nil =>
      cases new with
      | nil => rfl
      | cons second new => simp [before second List.mem_cons_self]
    | cons second rest ih =>
      by_cases here : r first second
      · simp [here]
      · simp [here, ih]
  induction old with
  | nil => simpa using sorted.insertionSort_eq
  | cons first old ih =>
    rw [List.cons_append, List.insertionSort_cons, List.insertionSort_cons,
      ih (fun other member => apart other (List.mem_cons_of_mem _ member))]
    exact insert first _ (apart first List.mem_cons_self)

private theorem orderedInsert_least {α : Type} (r : α → α → Prop) [DecidableRel r] {first : α} {rest : List α}
    (least : ∀ second ∈ rest, r first second) : rest.orderedInsert r first = first :: rest := by
  cases rest with
  | nil => rfl
  | cons second rest => exact List.orderedInsert_cons_of_le _ rest (least second List.mem_cons_self)

private theorem filter_orderedInsert {α : Type} (r : α → α → Prop) [DecidableRel r] [IsTrans α r] (keep : α → Bool)
    (first : α) {rest : List α} (sorted : rest.Pairwise r) :
    (rest.orderedInsert r first).filter keep =
      if keep first then (rest.filter keep).orderedInsert r first else rest.filter keep := by
  induction rest with
  | nil => by_cases kept : keep first <;> simp [kept]
  | cons second rest ih =>
    obtain ⟨above, sorted⟩ := List.pairwise_cons.mp sorted
    by_cases here : r first second
    · have least : ∀ other ∈ second :: rest, r first other := by
        intro other member
        rcases List.mem_cons.mp member with rfl | member
        · exact here
        · exact IsTrans.trans _ _ _ here (above other member)
      rw [orderedInsert_least r least, List.filter_cons]
      split
      next => rw [orderedInsert_least r fun other member => least other (List.mem_of_mem_filter member)]
      next => rfl
    · rw [List.orderedInsert_of_not_le _ rest here, List.filter_cons, List.filter_cons, ih sorted]
      by_cases kept : keep second <;> by_cases mine : keep first <;> simp [kept, mine, here]

/-- The query may select before it sorts or after. -/
theorem filter_insertionSort {α : Type} (r : α → α → Prop) [DecidableRel r] [IsTrans α r] [Std.Total r]
    (keep : α → Bool) (list : List α) : (list.filter keep).insertionSort r = (list.insertionSort r).filter keep := by
  induction list with
  | nil => rfl
  | cons first rest ih =>
    rw [List.insertionSort_cons, filter_orderedInsert r keep first (List.pairwise_insertionSort r rest), List.filter_cons]
    by_cases kept : keep first <;> simp [kept, ih]

namespace Holds
variable {codec : Codec Value Amount} {aggregateId : Uuid} {version : Int} {events : List (AccountEvent Amount)} {rows : Table Value}

theorem length (holds : Holds codec aggregateId version events rows) : rows.length = events.length := by
  simpa using congrArg List.length holds

theorem at_index (holds : Holds codec aggregateId version events rows) {index : Nat} {row : Event Value}
    (found : rows[index]? = some row) : ∃ event, events[index]? = some event ∧ row.aggregateId = aggregateId ∧
      row.version = version + index + 1 ∧ codec.fromValue row.eventData = .ok event := by
  have same := congrArg (fun list => list[index]?) holds
  simp only [List.getElem?_map, List.getElem?_mapIdx, found, Option.map_some] at same
  obtain ⟨event, stored, fields⟩ := Option.map_eq_some_iff.mp same.symm
  simp only [Prod.mk.injEq] at fields
  exact ⟨event, stored, fields.1.symm, fields.2.1.symm, fields.2.2.symm⟩

theorem member (holds : Holds codec aggregateId version events rows) {row : Event Value} (member : row ∈ rows) :
    ∃ index event, index < events.length ∧ event ∈ events ∧ row.aggregateId = aggregateId ∧
      row.version = version + index + 1 ∧ codec.fromValue row.eventData = .ok event := by
  obtain ⟨index, found⟩ := List.mem_iff_getElem?.mp member
  obtain ⟨event, stored, fields⟩ := holds.at_index found
  exact ⟨index, event, (List.getElem?_eq_some_iff.mp stored).1, List.mem_of_getElem? stored, fields⟩

theorem decoded (holds : Holds codec aggregateId version events rows) :
    rows.map (fun row => codec.fromValue row.eventData) = events.map .ok := by
  apply List.ext_getElem?
  intro index
  have same := congrArg (fun list => list[index]?) holds
  simp only [List.getElem?_map, List.getElem?_mapIdx] at same ⊢
  cases stored : rows[index]? with
  | none =>
    rw [stored, Option.map_none, eq_comm, Option.map_eq_none_iff] at same
    rw [same]
    rfl
  | some row =>
    obtain ⟨event, found, _, _, reads⟩ := holds.at_index stored
    rw [found, Option.map_some, Option.map_some, reads]

private theorem sorted (holds : Holds codec aggregateId version events rows) :
    rows.Pairwise (fun first second => first.version ≤ second.version) := by
  rw [List.pairwise_iff_getElem]
  intro first second firstInside secondInside order
  obtain ⟨_, _, _, here, _⟩ := holds.at_index (List.getElem?_eq_getElem firstInside)
  obtain ⟨_, _, _, there, _⟩ := holds.at_index (List.getElem?_eq_getElem secondInside)
  rw [here, there]
  omega

private theorem append {more : List (AccountEvent Amount)} {added : Table Value}
    (holds : Holds codec aggregateId version events rows)
    (next : Holds codec aggregateId (version + events.length) more added) :
    Holds codec aggregateId version (events ++ more) (rows ++ added) := by
  rw [Holds, List.map_append, List.mapIdx_append, holds, next]
  congr 2
  funext index event
  simp only [Nat.cast_add]
  congr 2
  omega

end Holds

section Rows
variable {codec : Codec Value Amount} {aggregateId other : Uuid} {version : Int} {events : List (AccountEvent Amount)}
  {rows table : Table Value}

theorem rowsOf_own (holds : Holds codec aggregateId version events rows) : rows.rowsOf aggregateId = rows := by
  apply List.filter_eq_self.mpr
  intro row member
  obtain ⟨_, _, _, _, owner, _⟩ := holds.member member
  simpa using owner

theorem rowsOf_apart (apart : ∀ row ∈ rows, row.aggregateId ≠ aggregateId) : rows.rowsOf aggregateId = [] := by
  apply List.filter_eq_nil_iff.mpr
  intro row member
  simpa using apart row member

theorem rowsOf_other (holds : Holds codec other version events rows) (differs : other ≠ aggregateId) :
    rows.rowsOf aggregateId = [] := by
  apply rowsOf_apart
  intro row member
  obtain ⟨_, _, _, _, owner, _⟩ := holds.member member
  rwa [owner]

end Rows

namespace Logs
variable {codec : Codec Value Amount} {table rows : Table Value} {aggregateId other : Uuid} {log events : List (AccountEvent Amount)}
  {version : Int}

theorem mem_ordered {row : Event Value} : row ∈ table.ordered aggregateId ↔ row ∈ table.rowsOf aggregateId :=
  List.mem_insertionSort _

private theorem version_bounds (logs : Logs codec table aggregateId log) {row : Event Value}
    (member : row ∈ table.rowsOf aggregateId) : 1 ≤ row.version ∧ row.version ≤ log.length := by
  obtain ⟨index, _, inside, _, _, number, _⟩ := Holds.member logs (mem_ordered.mpr member)
  rw [number]
  omega

private theorem unchanged (logs : Logs codec table aggregateId log)
    (same : (table ++ rows).rowsOf aggregateId = table.rowsOf aggregateId) :
    Logs codec (table ++ rows) aggregateId log := by
  rwa [Logs, Table.ordered, same]

theorem append (logs : Logs codec table aggregateId log)
    (holds : Holds codec aggregateId log.length events rows) : Logs codec (table ++ rows) aggregateId (log ++ events) := by
  have grown : (table ++ rows).ordered aggregateId = table.ordered aggregateId ++ rows := by
    rw [Table.ordered, Table.rowsOf_append, rowsOf_own holds]
    apply sort_append _ _ holds.sorted
    intro first firstMember second secondMember
    have low := (logs.version_bounds firstMember).2
    obtain ⟨index, _, _, _, _, number, _⟩ := holds.member secondMember
    omega
  rw [Logs, grown]
  exact Holds.append logs (by simpa using holds)

theorem append_other (logs : Logs codec table aggregateId log) (holds : Holds codec other version events rows)
    (differs : other ≠ aggregateId) : Logs codec (table ++ rows) aggregateId log := by
  apply logs.unchanged
  rw [Table.rowsOf_append, rowsOf_other holds differs, List.append_nil]

theorem unique (logs : Logs codec table aggregateId log) (again : Logs codec table aggregateId events) :
    log = events := by
  have same := (Holds.decoded logs).symm.trans (Holds.decoded again)
  exact List.map_injective_iff.mpr (fun _ _ equal => Except.ok.inj equal) same

theorem currentVersion (logs : Logs codec table aggregateId log) : table.currentVersion aggregateId = log.length := by
  rw [Table.currentVersion]
  cases log with
  | nil =>
    have empty : table.latestVersion aggregateId = none := by
      rw [Table.latestVersion_eq_none_iff]
      intro row member owner
      have bounds := logs.version_bounds (List.mem_filter.mpr ⟨member, by simpa using owner⟩)
      simp only [List.length_nil] at bounds
      omega
    rw [empty]
    rfl
  | cons first rest =>
    have latest : table.latestVersion aggregateId = some ((first :: rest).length : Int) := by
      rw [Table.latestVersion_eq_some_iff]
      have count := Holds.length logs
      have inside : rest.length < (table.ordered aggregateId).length := by
        rw [count, List.length_cons]
        omega
      obtain ⟨_, _, owner, number, _⟩ := Holds.at_index logs (List.getElem?_eq_getElem inside)
      have stored := mem_ordered.mp (List.getElem_mem inside)
      refine ⟨⟨_, (List.mem_filter.mp stored).1, owner, ?_⟩, ?_⟩
      · rw [number, List.length_cons]
        omega
      · intro row member owner
        exact (logs.version_bounds (List.mem_filter.mpr ⟨member, by simpa using owner⟩)).2
    rw [latest]
    rfl

end Logs

namespace Table
variable {codec : Codec Value Amount} {first middle last : Table Value}

/-- Every account has a log. -/
def Logged (codec : Codec Value Amount) (table : Table Value) : Prop := ∀ id, ∃ log, Logs codec table id log

/-- No log shrinks. -/
def Grows (codec : Codec Value Amount) (before after : Table Value) : Prop :=
  ∀ id log, Logs codec before id log → ∃ more, Logs codec after id (log ++ more)

theorem Grows.trans (earlier : Grows codec first middle) (later : Grows codec middle last) :
    Grows codec first last := by
  intro id log logs
  obtain ⟨more, grown⟩ := earlier id log logs
  obtain ⟨rest, grown⟩ := later id _ grown
  exact ⟨more ++ rest, by rwa [← List.append_assoc]⟩

theorem Grows.logged (grows : Grows codec first last) (logged : Logged codec first) : Logged codec last := by
  intro id
  obtain ⟨log, logs⟩ := logged id
  obtain ⟨more, grown⟩ := grows id log logs
  exact ⟨_, grown⟩

theorem Grows.append {id : Uuid} {log added : List (AccountEvent Amount)} {rows : Table Value}
    (logs : Logs codec first id log) (holds : Holds codec id log.length added rows) : Grows codec first (first ++ rows) := by
  intro other old kept
  by_cases mine : other = id
  · subst mine
    obtain rfl := kept.unique logs
    exact ⟨added, logs.append holds⟩
  · exact ⟨[], by rw [List.append_nil]; exact kept.append_other holds (Ne.symm mine)⟩

end Table

section Querying
variable {codec : Codec Value Amount} {table : Table Value} {id : Uuid} {log : List (AccountEvent Amount)}

/-- What the query returns for an account decodes to these events. -/
def Lists (codec : Codec Value Amount) (table : Table Value) (id : Uuid) (log : List (AccountEvent Amount)) : Prop :=
  (table.getEvents id none).map (fun row => codec.fromValue row.eventData) = log.map .ok

/-- The query returns the log's rows: all their versions pass its filter. -/
theorem Logs.getEvents (logs : Logs codec table id log) : Lists codec table id log := by
  have all : (table.rowsOf id).filter (fun row => (none : Option Int).getD (-1) < row.version) = table.rowsOf id := by
    apply List.filter_eq_self.mpr
    intro row member
    have low := (logs.version_bounds member).1
    simp only [Option.getD_none, decide_eq_true_eq]
    omega
  rw [Lists, Table.getEvents, all, List.map_map, ← Holds.decoded logs]
  rfl

end Querying

section Reading
variable {codec : Codec Value} {table : Table Value} {id : Uuid} {log : List AccountEvent}

/-- What `get_by_id` returns for an account with a given log. -/
def known (id : Uuid) (log : List AccountEvent) : Option Account :=
  if log = [] then none else some ((blank id).replay log)

theorem rehydrate_decoded (id : Uuid) {stored : List (Event Value)} {events : List AccountEvent}
    (decoded : stored.map (fun row => codec.fromValue row.eventData) = events.map .ok) :
    rehydrate codec id (.ok stored) = .ok (known id events) := by
  cases stored with
  | nil =>
    obtain rfl := List.map_eq_nil_iff.mp decoded.symm
    rfl
  | cons row stored =>
    cases events with
    | nil => cases decoded
    | cons event events =>
      rw [rehydrate_cons, Account.applyStored_decoded _ decoded]
      rfl

def numbered (log : List AccountEvent) : List (Int × AccountEvent) :=
  log.mapIdx fun index event => ((index : Int) + 1, event)

/-- The rows carry these versions and decode to these events. -/
def Decodes (codec : Codec Value) (rows : Table Value) (entries : List (Int × AccountEvent)) : Prop :=
  rows.map (fun row => (row.version, codec.fromValue row.eventData)) = entries.map fun entry => (entry.1, .ok entry.2)

theorem Decodes.reads {entries : List (Int × AccountEvent)}
    (decodes : Decodes codec (table.getEvents id none) entries) :
    Lists codec table id (entries.map Prod.snd) := by
  have events := congrArg (List.map Prod.snd) decodes
  simpa [Lists, Function.comp_def] using events

/-- The query returns the rows above the version that it is given. -/
theorem Decodes.getEvents_from {entries : List (Int × AccountEvent)} (stored : Decodes codec (table.ordered id) entries)
    (fromVersion : Option Int) :
    Decodes codec (table.getEvents id fromVersion) (entries.filter fun entry => fromVersion.getD (-1) < entry.1) := by
  have above := congrArg (List.filter fun entry => fromVersion.getD (-1) < entry.1) stored
  rw [List.filter_map, List.filter_map] at above
  rw [Decodes, Table.getEvents, filter_insertionSort, List.map_map]
  exact above

theorem Decodes.getEvents_all {entries : List (Int × AccountEvent)} (stored : Decodes codec (table.ordered id) entries)
    (positive : ∀ entry ∈ entries, 1 ≤ entry.1) : Decodes codec (table.getEvents id none) entries := by
  have all : entries.filter (fun entry => (none : Option Int).getD (-1) < entry.1) = entries := by
    apply List.filter_eq_self.mpr
    intro entry member
    have low := positive entry member
    simp only [Option.getD_none, decide_eq_true_eq]
    omega
  rw [← all]
  exact stored.getEvents_from none

private theorem Logs.ordered_decodes (logs : Logs codec table id log) : Decodes codec (table.ordered id)
    (numbered log) := by
  have fields := congrArg (List.map Prod.snd) logs
  simpa [Decodes, numbered, List.mapIdx_eq_zipIdx_map, Function.comp_def] using fields

theorem Logs.getEvents_from (logs : Logs codec table id log) (fromVersion : Option Int) :
    Decodes codec (table.getEvents id fromVersion) ((numbered log).filter fun entry => fromVersion.getD (-1) < entry.1) :=
  logs.ordered_decodes.getEvents_from fromVersion

theorem Logs.getEvents_all (logs : Logs codec table id log) : Decodes codec (table.getEvents id none)
    (numbered log) := by
  apply logs.ordered_decodes.getEvents_all
  intro entry member
  obtain ⟨index, _, rfl⟩ := List.mem_mapIdx.mp member
  dsimp only
  omega

theorem Logs.rehydrate (logs : Logs codec table id log) :
    AccountRepository.rehydrate codec id (.ok (table.getEvents id none)) = .ok (known id log) :=
  rehydrate_decoded id logs.getEvents

end Reading
end BankingEs
