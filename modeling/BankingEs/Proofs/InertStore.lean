import BankingEs.Proofs.BulkInsert
import BankingEs.Proofs.WritePath

/-! No insert of the write path ever succeeds, so no run of it stores anything. -/

namespace BankingEs.Proofs.InertStore
open Relation Async EventStore BankingEs.WritePath Preparation Proofs.WritePath

variable {Value : Type} {config : EventStoreConfig} {path before after : WritePath Value}

section Insert

/-- A row at the latest version of its aggregate violates the constraint. -/
theorem latest_conflicts {table : Table Value} {row : Event Value}
    (latest : table.latestVersion row.aggregateId = some row.version) : table.Conflicts [row] := by
  obtain ⟨⟨other, member, owner, same⟩, _⟩ := (Table.latestVersion_eq_some_iff _ _ _).mp latest
  refine .inr ⟨row, List.mem_singleton_self row, List.mem_map.mpr ⟨other, member, ?_⟩⟩
  rw [Event.key, Event.key, owner, same]

/-- The expected version is that of the first row. A single row that passes the check is taken,
and of several rows the first is not the one the sequence test wants. -/
theorem insertLoop_fails (database : Database) (first : Event Value) (rest : List (Event Value)) (lastVersion : Int)
    (retries : Nat) (session : Session Value) :
    ∃ error, (insertLoop database (first :: rest) first.aggregateId first.version lastVersion retries session).1 =
      .error error := by
  induction retries using Nat.strongRecOn generalizing session with
  | ind retries ih =>
    unfold insertLoop
    rcases BulkInsert.selectVersion_cases database first.aggregateId session.tx with
      ⟨error, tx, read, _, _⟩ | ⟨usable, read⟩
    · exact ⟨_, by rw [read]⟩
    · rw [read]
      cases found : session.tx.visible.latestVersion first.aggregateId with
      | none => exact ⟨_, rfl⟩
      | some current =>
        dsimp only
        split
        · exact ⟨_, rfl⟩
        · next same =>
          obtain rfl := not_not.mp same
          cases rest with
          | cons second rest =>
            obtain ⟨message, refused⟩ := BulkInsert.sequenceError_pair first second rest
            exact ⟨_, by rw [refused]⟩
          | nil =>
            have alone : sequenceError first.version [first] = none := rfl
            rw [alone]
            rcases BulkInsert.execute_cases database [first] { session.tx with sent := session.tx.sent + 1 } with
              ⟨error, tx, wrote, _, _⟩ | ⟨_, free, _⟩
            · simp only [wrote]
              split
              · exact ⟨_, rfl⟩
              · split
                · split
                  · exact ⟨_, rfl⟩
                  · exact ih _ (by omega) _
                · exact ⟨_, rfl⟩
            · exact absurd (latest_conflicts found) free

/-- Whatever the database does, an insert fails and adds nothing to its transaction. -/
theorem bulkInsert_fails (database : Database) {rows : List (Event Value)} (nonempty : rows ≠ [])
    (session : Session Value) :
    (∃ error, (bulkInsertEventsOptimized database rows session).1 = .error error) ∧
      (bulkInsertEventsOptimized database rows session).2.tx.inserted = session.tx.inserted := by
  have fails : ∃ error, (bulkInsertEventsOptimized database rows session).1 = .error error := by
    obtain ⟨first, rest, rfl⟩ := List.exists_cons_of_ne_nil nonempty
    have last := List.getLast?_eq_some_getLast nonempty
    simp only [bulkInsertEventsOptimized, List.head?_cons, last]
    split
    · exact ⟨_, rfl⟩
    · exact insertLoop_fails _ _ _ _ _ _
  refine ⟨fails, ?_⟩
  obtain ⟨error, failed⟩ := fails
  cases ended : bulkInsertEventsOptimized database rows session with
  | mk result after =>
    have ends := BulkInsert.bulkInsert_ended database rows nonempty session after result ended
    rw [ended] at failed
    obtain rfl : result = .error error := failed
    cases ends with
    | refused _ _ kept => exact kept
    | failed _ kept => exact kept

/-- So does a request that is validated and handled first. -/
theorem insertResult_fails {calls : Calls Value} {database : Database}
    (inserts : calls.insert = fun _ => bulkInsertEventsOptimized database) (position : Nat) {rows : List (Event Value)}
    (nonempty : rows ≠ []) (session : Session Value) :
    (∃ error, (insertResult calls position rows session).1 = .error error) ∧
      (insertResult calls position rows session).2.tx.inserted = session.tx.inserted := by
  unfold insertResult
  split
  · exact ⟨⟨_, rfl⟩, rfl⟩
  · split
    · exact ⟨⟨_, rfl⟩, rfl⟩
    · rw [inserts]
      exact bulkInsert_fails database nonempty session

end Insert

section Storage

/-- Nothing was stored or will be by the flushes that run, and nothing but errors was answered. -/
structure Inert (table : Table Value) (path : WritePath Value) : Prop where
  committed : path.committed = table
  filled : ∀ request ∈ path.outstanding, request.events ≠ []
  empty : ∀ task ∈ path.tasks, ∀ tx, task.tx = some tx → tx.inserted = []
  replies : ∀ entry ∈ path.replies, ∃ error, entry.2 = .error error
  results : ∀ entry ∈ path.results, ∃ error, entry.2 = .error error

theorem Inert.new (config : EventStoreConfig) (table : Table Value) : Inert table (.new config table) := by
  constructor <;> simp [WritePath.new, WritePath.outstanding]

private theorem Inert.result {table : Table Value} (inert : Inert table path) (caller : Nat) :
    ∃ error, path.result caller = .error error := by
  rcases result_cases path caller with sent | ⟨_, closed⟩
  · exact inert.replies _ sent
  · exact ⟨_, closed⟩

private theorem effect_filled (effect : Effect before after)
    (filled : ∀ request ∈ before.outstanding, request.events ≠ []) :
    ∀ request ∈ after.outstanding, request.events ≠ [] := by
  intro request member
  cases effect with
  | sent sent fresh nonempty requests =>
    rcases List.mem_cons.mp (requests.subset member) with rfl | member
    · exact nonempty
    · exact filled request member
  | moved requests => exact filled request (requests.subset member)
  | answered answered reply requests => exact filled request (requests.symm.subset (List.mem_cons_of_mem _ member))
  | left caller waits requests => exact filled request (requests ▸ member)

private theorem wake_stores (wake : Wake) :
    (path.wake config wake).committed = path.committed ∧
      ∀ task ∈ (path.wake config wake).tasks, task ∈ path.tasks ∨ task.tx = none := by
  have spawned (path : WritePath Value) : ∀ task ∈ path.spawn.tasks, task ∈ path.tasks ∨ task.tx = none := by
    intro task member
    rcases List.mem_append.mp member with member | member
    · exact .inl member
    · obtain rfl := List.mem_singleton.mp member
      exact .inr rfl
  cases wake with
  | received request =>
    simp only [WritePath.wake]
    split
    · exact ⟨rfl, spawned _⟩
    · exact ⟨rfl, fun task member => .inl member⟩
  | timeout =>
    simp only [WritePath.wake]
    split
    · exact ⟨rfl, fun task member => .inl member⟩
    · exact ⟨rfl, spawned _⟩

private theorem Inert.wake {table : Table Value} (inert : Inert table path) (wake : Wake)
    (filled : ∀ request ∈ (path.wake config wake).outstanding, request.events ≠ []) :
    Inert table (path.wake config wake) := by
  obtain ⟨committed, tasks⟩ := @wake_stores _ config path wake
  obtain ⟨_, _, _, replies, results⟩ := @wake_effect _ config path wake
  refine ⟨committed.trans inert.committed, filled, ?_, replies ▸ inert.replies, results ▸ inert.results⟩
  intro task member tx begun
  rcases tasks task member with old | fresh
  · exact inert.empty task old tx begun
  · cases fresh.symm.trans begun

private theorem Inert.fewer {table : Table Value} (inert : Inert table path) {earlier later : List (FlushTask Value)}
    {task : FlushTask Value} (running : path.tasks = earlier ++ task :: later) :
    ∀ other ∈ earlier ++ later, ∀ tx, other.tx = some tx → tx.inserted = [] := by
  intro other member
  apply inert.empty
  rw [running]
  exact (List.Sublist.append_left (List.sublist_cons_self task later) earlier).subset member

private theorem prepare_nonempty {calls : Calls Value} {position : Nat} {request : BatchedEvent}
    {rows : List (Event Value)}
    (prepared : calls.prepare position request = .ok rows) (filled : request.events ≠ []) : rows ≠ [] := by
  have same := (prepareFrom_numbered prepared).length_eq
  intro none
  rw [none, List.length_nil] at same
  exact filled (List.length_eq_zero_iff.mp same.symm)

private theorem Inert.answer {table : Table Value} (inert : Inert table path) {calls : Calls Value}
    {database : Database}
    (inserts : calls.insert = fun _ => bulkInsertEventsOptimized database) {earlier later : List (FlushTask Value)}
    {task : FlushTask Value} {tx : Transaction Value} {request : BatchedEvent} {rest : List BatchedEvent}
    {rows : List (Event Value)} (running : path.tasks = earlier ++ task :: later) (begun : task.tx = some tx)
    (next : task.rest = request :: rest) (prepared : calls.prepare task.position request = .ok rows) :
    (∀ other ∈ (path.answer calls earlier later task.position tx request rest rows).tasks,
      ∀ tx, other.tx = some tx → tx.inserted = []) ∧
    ∀ entry ∈ (path.answer calls earlier later task.position tx request rest rows).replies,
      ∃ error, entry.2 = .error error := by
  have runs : task ∈ path.tasks := by
    rw [running]
    simp
  have outstanding : request ∈ path.outstanding := by
    rw [outstanding_tasks running, next]
    simp
  have nonempty := prepare_nonempty prepared (inert.filled request outstanding)
  obtain ⟨⟨error, failed⟩, kept⟩ := insertResult_fails inserts task.position nonempty (path.session tx)
  refine ⟨?_, ?_⟩
  · intro other member now state
    rcases List.mem_append.mp member with member | member
    · exact inert.empty other (by rw [running]; exact List.mem_append_left _ member) now state
    · rcases List.mem_cons.mp member with rfl | member
      · obtain rfl := Option.some.inj state
        exact kept.trans (inert.empty task runs tx begun)
      · refine inert.empty other ?_ now state
        rw [running]
        exact List.mem_append_right _ (List.mem_cons_of_mem _ member)
  · intro entry member
    rcases List.mem_append.mp member with member | member
    · exact inert.replies entry member
    · obtain rfl := List.mem_singleton.mp member
      exact ⟨error, failed⟩

theorem moves_inert {table : Table Value} (moves : Moves config before after) (inert : Inert table before) :
    Inert table after := by
  have filled := effect_filled (moves_effect moves) inert.filled
  rcases moves with step | drops
  · cases step with
    | sends => exact ⟨inert.committed, filled, inert.empty, inert.replies, inert.results⟩
    | @receives request rest channel =>
      have fewer : Inert table { before with channel := rest } := by
        refine ⟨inert.committed, ?_, inert.empty, inert.replies, inert.results⟩
        intro other member
        apply inert.filled
        rw [WritePath.outstanding, channel]
        exact List.mem_cons_of_mem _ member
      exact fewer.wake _ filled
    | timeout => exact inert.wake _ filled
    | @begins earlier later task running waits =>
      refine ⟨inert.committed, filled, ?_, inert.replies, inert.results⟩
      intro other member tx begun
      rcases List.mem_append.mp member with old | member
      · exact inert.fewer running other (List.mem_append_left _ old) tx begun
      · rcases List.mem_cons.mp member with rfl | old
        · obtain rfl := Option.some.inj begun
          rfl
        · exact inert.fewer running other (List.mem_append_right _ old) tx begun
    | answers calls database inserts running begun next prepared =>
      obtain ⟨empty, replies⟩ := inert.answer inserts running begun next prepared
      exact ⟨inert.committed, filled, empty, replies, inert.results⟩
    | @commits earlier later task tx running begun finished =>
      refine ⟨?_, filled, inert.fewer running, inert.replies, inert.results⟩
      have nothing := inert.empty task (by rw [running]; simp) tx begun
      simp [WritePath.commit, nothing, inert.committed]
    | fails running fails => exact ⟨inert.committed, filled, inert.fewer running, inert.replies, inert.results⟩
    | @returns caller waits settled =>
      refine ⟨inert.committed, filled, inert.empty, inert.replies, ?_⟩
      intro entry member
      rcases List.mem_append.mp member with member | member
      · exact inert.results entry member
      · obtain rfl := List.mem_singleton.mp member
        exact inert.result caller
  · obtain ⟨waits⟩ := drops
    exact ⟨inert.committed, filled, inert.empty, inert.replies, inert.results⟩

/-- Over any run, whatever the callers ask for, whichever flushes run at once and whatever the
database answers: the table stays as it was, and every reply and every result is an error. -/
theorem write_path_stores_nothing {table : Table Value} (run : ReflTransGen (Moves config) (.new config table) path) :
    path.committed = table ∧ (∀ id reply, (id, reply) ∈ path.replies → ∃ error, reply = .error error) ∧
      ∀ id result, (id, result) ∈ path.results → ∃ error, result = .error error := by
  have inert := preserved_by_steps (fun _ _ moves => moves_inert moves) run (.new config table)
  exact ⟨inert.committed, fun id reply sent => inert.replies _ sent, fun id result returned => inert.results _ returned⟩

theorem refused_save_stores_nothing : ∃ path : WritePath AccountEvent,
    ReflTransGen (Moves ⟨1, 1⟩) (.new ⟨1, 1⟩ []) path ∧ path.results.length = 1 ∧ path.committed = [] := by
  obtain ⟨path, run, _, results⟩ := refused_save
  exact ⟨path, run, by rw [results]; rfl, (write_path_stores_nothing run).1⟩

end Storage

end BankingEs.Proofs.InertStore
