import Mathlib.Data.List.Pairwise
import BankingEs.Proofs.AccountLog
import BankingEs.Proofs.Pipeline

/-! A batch that is delivered again, late or out of order is not stored again: what was
stored lies below the committed version, and only the committed version is accepted. -/

namespace BankingEs.Proofs.BatchStorage
open Async BankingEs.Pipeline KafkaEventProcessor Pipeline

variable {ι Value : Type} {codec : Codec Value} {table rows : Table Value} {id other : Uuid} {events : List AccountEvent}
  {version : Int}

/-- A row is not above the committed version. -/
theorem version_le_currentVersion {row : Event Value} (member : row ∈ table) (owner : row.aggregateId = id) :
    row.version ≤ table.currentVersion id := by
  cases latest : table.latestVersion id with
  | none => exact absurd owner ((Table.latestVersion_eq_none_iff _ _).mp latest row member)
  | some version =>
    rw [Table.currentVersion, latest]
    exact ((Table.latestVersion_eq_some_iff _ _ _).mp latest).2 row member owner

/-- A save with events at the committed version moves the committed version on. -/
theorem lt_currentVersion_append (holds : Holds codec id version events rows) (nonempty : events ≠ []) :
    version < (table ++ rows).currentVersion id := by
  have inside : 0 < rows.length := by
    rw [holds.length]
    exact List.length_pos_of_ne_nil nonempty
  obtain ⟨_, _, owner, number, _⟩ := holds.at_index (List.getElem?_eq_getElem inside)
  have bound := version_le_currentVersion (List.mem_append_right table (List.getElem_mem inside)) owner
  omega

private theorem currentVersion_append_other (holds : Holds codec id version events rows) (differs : id ≠ other) :
    (table ++ rows).currentVersion other = table.currentVersion other := by
  rw [Table.currentVersion, Table.latestVersion, Table.rowsOf_append, rowsOf_other holds differs, List.append_nil]
  rfl

/-- The requests whose events were stored. A request without events has none to store. -/
def storedSaves (world : World ι Value) : List SaveRequest :=
  (world.saves.filter fun save => save.2 && save.1.events ≠ []).map Prod.fst

/-- The versions at which an account's events were stored grow, and stay below the committed one. -/
structure Climbs (world : World ι Value) : Prop where
  below : ∀ request ∈ storedSaves world, request.expectedVersion < world.events.currentVersion request.aggregateId
  grows : (storedSaves world).Pairwise fun first second =>
    first.aggregateId = second.aggregateId → first.expectedVersion < second.expectedVersion

private theorem Climbs.of_same {before after : World ι Value} (climbs : Climbs before)
    (events : after.events = before.events)
    (saves : storedSaves after = storedSaves before) : Climbs after := by
  obtain ⟨below, grows⟩ := climbs
  exact ⟨by rwa [saves, events], by rwa [saves]⟩

private theorem Climbs.store {before after : World ι Value} {request : SaveRequest} {rows : Table Value}
    (climbs : Climbs before)
    (current : request.expectedVersion = before.events.currentVersion request.aggregateId)
    (holds : Holds codec request.aggregateId request.expectedVersion request.events rows) (nonempty : request.events ≠ [])
    (events : after.events = before.events ++ rows) (saves : storedSaves after = storedSaves before ++ [request]) :
    Climbs after := by
  have above (old : SaveRequest) (member : old ∈ storedSaves before) (same : old.aggregateId = request.aggregateId) :
      old.expectedVersion < request.expectedVersion := by
    rw [current, ← same]
    exact climbs.below old member
  refine ⟨?_, ?_⟩
  · intro stored member
    rw [events]
    rw [saves, List.mem_append, List.mem_singleton] at member
    by_cases same : request.aggregateId = stored.aggregateId
    · have moved : request.expectedVersion < (before.events ++ rows).currentVersion request.aggregateId :=
        lt_currentVersion_append holds nonempty
      rw [← same]
      rcases member with member | rfl
      · exact (above stored member same.symm).trans moved
      · exact moved
    · rcases member with member | rfl
      · rw [currentVersion_append_other holds same]
        exact climbs.below stored member
      · exact absurd rfl same
  · rw [saves, List.pairwise_append]
    refine ⟨climbs.grows, List.pairwise_singleton _ _, ?_⟩
    intro old member new stored same
    obtain rfl := List.mem_singleton.mp stored
    exact above old member same

/-- A save stores nothing, or the events of its request at the committed version. -/
private theorem saves_stores {fails : Prop} {before after : World ι Value} {request : SaveRequest}
    (saved : World.Saves (locking codec fails) before request after) :
    (after.events = before.events ∧ storedSaves after = storedSaves before) ∨
      ∃ rows, request.expectedVersion = before.events.currentVersion request.aggregateId ∧
        Holds codec request.aggregateId request.expectedVersion request.events rows ∧ request.events ≠ [] ∧
        after.events = before.events ++ rows ∧ storedSaves after = storedSaves before ++ [request] := by
  cases saved with
  | refused => exact .inl ⟨rfl, by simp [storedSaves]⟩
  | @stored rows accepted holds =>
    by_cases empty : request.events = []
    · have none : rows = [] := List.length_eq_zero_iff.mp (by rw [holds.length, empty, List.length_nil])
      exact .inl ⟨by rw [none, List.append_nil], by simp [storedSaves, empty]⟩
    · exact .inr ⟨rows, accepted, holds, empty, rfl, by simp [storedSaves, empty]⟩

private theorem serves_stores {fails : Prop} {caller : ι} {β : Type} {op : SystemCall Value β} {reply : β}
    {before after : BankingEs.Pipeline ι Value}
    (served : serves (savingStore (locking codec fails)) (locking codec fails) caller before op reply after) :
    (after.world.events = before.world.events ∧ storedSaves after.world = storedSaves before.world) ∨
      ∃ request rows, request.expectedVersion = before.world.events.currentVersion request.aggregateId ∧
        Holds codec request.aggregateId request.expectedVersion request.events rows ∧ request.events ≠ [] ∧
        after.world.events = before.world.events ++ rows ∧
        storedSaves after.world = storedSaves before.world ++ [request] := by
  have kept (other : isSave op = false) :
      after.world.events = before.world.events ∧ storedSaves after.world = storedSaves before.world := by
    obtain ⟨events, saves⟩ := serves_unsaved other served
    exact ⟨events, by rw [storedSaves, storedSaves, saves]⟩
  cases op with
  | inr call => exact .inl (kept rfl)
  | inl call =>
    cases call with
    | saveEvents request =>
      obtain ⟨ready, waited, saved⟩ := serves_save served
      have events : ready.events = before.world.events := waited.events
      have saves : storedSaves ready = storedSaves before.world := by rw [storedSaves, storedSaves, waited.saves]
      rw [← events, ← saves]
      exact (saves_stores saved).imp_right fun stored => ⟨request, stored⟩
    | _ => exact .inl (kept rfl)

/-- The table, followed by the rows of the requests that were stored, once for each of them. -/
def Logged (codec : Codec Value) (table : Table Value) (world : World ι Value) : Prop :=
  ∃ blocks : List (Table Value), world.events = table ++ blocks.flatten ∧
    List.Forall₂ (fun request rows => Holds codec request.aggregateId request.expectedVersion request.events rows)
      (storedSaves world) blocks

private theorem Logged.store {before after : World ι Value} {request : SaveRequest} (logged : Logged codec table before)
    (holds : Holds codec request.aggregateId request.expectedVersion request.events rows)
    (events : after.events = before.events ++ rows) (saves : storedSaves after = storedSaves before ++ [request]) :
    Logged codec table after := by
  obtain ⟨blocks, log, stored⟩ := logged
  refine ⟨blocks ++ [rows], ?_, ?_⟩
  · rw [events, log, List.flatten_append, List.flatten_singleton, List.append_assoc]
  · rw [saves]
    exact List.rel_append stored (.cons holds .nil)

private theorem saveRequest_injective {batch other : EventBatch} (same : batch.saveRequest = other.saveRequest) :
    batch = other := by
  cases batch
  cases other
  simpa [EventBatch.saveRequest] using same

/-- Any number of deliveries to the event processor, over a store that locks optimistically. -/
abbrev Deliveries [DecidableEq ι] (codec : Codec Value) (fails : Prop) (batches : ι → EventBatch) :=
  Interleaves (fun caller => serves (savingStore (locking codec fails)) (locking codec fails) caller)
    (fun delivery => processBatch (batches delivery))

/-- Not of one account at one version. -/
def Apart (first second : SaveRequest) : Prop :=
  first.aggregateId = second.aggregateId → first.expectedVersion ≠ second.expectedVersion

instance : Std.Symm Apart := ⟨fun _ _ apart same => (apart same.symm).symm⟩

/-- Whatever is delivered, however often and in whatever interleaving, no batch is
stored twice, and no two batches of an account are stored at one version. The rows of the
log are those of the batches that were stored. -/
theorem stored_at_most_once [DecidableEq ι] {fails : Prop} (batches : ι → EventBatch)
    {first last : BankingEs.Pipeline ι Value} {history : List (Served ι (SystemCall Value) (BankingEs.Pipeline ι Value))}
    {threads : ι → Program (SystemCall Value) (Except String Unit)}
    (run : Deliveries codec fails batches first history threads last) (unsaved : first.world.saves = []) :
    (∀ batch : EventBatch, (storedSaves last.world).count batch.saveRequest ≤ 1) ∧
      (∀ batch other : EventBatch, batch ≠ other → batch.accountId = other.accountId → batch.version = other.version →
        ¬ (batch.saveRequest ∈ storedSaves last.world ∧ other.saveRequest ∈ storedSaves last.world)) ∧
      Logged codec first.world.events last.world := by
  have none : storedSaves first.world = [] := by rw [storedSaves, unsaved, List.filter_nil, List.map_nil]
  have climbing : Climbs first.world := ⟨by simp [none], by simp [none]⟩
  have logging : Logged codec first.world.events first.world :=
    ⟨[], by rw [List.flatten_nil, List.append_nil], by rw [none]; exact .nil⟩
  obtain ⟨climbs, logged⟩ : Climbs last.world ∧ Logged codec first.world.events last.world := by
    refine run.invariant (fun pipeline => Climbs pipeline.world ∧ Logged codec first.world.events pipeline.world) ?_
      ⟨climbing, logging⟩
    rintro _ _ _ _ _ _ served ⟨climbs, logged⟩
    rcases serves_stores served with ⟨events, saves⟩ | ⟨_, _, current, holds, nonempty, events, saves⟩
    · exact ⟨climbs.of_same events saves, by rwa [Logged, events, saves]⟩
    · exact ⟨climbs.store current holds nonempty events saves, logged.store holds events saves⟩
  have apart : (storedSaves last.world).Pairwise Apart :=
    climbs.grows.imp fun grows same => (grows same).ne
  refine ⟨?_, ?_, logged⟩
  · intro batch
    refine List.nodup_iff_count_le_one.mp (apart.imp ?_) _
    rintro first second differs rfl
    exact differs rfl rfl
  · rintro batch other differs account version ⟨stored, storedOther⟩
    exact apart.forall stored storedOther (fun same => differs (saveRequest_injective same)) account version

theorem stored_once_sample :
    let batch : EventBatch := ⟨⟨1⟩, [.accountCreated ⟨1⟩ "" 0], 0⟩
    ∃ history threads, ∃ last : BankingEs.Pipeline Bool AccountEvent,
      Deliveries .plain False (fun _ => batch) {} history threads last ∧
      batch.saveRequest ∈ storedSaves last.world ∧ (storedSaves last.world).count batch.saveRequest ≤ 1 := by
  intro batch
  let rows : Table AccountEvent := [plainRow ⟨1⟩ 1 (.accountCreated ⟨1⟩ "" 0)]
  let stored : BankingEs.Pipeline Bool AccountEvent := { world := { events := rows, saves := [(batch.saveRequest, true)] } }
  let refused : BankingEs.Pipeline Bool AccountEvent :=
    { world := { events := rows, saves := [(batch.saveRequest, true), (batch.saveRequest, false)] } }
  have holds : Holds .plain ⟨1⟩ 0 batch.events rows := rfl
  have saved : serves (savingStore (locking .plain False)) (locking .plain False) true {}
      (.inl (.saveEvents batch.saveRequest)) (.ok ()) stored := ⟨{}, .waits le_rfl, _, .stored rfl holds, rfl⟩
  have again : serves (savingStore (locking .plain False)) (locking .plain False) false stored
      (.inl (.saveEvents batch.saveRequest)) (.error (.internalError "")) refused :=
    ⟨stored.world, .waits le_rfl, _, .refused, rfl⟩
  have once : ∃ history threads, Deliveries .plain False (fun _ => batch) {} history threads stored ∧
      threads false = processBatch batch :=
    ⟨_, _, .serve true _ .start rfl saved, rfl⟩
  obtain ⟨_, _, run, waiting⟩ := once
  have run := Interleaves.serve false _ run waiting again
  exact ⟨_, _, _, run, by decide, (stored_at_most_once _ run rfl).1 batch⟩

end BankingEs.Proofs.BatchStorage
