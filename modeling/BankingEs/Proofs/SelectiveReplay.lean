import BankingEs.Proofs.RecoveryReplay

/-! Selective replay cuts the stored events of an account at the gaps in their versions. Nothing
is lost or sent twice, and each batch is as long as its versions allow. -/

namespace BankingEs.Proofs.SelectiveReplay
open Async AccountRepository BankingEs.Pipeline KafkaRecoveryStrategies RecoveryReplay

variable {ι Value : Type} {codec : Codec Value} {store : Store ι Value} {env : Environment Value} {caller : ι}
  {before : BankingEs.Pipeline ι Value} {id : Uuid} {entries : List (Int × AccountEvent)}

/-- The batches are the longest stretches of consecutive versions, in order, each under the version
of its last event. -/
structure Cut (id : Uuid) (entries : List (Int × AccountEvent)) (runs : List (List (Int × AccountEvent)))
    (batches : List EventBatch) : Prop where
  all : runs.flatten = entries
  consecutive : ∀ run ∈ runs, run.IsChain fun first second => second.1 = first.1 + 1
  gaps : runs.IsChain fun run next => ∃ last ∈ run.getLast?, ∃ first ∈ next.head?, last.1 + 1 < first.1
  nonempty : ∀ batch ∈ batches, batch.events ≠ []
  batches : List.Forall₂ (fun run (batch : EventBatch) => batch.accountId = id ∧ batch.events = run.map Prod.snd ∧
    ∃ last ∈ run.getLast?, batch.version = last.1) runs batches

private theorem gaps_splitBy (increasing : entries.Pairwise fun first second => first.1 < second.1) :
    (entries.splitBy follows).IsChain fun run next =>
      ∃ last ∈ run.getLast?, ∃ first ∈ next.head?, last.1 + 1 < first.1 := by
  have ordered := increasing
  rw [← List.flatten_splitBy follows entries] at ordered
  have between := (List.pairwise_flatten.mp ordered).2
  apply List.isChain_iff_getElem.mpr
  intro index inside
  obtain ⟨filled, filled', apart⟩ :=
    List.isChain_iff_getElem.mp (List.isChain_getLast_head_splitBy follows entries) index inside
  have before := List.pairwise_iff_getElem.mp between index (index + 1) (by omega) inside (by omega) _
    (List.getLast_mem filled) _ (List.head_mem filled')
  have apart := of_decide_eq_false apart
  exact ⟨_, List.getLast_mem_getLast? filled, _, List.head_mem_head? filled', by omega⟩

private theorem cut_splitBy (increasing : entries.Pairwise fun first second => first.1 < second.1) :
    Cut id entries (entries.splitBy follows) ((entries.splitBy follows).map (batchOf id)) := by
  refine ⟨List.flatten_splitBy follows entries, ?_, gaps_splitBy increasing, ?_, ?_⟩
  · intro run member
    exact (List.isChain_of_mem_splitBy member).imp fun _ _ joined => of_decide_eq_true joined
  · intro batch member
    obtain ⟨run, found, rfl⟩ := List.mem_map.mp member
    exact List.map_eq_nil_iff.not.mpr (List.ne_nil_of_mem_splitBy found)
  · apply List.forall₂_map_right_iff.mpr
    apply List.forall₂_same.mpr
    intro run member
    have last := List.getLast?_eq_some_getLast (List.ne_nil_of_mem_splitBy member)
    refine ⟨rfl, rfl, _, last, ?_⟩
    rw [batchOf, last]
    rfl

private theorem exists_decoded {rows : Table Value}
    (decodable : ∀ row ∈ rows, ∃ event, codec.fromValue row.eventData = .ok event) :
    ∃ entries, Decodes codec rows entries := by
  induction rows with
  | nil => exact ⟨[], rfl⟩
  | cons row rows ih =>
    obtain ⟨first, rest⟩ := List.forall_mem_cons.mp decodable
    obtain ⟨event, decoded⟩ := first
    obtain ⟨entries, decodes⟩ := ih rest
    refine ⟨(row.version, event) :: entries, ?_⟩
    rw [Decodes, List.map_cons, List.map_cons, decoded]
    exact congrArg _ decodes

private theorem mem_getEvents {table : Table Value} {row : Event Value} (member : row ∈ table.getEvents id none) :
    ∃ stored ∈ table, stored.eventData = row.eventData := by
  obtain ⟨stored, found, rfl⟩ := List.mem_map.mp member
  have found := (List.mem_filter.mp ((List.mem_insertionSort _).mp found)).1
  exact ⟨stored, (List.mem_filter.mp found).1, rfl⟩

private theorem filter_sent {batches : Uuid → List EventBatch} {ids : List Uuid} (distinct : ids.Nodup)
    (owners : ∀ other, ∀ batch ∈ batches other, batch.accountId = other) (sent : id ∈ ids ∨ batches id = []) :
    (ids.flatMap batches).filter (fun batch => batch.accountId = id) = batches id := by
  have own : (batches id).filter (fun batch => batch.accountId = id) = batches id := by
    apply List.filter_eq_self.mpr
    intro batch member
    simpa using owners id batch member
  have foreign (other : Uuid) (differs : other ≠ id) :
      (batches other).filter (fun batch => batch.accountId = id) = [] := by
    apply List.filter_eq_nil_iff.mpr
    intro batch member
    simpa [owners other batch member] using differs
  induction ids with
  | nil => simpa using sent
  | cons first ids ih =>
    obtain ⟨fresh, distinct⟩ := List.nodup_cons.mp distinct
    rw [List.flatMap_cons, List.filter_append]
    by_cases mine : first = id
    · subst mine
      have rest : (ids.flatMap batches).filter (fun batch => batch.accountId = first) = [] := by
        apply List.filter_eq_nil_iff.mpr
        intro batch member
        obtain ⟨other, inside, member⟩ := List.mem_flatMap.mp member
        rw [owners other batch member, decide_eq_true_eq]
        intro same
        rw [same] at inside
        exact fresh inside
      rw [own, rest, List.append_nil]
    · rw [foreign first mine, List.nil_append]
      apply ih distinct
      exact sent.imp_left fun member => (List.mem_cons.mp member).resolve_left (Ne.symm mine)

private theorem replayed_flatMap {logs : Uuid → List AccountEvent} {batches : Uuid → List EventBatch}
    (nothing : ∀ id, logs id = [] → batches id = []) (ids : List Uuid) :
    ((replayed logs ids).flatMap fun account => batches account.id) = ids.flatMap batches := by
  rw [replayed, List.flatMap_assoc]
  congr 1
  funext id
  by_cases empty : logs id = []
  · simp [known, empty, nothing id empty]
  · simp [known, empty, blank]

private theorem sent_for {read : Uuid → List (Int × AccountEvent)} {ids : List Uuid} (distinct : ids.Nodup)
    (sent : id ∈ ids ∨ read id = []) :
    (((replayed (fun id => (read id).map Prod.snd) ids).flatMap fun account =>
      ((read account.id).splitBy follows).map (batchOf account.id)).filter fun batch => batch.accountId = id) =
      ((read id).splitBy follows).map (batchOf id) := by
  have nothing (other : Uuid) (empty : (read other).map Prod.snd = []) :
      ((read other).splitBy follows).map (batchOf other) = [] := by
    rw [List.map_eq_nil_iff.mp empty]
    rfl
  have owners (other : Uuid) : ∀ batch ∈ ((read other).splitBy follows).map (batchOf other), batch.accountId = other := by
    intro batch member
    obtain ⟨run, _, rfl⟩ := List.mem_map.mp member
    rfl
  rw [replayed_flatMap nothing]
  apply filter_sent distinct owners
  exact sent.imp_right fun empty => by rw [empty]; rfl

private theorem targets_nodup (table : Table Value) (accountId : Option Uuid) : (targets table accountId).Nodup := by
  cases accountId with
  | some id => exact List.nodup_singleton id
  | none => exact (List.perm_insertionSort _ _).nodup_iff.mpr (List.nodup_dedup _)

private theorem exists_read {table : Table Value}
    (decodable : ∀ row ∈ table, ∃ event, codec.fromValue row.eventData = .ok event) :
    ∃ read : Uuid → List (Int × AccountEvent), ∀ id, Decodes codec (table.getEvents id none) (read id) := by
  apply Classical.skolem.mp
  intro id
  apply exists_decoded
  intro row member
  obtain ⟨original, inside, same⟩ := mem_getEvents member
  rw [← same]
  exact decodable original inside

private theorem decoded_unique {rows : Table Value} {again : List (Int × AccountEvent)}
    (decodes : Decodes codec rows entries)
    (decodes' : Decodes codec rows again) : entries = again := by
  refine List.map_injective_iff.mpr ?_ (decodes.symm.trans decodes')
  intro first second equal
  simpa [Prod.ext_iff] using equal

/-- For an account whose events have increasing versions from 1 on, if everything can be decoded and
no call fails, the batches that are sent for it are its events cut at every gap. -/
theorem selective_replay_cuts (reliable : ¬ env.fails) (before : BankingEs.Pipeline ι Value)
    (decodable : ∀ row ∈ before.world.events, ∃ event, codec.fromValue row.eventData = .ok event)
    (stored : Decodes codec (before.world.events.ordered id) entries)
    (increasing : entries.Pairwise fun first second => first.1 < second.1)
    (positive : ∀ entry ∈ entries, 1 ≤ entry.1) (accountId : Option Uuid)
    (covers : accountId = none ∨ accountId = some id) :
    Returns (serves store env caller)
      (fun reply after => (entries ≠ [] → reply = .ok ()) ∧ ∃ sent runs,
        after.eventsTopic = before.eventsTopic ++ sent ∧
        Cut id entries runs (sent.filter fun batch => batch.accountId = id))
      (selectiveReplay codec accountId) before := by
  obtain ⟨read, decodes⟩ := exists_read decodable
  obtain rfl : read id = entries := decoded_unique (decodes id) (stored.getEvents_all positive)
  have target (nonempty : read id ≠ []) : id ∈ targets before.world.events accountId := by
    refine (mem_targets ?_ accountId).mpr covers
    intro none
    rw [Decodes, none] at stored
    exact nonempty (List.map_eq_nil_iff.mp stored.symm)
  refine (selectiveReplay_cuts reliable decodes accountId).mono ?_
  rintro reply after ⟨done, published⟩
  refine ⟨?_, _, (read id).splitBy follows, published.topic, ?_⟩
  · intro nonempty
    apply done
    obtain ⟨account, found, _⟩ : ∃ account ∈ replayed (fun id => (read id).map Prod.snd) _, account.id = id :=
      exists_replayed (target nonempty) (List.map_eq_nil_iff.not.mpr nonempty)
    exact List.ne_nil_of_mem found
  · rw [sent_for (targets_nodup _ accountId) (or_iff_not_imp_right.mpr target)]
    exact cut_splitBy increasing

section Sample
open Sample

private def gapped : BankingEs.Pipeline Unit AccountEvent :=
  { world := { events := [plainRow ⟨1⟩ 1 five, plainRow ⟨1⟩ 2 five, plainRow ⟨1⟩ 4 five] } }

private theorem gapped_replayed : ∃ after,
    Runs (serves (exactStore .plain) .accepting ()) gapped (selectiveReplay .plain (some ⟨1⟩)) (.ok ()) after ∧
    after.eventsTopic = [⟨⟨1⟩, [five, five], 2⟩, ⟨⟨1⟩, [five], 4⟩] := by
  have rows : gapped.world.events.getEvents ⟨1⟩ none = gapped.world.events := by decide
  have read : serves (exactStore .plain) .accepting () gapped (.inl (.getEvents ⟨1⟩ none))
      (.ok gapped.world.events) gapped :=
    ⟨_, .waits le_rfl, _, ⟨.inl (congrArg _ rows.symm), rfl⟩, rfl⟩
  exact ⟨_, .request _ read (.request _ read (.request (.ok ()) ⟨_, .waits le_rfl, .inl ⟨rfl, rfl⟩⟩
    (.request (.ok ()) ⟨_, .waits le_rfl, .inl ⟨rfl, rfl⟩⟩ .pure))), rfl⟩

theorem gap_cuts_batch : ∃ after runs,
    Runs (serves (exactStore .plain) .accepting ()) gapped (selectiveReplay .plain (some ⟨1⟩)) (.ok ()) after ∧
    after.eventsTopic = [⟨⟨1⟩, [five, five], 2⟩, ⟨⟨1⟩, [five], 4⟩] ∧
    Cut ⟨1⟩ [(1, five), (2, five), (4, five)] runs after.eventsTopic := by
  obtain ⟨after, run, topic⟩ := gapped_replayed
  have reliable : ¬ Environment.accepting.fails := not_false
  have stored : Decodes .plain (gapped.world.events.ordered ⟨1⟩) [(1, five), (2, five), (4, five)] := rfl
  obtain ⟨_, sent, runs, published, cut⟩ := (selective_replay_cuts reliable gapped (fun row _ => ⟨row.eventData, rfl⟩)
    stored (by decide) (by decide) (some ⟨1⟩) (.inr rfl)).runs run
  have sent : sent = after.eventsTopic := published.symm
  rw [sent, topic] at cut
  refine ⟨after, runs, run, topic, ?_⟩
  rw [topic]
  exact cut

end Sample

end BankingEs.Proofs.SelectiveReplay
