import BankingEs.Proofs.BulkInsert
import BankingEs.Proofs.Preparation

/-! The version-sequence test on the rows that the store prepared itself. The expected version
is that of the first row, and the test wants the first row one version later. -/

namespace BankingEs.Proofs.SequenceCheck
open EventStore Preparation

variable {Value : Type}

def passes (rows : List (Event Value)) : Bool :=
  match rows.head? with
  | some first => (sequenceError first.version rows).isNone
  | none => true

private theorem passes_single (row : Event Value) : passes [row] = true := by
  simp [passes, sequenceError]

private theorem not_passes_pair (first second : Event Value) (rest : List (Event Value)) :
    passes (first :: second :: rest) = false := by
  obtain ⟨message, refused⟩ := BulkInsert.sequenceError_pair first second rest
  simp [passes, refused]

/-- Exactly the requests with a single event pass. -/
theorem prepared_passes_iff {codec : Codec Value} {stamps : Nat → Uuid × DateTime} {batched : BatchedEvent}
    {rows : List (Event Value)} (nonempty : batched.events ≠ [])
    (prepared : prepareEventsForInsertOptimized codec stamps batched = .ok rows) :
    passes rows = true ↔ batched.events.length = 1 := by
  have same := (prepareFrom_numbered prepared).length_eq
  have some_event := List.length_pos_iff.mpr nonempty
  rw [← same] at some_event ⊢
  match rows with
  | [row] => simp [passes_single]
  | first :: second :: rest => simp [not_passes_pair]

def deposits (count : Nat) : BatchedEvent :=
  { aggregateId := ⟨7⟩, events := List.replicate count (.moneyDeposited ⟨7⟩ 1 ⟨8⟩), expectedVersion := 0, responseTx := 0 }

def stamps (index : Nat) : Uuid × DateTime := (⟨index⟩, 0)

theorem single_deposit_passes : ∃ rows,
    prepareEventsForInsertOptimized Codec.plain stamps (deposits 1) = .ok rows ∧ passes rows = true :=
  ⟨_, rfl, (@prepared_passes_iff _ Codec.plain stamps (deposits 1) _ (List.cons_ne_nil _ _) rfl).mpr rfl⟩

/-- The rows of two deposits on a new account have versions 1 and 2; the test wants 2 and 3. -/
theorem two_deposits_refused : ∃ rows,
    prepareEventsForInsertOptimized Codec.plain stamps (deposits 2) = .ok rows ∧
      rows.map Event.version = [1, 2] ∧ passes rows = false :=
  ⟨_, rfl, rfl, not_passes_pair _ _ _⟩

end BankingEs.Proofs.SequenceCheck
