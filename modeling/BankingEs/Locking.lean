import Mathlib.Data.List.Perm.Basic

/-! Computations that take the sides of reader-writer locks, and the locks of a concurrent
map that is cut into slots: a reference into the map keeps the read side of its slot until
it is dropped, and a change needs the write side. -/

namespace BankingEs.Locking

inductive Event (L : Type) where
  | read (lock : L)
  | drop (lock : L)
  | write (lock : L)

/-- A value with the trace of the locks taken on the way to it. -/
structure Traced (L α : Type) where
  value : α
  trace : List (Event L)

variable {K L α β : Type}

instance : Monad (Traced L) where
  pure value := ⟨value, []⟩
  bind first next := ⟨(next first.value).value, first.trace ++ (next first.value).trace⟩

@[simp] theorem pure_value (value : α) : (pure value : Traced L α).value = value := rfl

@[simp] theorem pure_trace (value : α) : (pure value : Traced L α).trace = [] := rfl

@[simp] theorem bind_value (first : Traced L α) (next : α → Traced L β) :
    (first >>= next).value = (next first.value).value := rfl

@[simp] theorem bind_trace (first : Traced L α) (next : α → Traced L β) :
    (first >>= next).trace = first.trace ++ (next first.value).trace := rfl

section Blocking
variable [DecidableEq L]

/-- The read sides that are held after a trace. -/
def held : List L → List (Event L) → List L
  | locks, [] => locks
  | locks, .read lock :: trace => held (lock :: locks) trace
  | locks, .drop lock :: trace => held (locks.erase lock) trace
  | locks, .write _ :: trace => held locks trace

/-- The trace asks for the write side of a lock whose read side it holds. -/
def Blocks : List L → List (Event L) → Prop
  | _, [] => False
  | locks, .read lock :: trace => Blocks (lock :: locks) trace
  | locks, .drop lock :: trace => Blocks (locks.erase lock) trace
  | locks, .write lock :: trace => lock ∈ locks ∨ Blocks locks trace

instance decidableBlocks : (locks : List L) → (trace : List (Event L)) → Decidable (Blocks locks trace)
  | _, [] => inferInstanceAs (Decidable False)
  | locks, .read lock :: trace => decidableBlocks (lock :: locks) trace
  | locks, .drop lock :: trace => decidableBlocks (locks.erase lock) trace
  | locks, .write lock :: trace =>
    have := decidableBlocks locks trace
    inferInstanceAs (Decidable (lock ∈ locks ∨ Blocks locks trace))

variable {locks : List L} {first second : List (Event L)}

private theorem blocks_append : Blocks locks (first ++ second) ↔ Blocks locks first ∨ Blocks (held locks first) second := by
  induction first generalizing locks with
  | nil => simp [Blocks, held]
  | cons event first ih =>
    cases event with
    | read lock | drop lock => exact ih
    | write lock =>
      simp only [List.cons_append, Blocks, held, ih]
      exact or_assoc.symm

private theorem held_append : held locks (first ++ second) = held (held locks first) second := by
  induction first generalizing locks with
  | nil => rfl
  | cons event first ih => cases event <;> exact ih

/-- The trace does not block, and gives back whatever it takes. -/
structure Quiet (trace : List (Event L)) : Prop where
  free : ¬ Blocks [] trace
  returns : held [] trace = []

theorem Quiet.nil : Quiet ([] : List (Event L)) := ⟨id, rfl⟩

theorem Quiet.blocks_append (quiet : Quiet first) : Blocks [] (first ++ second) ↔ Blocks [] second := by
  rw [Locking.blocks_append, quiet.returns]
  exact or_iff_right quiet.free

theorem Quiet.append (quiet : Quiet first) (rest : Quiet second) : Quiet (first ++ second) := by
  refine ⟨?_, ?_⟩
  · rw [quiet.blocks_append]
    exact rest.free
  · rw [held_append, quiet.returns]
    exact rest.returns

private theorem Quiet.write (lock : L) : Quiet [Event.write lock] := ⟨by simp [Blocks], rfl⟩

private theorem Quiet.visit (lock : L) : Quiet [Event.read lock, Event.drop lock] := ⟨id, by simp [held]⟩

theorem Quiet.flatMap (slots : List α) {visit : α → List (Event L)} (quiet : ∀ slot, Quiet (visit slot)) :
    Quiet (slots.flatMap visit) := by
  induction slots with
  | nil => exact .nil
  | cons slot slots ih => exact (quiet slot).append ih

end Blocking

section Rounds
variable [DecidableEq L] (lock : α → L) (slots : List α)

private theorem held_reads (locks : List L) :
    held locks (slots.map fun slot => .read (lock slot)) = (slots.map lock).reverse ++ locks := by
  induction slots generalizing locks with
  | nil => rfl
  | cons slot slots ih =>
    rw [List.map_cons, held, ih, List.map_cons, List.reverse_cons, List.append_assoc]
    rfl

private theorem held_drops (locks : List L) :
    held locks (slots.map fun slot => .drop (lock slot)) = locks.diff (slots.map lock) := by
  induction slots generalizing locks with
  | nil => rfl
  | cons slot slots ih => rw [List.map_cons, held, ih, List.map_cons, List.diff_cons]

private theorem reads_free (locks : List L) : ¬ Blocks locks (slots.map fun slot => .read (lock slot)) := by
  induction slots generalizing locks with
  | nil => exact id
  | cons slot slots ih => exact ih _

private theorem drops_free (locks : List L) : ¬ Blocks locks (slots.map fun slot => .drop (lock slot)) := by
  induction slots generalizing locks with
  | nil => exact id
  | cons slot slots ih => exact ih _

end Rounds

/-- How a map spreads its keys over its slots. -/
structure Layout (K : Type) where
  slots : Nat
  slot : K → Nat
  slot_lt : ∀ key, slot key < slots

/-- The calls of a map whose slots have the given locks. What they find is computed outside. -/
structure Map (K L : Type) where
  layout : Layout K
  lock : Nat → L
  distinct : Function.Injective lock

namespace Map
variable (map : Map K L)

def lockOf (key : K) : L := map.lock (map.layout.slot key)

/-- A reference that was found stays alive. -/
def get (key : K) (found : Option α) : Traced L (Option α) :=
  match found with
  | some value => ⟨some value, [.read (map.lockOf key)]⟩
  | none => ⟨none, [.read (map.lockOf key), .drop (map.lockOf key)]⟩

def release (key : K) : Traced L Unit := ⟨(), [.drop (map.lockOf key)]⟩

def insert (key : K) : Traced L Unit := ⟨(), [.write (map.lockOf key)]⟩

def remove (key : K) : Traced L Unit := ⟨(), [.write (map.lockOf key)]⟩

def retain : Traced L Unit := ⟨(), (List.range map.layout.slots).flatMap fun slot => [.write (map.lock slot)]⟩

def len : Traced L Unit :=
  ⟨(), (List.range map.layout.slots).flatMap fun slot => [.read (map.lock slot), .drop (map.lock slot)]⟩

/-- `iter()` followed by `min_by_key`: of all the slots visited, that of the item chosen
stays locked for reading. -/
def iterMin (key : α → K) (found : Option α) : Traced L (Option α) :=
  let slots := List.range map.layout.slots
  ⟨found, slots.map (fun slot => .read (map.lock slot)) ++
    (slots.filter fun slot => some slot ≠ found.map fun item => map.layout.slot (key item)).map
      fun slot => .drop (map.lock slot)⟩

variable [DecidableEq L] {map}

theorem get_none_quiet (key : K) : Quiet (map.get key (none : Option α)).trace := .visit _

theorem visit_quiet (key : K) (value : α) :
    Quiet ((map.get key (some value)).trace ++ (map.release key).trace) := .visit _

theorem insert_quiet (key : K) : Quiet (map.insert key).trace := .write _

theorem remove_quiet (key : K) : Quiet (map.remove key).trace := .write _

theorem retain_quiet : Quiet map.retain.trace := .flatMap _ fun _ => .write _

theorem len_quiet : Quiet map.len.trace := .flatMap _ fun _ => .visit _

/-- A key that was got cannot be removed while its reference lives. -/
theorem get_remove_blocks (key : K) (value : α) (rest : List (Event L)) :
    Blocks [] ((map.get key (some value)).trace ++ ((map.remove key).trace ++ rest)) := .inl List.mem_cons_self

private theorem diff_self (locks : List L) : locks.diff locks = [] := by
  induction locks with
  | nil => rfl
  | cons lock locks ih => rw [List.diff_cons, List.erase_cons_head, ih]

theorem iterMin_none_quiet (key : α → K) : Quiet (map.iterMin key none).trace := by
  have all : ((List.range map.layout.slots).filter fun slot =>
      some slot ≠ Option.map (fun item => map.layout.slot (key item)) none) = List.range map.layout.slots := by simp
  rw [iterMin, all]
  constructor
  · rw [blocks_append]
    exact not_or.mpr ⟨reads_free _ _ _, drops_free _ _ _⟩
  · rw [held_append, held_reads, held_drops, List.append_nil]
    apply List.Perm.eq_nil
    rw [← diff_self]
    exact (List.reverse_perm _).diff_right _

/-- The item that a search for the least one ends with cannot be removed while it is
borrowed. -/
theorem iterMin_remove_blocks (key : α → K) (item : α) (rest : List (Event L)) :
    Blocks [] ((map.iterMin key (some item)).trace ++ ((map.remove (key item)).trace ++ rest)) := by
  rw [blocks_append]
  refine .inr (.inl ?_)
  rw [iterMin, held_append, held_reads, held_drops, List.append_nil]
  apply List.mem_diff_of_mem
  · rw [List.mem_reverse]
    exact List.mem_map_of_mem (List.mem_range.mpr (map.layout.slot_lt _))
  · intro dropped
    obtain ⟨slot, member, same⟩ := List.mem_map.mp dropped
    simp [map.distinct same] at member

end Map
end BankingEs.Locking
