import Mathlib.Data.List.Basic
import Mathlib.Data.List.Range

/-! Ranges of numbers that lie end to end. Their bounds are given by two functions of the
items of a list, and both belong to the range. -/

namespace BankingEs.Tiling

variable {α : Type} (low high : α → Nat)

/-- The ranges go from `first` to just before `stop`, without a gap and without an overlap. -/
inductive Tiles : Nat → List α → Nat → Prop where
  | nil {first : Nat} : Tiles first [] first
  | cons {first stop : Nat} {item : α} {items : List α} (starts : low item = first) (filled : first ≤ high item)
      (rest : Tiles (high item + 1) items stop) : Tiles first (item :: items) stop

variable {low high} {first stop : Nat} {items : List α}

namespace Tiles

private theorem first_le (tiles : Tiles low high first items stop) : ∀ item ∈ items, first ≤ low item := by
  induction tiles with
  | nil => simp
  | cons starts filled rest ih =>
    intro item member
    rcases List.mem_cons.mp member with rfl | member
    · exact starts.ge
    · exact (filled.trans (Nat.le_succ _)).trans (ih item member)

theorem covers {number : Nat} (tiles : Tiles low high first items stop) (above : first ≤ number)
    (below : number < stop) :
    ∃ item ∈ items, low item ≤ number ∧ number ≤ high item := by
  induction tiles with
  | nil => omega
  | @cons first stop item items starts filled rest ih =>
    by_cases here : number ≤ high item
    · exact ⟨item, List.mem_cons_self, starts ▸ above, here⟩
    · obtain ⟨other, member, within⟩ := ih (by omega) below
      exact ⟨other, List.mem_cons_of_mem _ member, within⟩

theorem ordered (tiles : Tiles low high first items stop) : items.Pairwise fun item later => high item < low later := by
  induction tiles with
  | nil => exact .nil
  | cons starts filled rest ih => exact .cons (fun later member => rest.first_le later member) ih

private theorem snoc {last next : Nat} {item : α} (tiles : Tiles low high first items last) (starts : low item = last)
    (filled : last ≤ high item) (ends : high item + 1 = next) : Tiles low high first (items ++ [item]) next := by
  induction tiles with
  | nil => exact .cons starts filled (ends ▸ .nil)
  | cons starts' filled' rest ih => exact .cons starts' filled' (ih starts filled)

theorem of_bounds (bound : Nat → Nat) (item : Nat → α) (count : Nat)
    (starts : ∀ index < count, low (item index) = bound index)
    (filled : ∀ index < count, bound index ≤ high (item index))
    (ends : ∀ index < count, high (item index) + 1 = bound (index + 1)) :
    Tiles low high (bound 0) ((List.range count).map item) (bound count) := by
  induction count with
  | zero => exact .nil
  | succ count ih =>
    rw [List.range_succ, List.map_append]
    have tiles := ih (fun index below => starts index (by omega)) (fun index below => filled index (by omega))
      (fun index below => ends index (by omega))
    exact tiles.snoc (starts count (by omega)) (filled count (by omega)) (ends count (by omega))

end Tiles
end BankingEs.Tiling
