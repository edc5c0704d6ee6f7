import Mathlib.Algebra.Order.Group.Defs
import Mathlib.Data.List.Basic

/-! How often something happens within any window of time. The times come newest first; a
window has a fixed length and does not include its end. -/

namespace BankingEs.Windows

variable {α : Type} [AddCommGroup α] [LinearOrder α]

def within (length start : α) (times : List α) : List α := times.filter fun time => start ≤ time ∧ time < start + length

/-- The times that are less than a window ago. -/
def recent (length now : α) (times : List α) : List α := times.filter fun time => now < time + length

/-- No window has more of the times than the limit. -/
def Bounded (limit : Nat) (length : α) (times : List α) : Prop := ∀ start, (within length start times).length ≤ limit

variable {limit : Nat} {length now later : α} {times : List α}

theorem Bounded.nil : Bounded limit length [] := fun _ => Nat.zero_le _

/-- Another time can be added when fewer than the limit are recent. -/
theorem Bounded.cons [IsOrderedAddMonoid α] (bounded : Bounded limit length times)
    (room : (recent length now times).length < limit) : Bounded limit length (now :: times) := by
  intro start
  unfold within
  rw [List.filter_cons]
  split
  next inside =>
    obtain ⟨_, before⟩ := of_decide_eq_true inside
    have newer : (times.filter fun time => start ≤ time ∧ time < start + length).Sublist (recent length now times) := by
      apply List.monotone_filter_right
      intro time member
      obtain ⟨after, _⟩ := of_decide_eq_true member
      exact decide_eq_true (before.trans_le (add_le_add_left after length))
    exact (Nat.succ_le_succ newer.length_le).trans room
  next => exact bounded start

theorem bounded_reverse : Bounded limit length times.reverse ↔ Bounded limit length times := by
  unfold Bounded within
  simp only [List.filter_reverse, List.length_reverse]

theorem mem_recent {time : α} : time ∈ recent length now times ↔ time ∈ times ∧ now < time + length := by
  rw [recent, List.mem_filter, decide_eq_true_iff]

theorem recent_sublist (waits : now ≤ later) : (recent length later times).Sublist (recent length now times) := by
  apply List.monotone_filter_right
  intro time member
  exact decide_eq_true (waits.trans_lt (of_decide_eq_true member))

theorem recent_length_le (waits : now ≤ later) :
    (recent length later times).length ≤ (recent length now times).length :=
  (recent_sublist waits).length_le

theorem recent_recent (waits : now ≤ later) :
    recent length later (recent length now times) = recent length later times := by
  unfold recent
  rw [List.filter_filter]
  apply List.filter_congr
  intro time _
  rw [Bool.and_eq_left_iff_imp]
  intro member
  exact decide_eq_true (waits.trans_lt (of_decide_eq_true member))

theorem recent_cons_length_le : (recent length now (later :: times)).length ≤ (recent length now times).length + 1 := by
  unfold recent
  rw [List.filter_cons]
  split
  next => exact le_rfl
  next => exact Nat.le_succ _

theorem recent_eq_nil (old : ∀ time ∈ times, time + length ≤ now) : recent length now times = [] := by
  apply List.filter_eq_nil_iff.mpr
  intro time member
  simpa using old time member

end BankingEs.Windows
