import Mathlib.Algebra.BigOperators.Group.Finset.Basic
import BankingEs.Async.Interference

/-! Linearization of interleaved programs. Each thread is a call of one operation of a shared
object. If every call changes the object in one step at most, and in that step as the operation
does when it is executed at once, then a run is a run of the object, operation by operation. -/

namespace BankingEs.Async
open Relation

variable {R : Type → Type} {α β σ A ι : Type} (serves : Serves R σ) (rely guarantee : σ → σ → Prop) (abs : σ → A)
  (atomic : A → α → A → Prop)

/-- The object is left alone and the program returns `value`. -/
def Settles (value : α) : Program R α → σ → Prop
  | .pure result, _ => result = value
  | .request op resume, world => ∀ before reply after,
      ReflTransGen rely world before → serves before op reply after →
        guarantee before after ∧ abs after = abs before ∧ Settles value (resume reply) after

/-- The program leaves the object alone up to one of its calls, executes its operation in that
call, and returns what the operation returned. -/
def Commits : Program R α → σ → Prop
  | .pure _, _ => False
  | .request op resume, world => ∀ before reply after,
      ReflTransGen rely world before → serves before op reply after →
        guarantee before after ∧
          ((abs after = abs before ∧ Commits (resume reply) after) ∨
            ∃ value, atomic (abs before) value (abs after) ∧ Settles serves rely guarantee abs value (resume reply) after)

variable {serves rely guarantee abs atomic}

private theorem Settles.later {value : α} {program : Program R α} {world now : σ}
    (settles : Settles serves rely guarantee abs value program world) (moves : ReflTransGen rely world now) :
    Settles serves rely guarantee abs value program now := by
  cases program with
  | pure result => exact settles
  | request op resume => exact fun before reply after more served => settles before reply after (moves.trans more) served

private theorem Commits.later {program : Program R α} {world now : σ}
    (commits : Commits serves rely guarantee abs atomic program world) (moves : ReflTransGen rely world now) :
    Commits serves rely guarantee abs atomic program now := by
  cases program with
  | pure result => exact commits
  | request op resume => exact fun before reply after more served => commits before reply after (moves.trans more) served

private theorem Settles.map {value : α} {program : Program R α} {world : σ} (change : α → β)
    (settles : Settles serves rely guarantee abs value program world) :
    Settles serves rely guarantee abs (change value) (program >>= fun result => .pure (change result)) world := by
  induction program generalizing world with
  | pure result => exact congrArg change settles
  | request op resume ih =>
    intro before reply after moves served
    obtain ⟨step, same, rest⟩ := settles before reply after moves served
    exact ⟨step, same, ih reply rest⟩

theorem Commits.map {wider : A → β → A → Prop} {program : Program R α} {world : σ} (change : α → β)
    (commits : Commits serves rely guarantee abs atomic program world)
    (widens : ∀ before value after, atomic before value after → wider before (change value) after) :
    Commits serves rely guarantee abs wider (program >>= fun result => .pure (change result)) world := by
  induction program generalizing world with
  | pure result => cases commits
  | request op resume ih =>
    intro before reply after moves served
    obtain ⟨step, ⟨same, rest⟩ | ⟨value, executed, rest⟩⟩ := commits before reply after moves served
    · exact ⟨step, .inl ⟨same, ih reply rest⟩⟩
    · exact ⟨step, .inr ⟨change value, widens _ _ _ executed, rest.map change⟩⟩

/-- The history of a run, with the calls that executed the operation of their thread. A point
of a thread is one of its own calls, so it lies between the start and the end of the thread. -/
inductive Explained (abs : σ → A) (atomic : ι → A → α → A → Prop) (first : σ) :
    List (Served ι R σ) → List (ι × α) → σ → Prop where
  | start : Explained abs atomic first [] [] first
  | stutter {history : List (Served ι R σ)} {points : List (ι × α)} {before after : σ} {thread : ι} {β : Type} {op : R β}
      {reply : β} (earlier : Explained abs atomic first history points before) (same : abs after = abs before) :
      Explained abs atomic first (history ++ [⟨thread, op, reply, after⟩]) points after
  | point {history : List (Served ι R σ)} {points : List (ι × α)} {before after : σ} {thread : ι} {β : Type} {op : R β}
      {reply : β} {value : α} (earlier : Explained abs atomic first history points before)
      (executed : atomic thread (abs before) value (abs after)) :
      Explained abs atomic first (history ++ [⟨thread, op, reply, after⟩]) (points ++ [(thread, value)]) after

inductive Sequential (atomic : ι → A → α → A → Prop) (first : A) : List (ι × α) → A → Prop where
  | nil : Sequential atomic first [] first
  | snoc {points : List (ι × α)} {before after : A} {thread : ι} {value : α} (earlier : Sequential atomic first points before)
      (executed : atomic thread before value after) : Sequential atomic first (points ++ [(thread, value)]) after

variable {operations : ι → A → α → A → Prop} {first last : σ} {history : List (Served ι R σ)} {points : List (ι × α)}

theorem Explained.sequential (explained : Explained abs operations first history points last) :
    Sequential operations (abs first) points (abs last) := by
  induction explained with
  | start => exact .nil
  | stutter _ same ih => rwa [same]
  | point _ executed ih => exact ih.snoc executed

/-- A quantity of the object to which every operation adds its part. -/
theorem Sequential.sum {M : Type} [AddCommMonoid M] {start finish : A} (quantity : A → M) (part : ι → α → M)
    (run : Sequential operations start points finish)
    (adds : ∀ thread before value after, operations thread before value after →
      quantity after = quantity before + part thread value) :
    quantity finish = quantity start + (points.map fun point => part point.1 point.2).sum := by
  induction run with
  | nil => simp
  | snoc _ executed ih =>
    rw [adds _ _ _ _ executed, ih, List.map_append, List.sum_append, add_assoc]
    simp

/-- Once every thread has its point, the parts can be summed over the threads. -/
theorem sum_points [Fintype ι] [DecidableEq ι] {M : Type} [AddCommMonoid M] {values : ι → α} (part : ι → α → M)
    (once : (points.map Prod.fst).Nodup) (all : ∀ thread, (thread, values thread) ∈ points) :
    (points.map fun point => part point.1 point.2).sum = ∑ thread, part thread (values thread) := by
  have own : ∀ point ∈ points, point.2 = values point.1 := by
    intro point member
    have same := List.inj_on_of_nodup_map once member (all point.1) rfl
    exact congrArg Prod.snd same
  have threads : (points.map fun point => part point.1 point.2) =
      (points.map Prod.fst).map fun thread => part thread (values thread) := by
    rw [List.map_map]
    exact List.map_congr_left fun point member => by rw [own point member]; rfl
  have univ : (points.map Prod.fst).toFinset = Finset.univ := by
    apply Finset.eq_univ_of_forall
    intro thread
    exact List.mem_toFinset.mpr (List.mem_map_of_mem (all thread))
  rw [threads, ← List.sum_toFinset _ once, univ]

/-- A thread has its point behind it, with the value it is going to return, or before it. -/
inductive Stage (serves : Serves R σ) (rely guarantee : σ → σ → Prop) (abs : σ → A) (atomic : A → α → A → Prop)
    (points : List (ι × α)) (thread : ι) (program : Program R α) (world : σ) : Prop where
  | pending (fresh : thread ∉ points.map Prod.fst) (commits : Commits serves rely guarantee abs atomic program world)
  | done {value : α} (executed : (thread, value) ∈ points) (settles : Settles serves rely guarantee abs value program world)

private theorem Stage.later {thread : ι} {program : Program R α} {world now : σ}
    (stage : Stage serves rely guarantee abs atomic points thread program world) (moves : ReflTransGen rely world now) :
    Stage serves rely guarantee abs atomic points thread program now := by
  cases stage with
  | pending fresh commits => exact .pending fresh (commits.later moves)
  | done executed settles => exact .done executed (settles.later moves)

private theorem Stage.snoc {thread other : ι} {program : Program R α} {world : σ} {value : α}
    (stage : Stage serves rely guarantee abs atomic points thread program world) (apart : thread ≠ other) :
    Stage serves rely guarantee abs atomic (points ++ [(other, value)]) thread program world := by
  cases stage with
  | pending fresh commits =>
    refine .pending ?_ commits
    rw [List.map_append, List.mem_append]
    rintro (member | member)
    · exact fresh member
    · exact apart (List.mem_singleton.mp member)
  | done executed settles => exact .done (List.mem_append_left _ executed) settles

/-- If every thread executes its operation in one of its calls, every run is explained by these
calls: each operation is executed once at most, and what a thread returned is what its
operation returned. -/
theorem Interleaves.linearizes [DecidableEq ι] {serves : ι → Serves R σ} {rely guarantee : ι → σ → σ → Prop}
    {start threads : ι → Program R α}
    (compatible : ∀ thread other before after, thread ≠ other → guarantee thread before after →
      rely other before after)
    (initial : ∀ thread, Commits (serves thread) (rely thread) (guarantee thread) abs (operations thread) (start thread) first)
    (run : Interleaves serves start first history threads last) :
    ∃ points, Explained abs operations first history points last ∧ (points.map Prod.fst).Nodup ∧
      ∀ thread value, threads thread = .pure value → (thread, value) ∈ points := by
  suffices stages : ∃ points, Explained abs operations first history points last ∧ (points.map Prod.fst).Nodup ∧
      ∀ thread, Stage (serves thread) (rely thread) (guarantee thread) abs (operations thread) points thread
        (threads thread) last by
    obtain ⟨points, explained, once, stages⟩ := stages
    refine ⟨points, explained, once, ?_⟩
    intro thread value finished
    have stage := stages thread
    rw [finished] at stage
    cases stage with
    | pending _ commits => cases commits
    | done executed settles =>
      obtain rfl : value = _ := settles
      exact executed
  induction run with
  | start => exact ⟨[], .start, List.nodup_nil, fun thread => .pending List.not_mem_nil (initial thread)⟩
  | @serve history threads before after β op resume thread reply run pending served ih =>
    obtain ⟨points, explained, once, stages⟩ := ih
    -- the others see a step of this thread
    have others (step : guarantee thread before after) (other : ι) (apart : other ≠ thread) :
        Stage (serves other) (rely other) (guarantee other) abs (operations other) points other
          (Function.update threads thread (resume reply) other) after := by
      rw [Function.update_of_ne apart]
      exact (stages other).later (.single (compatible thread other before after (Ne.symm apart) step))
    have active := stages thread
    rw [pending] at active
    cases active with
    | pending fresh commits =>
      obtain ⟨step, ⟨same, rest⟩ | ⟨value, executed, rest⟩⟩ := commits before reply after .refl served
      · refine ⟨points, explained.stutter same, once, ?_⟩
        intro other
        by_cases mine : other = thread
        · subst mine
          rw [Function.update_self]
          exact .pending fresh rest
        · exact others step other mine
      · refine ⟨points ++ [(thread, value)], explained.point executed, ?_, ?_⟩
        · rw [List.map_append, List.map_singleton]
          refine List.nodup_append.mpr ⟨once, List.nodup_cons.mpr ⟨List.not_mem_nil, List.nodup_nil⟩, ?_⟩
          rintro id member other single rfl
          obtain rfl := List.mem_singleton.mp single
          exact fresh member
        · intro other
          by_cases mine : other = thread
          · subst mine
            rw [Function.update_self]
            exact .done (List.mem_append_right _ (List.mem_singleton_self _)) rest
          · exact (others step other mine).snoc mine
    | done executed settles =>
      obtain ⟨step, same, rest⟩ := settles before reply after .refl served
      refine ⟨points, explained.stutter same, once, ?_⟩
      intro other
      by_cases mine : other = thread
      · subst mine
        rw [Function.update_self]
        exact .done executed rest
      · exact others step other mine

end BankingEs.Async
