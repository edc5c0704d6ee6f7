import Mathlib.Algebra.Order.Group.Int
import Mathlib.Data.List.Induction
import BankingEs.Web.SlidingLog
import BankingEs.Windows

/-! What the log of a key holds after any calls. A check drops only what no later check counts, so
that the answer depends on the recorded requests alone. -/

namespace BankingEs.Proofs.SlidingLog
open SlidingRateLimiter

/-- The times at which requests of the key were recorded. -/
def recorded (key : String) (calls : List LogCall) : List DateTime :=
  (calls.filter fun call => call.key = key ∧ call.operation = .recordRequest).map LogCall.now

/-- The times from `start` to `length` later, both included. -/
def inWindow (length : Duration) (start : DateTime) (times : List DateTime) : List DateTime :=
  times.filter fun time => start ≤ time ∧ time ≤ start + length

/-- Every recorded request of the key comes after a check of the key that returned false, with no
call on the key in between. -/
def Guarded (config : SlidingRateLimitConfig) (key : String) (calls : List LogCall) : Prop :=
  ∀ before time rest, calls = before ++ ⟨time, key, .recordRequest⟩ :: rest →
    ∃ earlier checked between, before = earlier ++ ⟨checked, key, .isRateLimited⟩ :: between ∧
      (∀ call ∈ between, call.key ≠ key) ∧ ((after config earlier).isRateLimited checked key).1 = some false

section Log
variable {config : SlidingRateLimitConfig} {key : String} {calls : List LogCall} {now : DateTime}

private theorem after_append (call : LogCall) : after config (calls ++ [call]) = (after config calls).perform call := by
  rw [after, List.foldl_append]
  rfl

private theorem after_config (calls : List LogCall) : (after config calls).config = config := by
  induction calls using List.reverseRecOn with
  | nil => rfl
  | append_singleton calls call ih =>
    rw [after_append, perform]
    cases call.operation with
    | isRateLimited =>
      dsimp only [isRateLimited]
      split
      · exact ih
      · exact ih
    | recordRequest => exact ih

private theorem recorded_append (first second : List LogCall) :
    recorded key (first ++ second) = recorded key first ++ recorded key second := by
  rw [recorded, List.filter_append, List.map_append]
  rfl

section Windows
variable {length : Nat} {start time now : Int} {times : List Int}

private theorem sub_le_iff_lt_add : now - length ≤ time ↔ now < time + (length + 1 : Int) := by omega

private theorem filter_eq_recent :
    (times.filter fun time => now - length ≤ time) = Windows.recent (length + 1 : Int) now times :=
  List.filter_congr fun _ _ => decide_eq_decide.mpr sub_le_iff_lt_add

private theorem inWindow_eq_recent (past : ∀ time ∈ times, time ≤ now) :
    inWindow length (now - length) times = Windows.recent (length + 1 : Int) now times := by
  apply List.filter_congr
  intro time member
  rw [decide_eq_decide, ← sub_le_iff_lt_add, sub_add_cancel]
  exact and_iff_left (past time member)

private theorem inWindow_eq_within : inWindow length start times = Windows.within (length + 1 : Int) start times := by
  apply List.filter_congr
  intro time _
  rw [decide_eq_decide, ← add_assoc, Int.lt_add_one_iff]

end Windows

private theorem perform_requests (limiter : SlidingRateLimiter) (call : LogCall) :
    (limiter.perform call).requests key = limiter.requests key ∧ recorded key [call] = [] ∨
    (limiter.perform call).requests key =
        Windows.recent (limiter.config.windowSize + 1 : Int) call.now (limiter.requests key) ∧ recorded key [call] = [] ∨
    (limiter.perform call).requests key = limiter.requests key ++ [call.now] ∧ recorded key [call] = [call.now] := by
  obtain ⟨time, owner, operation⟩ := call
  by_cases mine : owner = key
  · subst mine
    cases operation with
    | isRateLimited =>
      dsimp only [perform, isRateLimited]
      unfold windowStart
      split
      · next absent => exact .inl ⟨rfl, by simp [recorded]⟩
      · next start found =>
        split at found
        · cases found
          refine .inr (.inl ⟨?_, by simp [recorded]⟩)
          exact (Function.update_self ..).trans filter_eq_recent
        · cases found
    | recordRequest =>
      refine .inr (.inr ⟨?_, by simp [recorded]⟩)
      exact Function.update_self ..
  · refine .inl ⟨?_, by simp [recorded, mine]⟩
    have other : key ≠ owner := Ne.symm mine
    cases operation with
    | isRateLimited =>
      dsimp only [perform, isRateLimited]
      split
      · rfl
      · exact Function.update_of_ne other _ _
    | recordRequest => exact Function.update_of_ne other _ _

/-- Whatever was dropped, the log has all recorded requests that still count at a later time. -/
theorem recent_requests (past : ∀ call ∈ calls, call.now ≤ now) :
    Windows.recent (config.windowSize + 1 : Int) now ((after config calls).requests key) =
      Windows.recent (config.windowSize + 1 : Int) now (recorded key calls) := by
  induction calls using List.reverseRecOn with
  | nil => rfl
  | append_singleton calls call ih =>
    have earlier := ih fun call member => past call (List.mem_append_left _ member)
    have waits : call.now ≤ now := past call (by simp)
    rw [after_append, recorded_append]
    -- A check drops what lies before its own window, and no later window begins earlier.
    rcases @perform_requests key (after config calls) call with ⟨same, none⟩ | ⟨pruned, none⟩ | ⟨added, one⟩
    · rw [same, none, List.append_nil, earlier]
    · rw [pruned, none, List.append_nil, after_config, Windows.recent_recent waits, earlier]
    · rw [added, one]
      unfold Windows.recent at earlier ⊢
      rw [List.filter_append, List.filter_append, earlier]

private theorem recorded_past (past : ∀ call ∈ calls, call.now ≤ now) : ∀ time ∈ recorded key calls, time ≤ now := by
  intro time member
  obtain ⟨call, found, rfl⟩ := List.mem_map.mp member
  exact past call (List.mem_filter.mp found).1

private theorem isRateLimited_answer (past : ∀ call ∈ calls, call.now ≤ now) {start : DateTime}
    (dated : windowStart config now = some start) :
    ((after config calls).isRateLimited now key).1 =
      some (decide (config.burstSize ≤
        (inWindow config.windowSize (now - config.windowSize) (recorded key calls)).length)) := by
  obtain rfl : now - config.windowSize = start := by
    unfold windowStart at dated
    split at dated
    · exact Option.some.inj dated
    · cases dated
  rw [isRateLimited, after_config, dated]
  dsimp only
  rw [filter_eq_recent, recent_requests past, inWindow_eq_recent (recorded_past past)]

private theorem recent_lt_of_free (past : ∀ call ∈ calls, call.now ≤ now)
    (free : ((after config calls).isRateLimited now key).1 = some false) :
    (Windows.recent (config.windowSize + 1 : Int) now (recorded key calls)).length < config.burstSize := by
  cases dated : windowStart config now with
  | none =>
    rw [isRateLimited, after_config, dated] at free
    cases free
  | some start =>
    rw [isRateLimited_answer past dated, inWindow_eq_recent (recorded_past past), Option.some.injEq,
      decide_eq_false_iff_not, Nat.not_le] at free
    exact free

private theorem recorded_eq_nil (others : ∀ call ∈ calls, call.key ≠ key) : recorded key calls = [] := by
  rw [recorded, List.map_eq_nil_iff, List.filter_eq_nil_iff]
  intro call member
  simp [others call member]

private theorem recorded_before {earlier between : List LogCall} {checked : DateTime}
    (others : ∀ call ∈ between, call.key ≠ key) :
    recorded key (earlier ++ ⟨checked, key, .isRateLimited⟩ :: between) = recorded key earlier := by
  have check : recorded key (⟨checked, key, .isRateLimited⟩ :: between) = recorded key between := by simp [recorded]
  rw [recorded_append, check, recorded_eq_nil others, List.append_nil]

private theorem Guarded.init {call : LogCall} (guarded : Guarded config key (calls ++ [call])) :
    Guarded config key calls := by
  intro before time rest same
  apply guarded before time (rest ++ [call])
  rw [same, List.append_assoc, List.cons_append]

private theorem guarded_bounded (ordered : calls.Pairwise fun first second => first.now ≤ second.now)
    (guarded : Guarded config key calls) :
    Windows.Bounded config.burstSize (config.windowSize + 1 : Int) (recorded key calls) := by
  induction calls using List.reverseRecOn with
  | nil => exact Windows.Bounded.nil
  | append_singleton calls call ih =>
    obtain ⟨earlierOrdered, _, last⟩ := List.pairwise_append.mp ordered
    have bounded := ih earlierOrdered guarded.init
    rw [recorded_append]
    by_cases records : call.key = key ∧ call.operation = .recordRequest
    · obtain ⟨time, owner, operation⟩ := call
      obtain ⟨rfl, rfl⟩ : owner = key ∧ operation = .recordRequest := records
      obtain ⟨earlier, checked, between, rfl, others, free⟩ := guarded calls time [] rfl
      have waits : checked ≤ time :=
        last ⟨checked, owner, .isRateLimited⟩ (List.mem_append_right _ List.mem_cons_self) _ List.mem_cons_self
      have past : ∀ call ∈ earlier, call.now ≤ checked := by
        intro call member
        exact (List.pairwise_append.mp earlierOrdered).2.2 call member _ List.mem_cons_self
      -- Nothing of the key came in between, and what was recent at the check can only have become less.
      have few := recent_lt_of_free past free
      have room : (Windows.recent (config.windowSize + 1 : Int) time (recorded owner earlier)).length < config.burstSize :=
        (Windows.recent_length_le waits).trans_lt few
      have one : recorded owner [⟨time, owner, .recordRequest⟩] = [time] := by simp [recorded]
      rw [recorded_before others] at bounded ⊢
      rw [← Windows.bounded_reverse] at bounded ⊢
      rw [one, List.reverse_append]
      refine bounded.cons ?_
      rwa [Windows.recent, List.filter_reverse, List.length_reverse]
    · have none : recorded key [call] = [] := by simp [recorded, records]
      rwa [none, List.append_nil]

end Log

/-- A check answers by the requests of its window, ends included, if the window begins at a date;
and requests that are recorded under a guard keep to the limit in every window. -/
theorem sliding_log_limits (config : SlidingRateLimitConfig) (key : String) (calls : List LogCall)
    (ordered : calls.Pairwise fun first second => first.now ≤ second.now) :
    (∀ now, (∀ call ∈ calls, call.now ≤ now) → config.windowSize ≤ maxTimeDelta → minUtc ≤ now - config.windowSize →
      ((after config calls).isRateLimited now key).1 =
        some (decide (config.burstSize ≤
          (inWindow config.windowSize (now - config.windowSize) (recorded key calls)).length))) ∧
    (Guarded config key calls →
      ∀ start, (inWindow config.windowSize start (recorded key calls)).length ≤ config.burstSize) := by
  refine ⟨?_, ?_⟩
  · intro now past short dated
    exact isRateLimited_answer past (if_pos ⟨short, dated⟩)
  · intro guarded start
    rw [inWindow_eq_within]
    exact guarded_bounded ordered guarded start

def checkedRequest : List LogCall := [⟨0, "client", .isRateLimited⟩, ⟨0, "client", .recordRequest⟩]

private theorem checkedRequest_guarded : Guarded ⟨10, 1⟩ "client" checkedRequest := by
  intro before time rest same
  match before with
  | [] => cases same
  | [first] =>
    cases same
    exact ⟨[], 0, [], rfl, fun _ impossible => (by cases impossible), by decide⟩
  | _ :: _ :: before => simp [checkedRequest] at same

theorem checkedRequest_limits :
    ((after ⟨10, 1⟩ checkedRequest).isRateLimited 10 "client").1 = some true ∧
      ∀ start, (inWindow 10 start (recorded "client" checkedRequest)).length ≤ 1 := by
  have ordered : checkedRequest.Pairwise fun first second => first.now ≤ second.now := by simp [checkedRequest]
  have limits := sliding_log_limits ⟨10, 1⟩ "client" checkedRequest ordered
  refine ⟨?_, limits.2 checkedRequest_guarded⟩
  rw [limits.1 10 (by simp [checkedRequest]) (by decide) (by decide)]
  decide

/-- The longest `Duration`, as a window, is no `chrono::Duration`: the first check panics. -/
theorem longest_window_panics :
    ((after ⟨Duration.fromSecs (2 ^ 64 - 1) + 999999999, 1⟩ []).isRateLimited 0 "client").1 = none := by
  decide

end BankingEs.Proofs.SlidingLog
