import Mathlib.Algebra.Order.Ring.Rat
import Mathlib.Tactic.FieldSimp
import Mathlib.Tactic.Linarith
import Mathlib.Tactic.NormNum

/-! Decimal numbers of a fixed size: a mantissa below a bound over a power of ten up to a limit. A
sum with too many digits is rounded to as many as fit. If not even its integer part fits, there is
no sum. -/

namespace BankingEs

structure FixedDecimal (bound maxScale : Nat) where
  mantissa : Int
  scale : Nat
  bounded : mantissa.natAbs < bound
  scaled : scale ≤ maxScale
  deriving DecidableEq

namespace FixedDecimal
variable {bound maxScale : Nat}

def value (decimal : FixedDecimal bound maxScale) : ℚ := decimal.mantissa / 10 ^ decimal.scale

def zero (positive : 0 < bound) : FixedDecimal bound maxScale := ⟨0, 0, positive, Nat.zero_le _⟩

def neg (decimal : FixedDecimal bound maxScale) : FixedDecimal bound maxScale :=
  { decimal with mantissa := -decimal.mantissa, bounded := by simpa using decimal.bounded }

/-- The nearest quotient, and the even one of two that are as near. -/
def roundHalfEven (exact : Int) (divisor : Nat) : Int :=
  let quotient := exact / divisor
  let rest := exact % divisor
  if 2 * rest < divisor then quotient
  else if divisor < 2 * rest then quotient + 1
  else if quotient % 2 = 0 then quotient
  else quotient + 1

/-- `exact` over ten to the `scale`, with `kept` digits after the point. -/
def keep (exact : Int) (scale kept : Nat) : Option (FixedDecimal bound maxScale) :=
  let mantissa := roundHalfEven exact (10 ^ (scale - kept))
  if fits : mantissa.natAbs < bound ∧ kept ≤ maxScale then some ⟨mantissa, kept, fits.1, fits.2⟩ else none

/-- With as many digits as fit, up to `kept` of them. -/
def fit (exact : Int) (scale : Nat) : Nat → Option (FixedDecimal bound maxScale)
  | 0 => keep exact scale 0
  | kept + 1 => (keep exact scale (kept + 1)).or (fit exact scale kept)

def aligned (first second : FixedDecimal bound maxScale) : Int :=
  let scale := max first.scale second.scale
  first.mantissa * 10 ^ (scale - first.scale) + second.mantissa * 10 ^ (scale - second.scale)

def add (first second : FixedDecimal bound maxScale) : Option (FixedDecimal bound maxScale) :=
  let scale := max first.scale second.scale
  fit (aligned first second) scale scale

def sub (first second : FixedDecimal bound maxScale) : Option (FixedDecimal bound maxScale) := add first second.neg

/-- `exact` over ten to the `scale` fits once zeros at its end are dropped. -/
def Fits (bound : Nat) (exact : Int) (scale : Nat) : Prop :=
  ∃ kept ≤ scale, ∃ mantissa : Int, mantissa.natAbs < bound ∧ exact = mantissa * 10 ^ (scale - kept)

private theorem value_neg (decimal : FixedDecimal bound maxScale) : decimal.neg.value = -decimal.value := by
  simp [neg, value, neg_div]

private theorem roundHalfEven_mul (mantissa : Int) {divisor : Nat} (positive : 0 < divisor) :
    roundHalfEven (mantissa * divisor) divisor = mantissa := by
  have positive : (0 : Int) < divisor := by exact_mod_cast positive
  unfold roundHalfEven
  dsimp only
  rw [Int.mul_emod_left, mul_zero, if_pos positive, Int.mul_ediv_cancel _ positive.ne']

/-- A rounded quotient is at most half a unit off, and even if it is as much. -/
theorem roundHalfEven_near (exact : Int) {divisor : Nat} (positive : 0 < divisor) :
    let rounded := roundHalfEven exact divisor
    2 * (divisor * rounded) ≤ 2 * exact + divisor ∧ 2 * exact ≤ 2 * (divisor * rounded) + divisor ∧
      (2 * exact = 2 * (divisor * rounded) + divisor → 2 ∣ rounded) := by
  have positive : (0 : Int) < divisor := by exact_mod_cast positive
  have parts := Int.mul_ediv_add_emod exact divisor
  have low := Int.emod_nonneg exact positive.ne'
  have high := Int.emod_lt_of_pos exact positive
  have next : (divisor : Int) * (exact / divisor + 1) = divisor * (exact / divisor) + divisor := by rw [mul_add, mul_one]
  unfold roundHalfEven
  dsimp only
  split
  next => exact ⟨by omega, by omega, by omega⟩
  next =>
    split
    next => exact ⟨by omega, by omega, by omega⟩
    next =>
      split
      next even => exact ⟨by omega, by omega, fun _ => Int.dvd_of_emod_eq_zero even⟩
      next => exact ⟨by omega, by omega, by omega⟩

private theorem roundHalfEven_nonneg {exact : Int} {divisor : Nat} (nonneg : 0 ≤ exact) (positive : 0 < divisor) :
    0 ≤ roundHalfEven exact divisor := by
  obtain ⟨_, high, _⟩ := roundHalfEven_near exact positive
  by_contra negative
  have scaled := mul_le_mul_of_nonneg_left (show roundHalfEven exact divisor ≤ -1 by omega) (Int.natCast_nonneg divisor)
  omega

/-- Half a unit below an even limit is rounded up to it. -/
theorem roundHalfEven_lt_iff {limit exact : Int} {divisor : Nat} (even : 2 ∣ limit) (positive : 0 < divisor) :
    roundHalfEven exact divisor < limit ↔ 2 * exact + divisor < 2 * (divisor * limit) := by
  obtain ⟨low, high, tie⟩ := roundHalfEven_near exact positive
  constructor
  · intro less
    have scaled := mul_le_mul_of_nonneg_left (show roundHalfEven exact divisor ≤ limit - 1 by omega)
      (Int.natCast_nonneg divisor)
    rw [mul_sub, mul_one] at scaled
    rcases Int.lt_or_eq_of_le (show 2 * exact + divisor ≤ 2 * (divisor * limit) by omega) with below | half
    · exact below
    · have last : (divisor : Int) * roundHalfEven exact divisor = divisor * (limit - 1) := by
        rw [mul_sub, mul_one]
        omega
      have odd := mul_left_cancel₀ (by exact_mod_cast positive.ne') last
      have divides := tie (by omega)
      omega
  · intro below
    by_contra reached
    have scaled := mul_le_mul_of_nonneg_left (not_lt.mp reached) (Int.natCast_nonneg divisor)
    omega

private theorem scaled_eq_iff {kept scale : Nat} (le : kept ≤ scale) (mantissa exact : Int) :
    (mantissa : ℚ) / 10 ^ kept = exact / 10 ^ scale ↔ exact = mantissa * 10 ^ (scale - kept) := by
  obtain ⟨dropped, rfl⟩ := Nat.exists_eq_add_of_le le
  rw [Nat.add_sub_cancel_left, div_eq_div_iff (by positivity) (by positivity), pow_add, mul_left_comm, mul_comm (exact : ℚ),
    mul_right_inj' (by positivity)]
  constructor
  · intro same
    exact_mod_cast same.symm
  · intro same
    exact_mod_cast same.symm

private theorem aligned_value (first second : FixedDecimal bound maxScale) :
    (aligned first second : ℚ) / 10 ^ max first.scale second.scale = first.value + second.value := by
  have left := (scaled_eq_iff (le_max_left first.scale second.scale) first.mantissa _).mpr rfl
  have right := (scaled_eq_iff (le_max_right first.scale second.scale) second.mantissa _).mpr rfl
  rw [value, value, left, right, aligned, Int.cast_add, add_div]

private theorem keep_eq_some_iff {exact : Int} {scale kept : Nat} {sum : FixedDecimal bound maxScale} :
    keep exact scale kept = some sum ↔
      sum.scale = kept ∧ sum.mantissa = roundHalfEven exact (10 ^ (scale - kept)) := by
  obtain ⟨mantissa, digits, bounded, scaled⟩ := sum
  unfold keep
  dsimp only
  constructor
  · intro found
    split at found
    next =>
      cases found
      exact ⟨rfl, rfl⟩
    next => cases found
  · intro parts
    obtain ⟨rfl, rfl⟩ := parts
    rw [dif_pos ⟨bounded, scaled⟩]

private theorem fit_keeps {exact : Int} {scale kept : Nat} {sum : FixedDecimal bound maxScale}
    (found : fit exact scale kept = some sum) :
    sum.scale ≤ kept ∧ sum.mantissa = roundHalfEven exact (10 ^ (scale - sum.scale)) := by
  induction kept with
  | zero =>
    obtain ⟨digits, rounded⟩ := keep_eq_some_iff.mp found
    exact ⟨digits.le, by rw [rounded, digits]⟩
  | succ kept ih =>
    rcases Option.or_eq_some_iff.mp found with first | ⟨_, rest⟩
    · obtain ⟨digits, rounded⟩ := keep_eq_some_iff.mp first
      exact ⟨digits.le, by rw [rounded, digits]⟩
    · exact ⟨(ih rest).1.trans (Nat.le_succ kept), (ih rest).2⟩

section Overflow
variable {exact : Int} {scale kept : Nat} (even : 2 ∣ bound) (nonneg : 0 ≤ exact) (scaled : scale ≤ maxScale)
include even nonneg scaled

private theorem keep_found_iff (high : kept ≤ scale) :
    (∃ sum : FixedDecimal bound maxScale, keep exact scale kept = some sum) ↔
      2 * exact + (10 ^ (scale - kept) : Nat) < 2 * ((10 ^ (scale - kept) : Nat) * (bound : Int)) := by
  have positive : 0 < 10 ^ (scale - kept) := by positivity
  have rounded := roundHalfEven_nonneg nonneg positive
  rw [← roundHalfEven_lt_iff (by exact_mod_cast even) positive]
  constructor
  · intro ⟨sum, found⟩
    have bounded := sum.bounded
    rw [(keep_eq_some_iff.mp found).2] at bounded
    omega
  · intro below
    have bounded : (roundHalfEven exact (10 ^ (scale - kept))).natAbs < bound := by omega
    exact ⟨⟨_, kept, bounded, high.trans scaled⟩, keep_eq_some_iff.mpr ⟨rfl, rfl⟩⟩

/-- Only the integer part of a number can be too large for every number of digits. -/
theorem fit_found_iff (high : kept ≤ scale) :
    (∃ sum : FixedDecimal bound maxScale, fit exact scale kept = some sum) ↔
      2 * exact + (10 ^ scale : Nat) < 2 * ((10 ^ scale : Nat) * (bound : Int)) := by
  induction kept with
  | zero => exact keep_found_iff even nonneg scaled high
  | succ kept ih =>
    have fewer := ih (by omega)
    constructor
    · intro ⟨sum, found⟩
      rcases Option.or_eq_some_iff.mp found with first | ⟨_, rest⟩
      · have below := (keep_found_iff even nonneg scaled high).mp ⟨sum, first⟩
        obtain ⟨dropped, rfl⟩ := Nat.exists_eq_add_of_le high
        rw [Nat.add_sub_cancel_left] at below
        have wider : (10 ^ dropped : Nat) ≤ 10 ^ (kept + 1 + dropped) := Nat.pow_le_pow_right (by decide) (by omega)
        have wider : ((10 ^ dropped : Nat) : Int) ≤ (10 ^ (kept + 1 + dropped) : Nat) := by exact_mod_cast wider
        nlinarith
      · exact fewer.mp ⟨sum, rest⟩
    · intro below
      obtain ⟨sum, found⟩ := fewer.mpr below
      cases first : (keep exact scale (kept + 1) : Option (FixedDecimal bound maxScale)) with
      | some sum => exact ⟨sum, by rw [fit, first, Option.some_or]⟩
      | none => exact ⟨sum, by rw [fit, first, Option.none_or, found]⟩

end Overflow

private theorem keep_exact {mantissa : Int} {scale least kept : Nat} {sum : FixedDecimal bound maxScale}
    (low : least ≤ kept)
    (high : kept ≤ scale) (found : keep (mantissa * 10 ^ (scale - least)) scale kept = some sum) :
    sum.value = (mantissa * 10 ^ (scale - least) : Int) / 10 ^ scale := by
  obtain ⟨rfl, rounded⟩ := keep_eq_some_iff.mp found
  have split : mantissa * 10 ^ (scale - least) =
      mantissa * 10 ^ (sum.scale - least) * ((10 ^ (scale - sum.scale) : Nat) : Int) := by
    rw [Nat.cast_pow, mul_assoc, Nat.cast_ofNat, ← pow_add]
    congr 2
    omega
  rw [split, roundHalfEven_mul _ (by positivity)] at rounded
  apply (scaled_eq_iff high sum.mantissa _).mpr
  rw [rounded, split, Nat.cast_pow, Nat.cast_ofNat]

private theorem fit_exact {mantissa : Int} {scale least kept : Nat} (bounded : mantissa.natAbs < bound)
    (scaled : scale ≤ maxScale)
    (low : least ≤ kept) (high : kept ≤ scale) : ∃ sum : FixedDecimal bound maxScale,
      fit (mantissa * 10 ^ (scale - least)) scale kept = some sum ∧
      sum.value = (mantissa * 10 ^ (scale - least) : Int) / 10 ^ scale := by
  have small : least ≤ maxScale := by omega
  -- With the fewest digits that are needed, nothing is rounded.
  have last : keep (mantissa * 10 ^ (scale - least)) scale least =
      some (⟨mantissa, least, bounded, small⟩ : FixedDecimal bound maxScale) := by
    apply keep_eq_some_iff.mpr
    refine ⟨rfl, ?_⟩
    have rounded := roundHalfEven_mul mantissa (show 0 < 10 ^ (scale - least) by positivity)
    rw [Nat.cast_pow, Nat.cast_ofNat] at rounded
    exact rounded.symm
  induction kept with
  | zero =>
    obtain rfl : least = 0 := Nat.le_zero.mp low
    exact ⟨_, last, keep_exact le_rfl high last⟩
  | succ kept ih =>
    cases first : (keep (mantissa * 10 ^ (scale - least)) scale (kept + 1) : Option (FixedDecimal bound maxScale)) with
    | some sum => exact ⟨sum, by rw [fit, first, Option.some_or], keep_exact low high first⟩
    | none =>
      have fewer : least ≠ kept + 1 := by
        intro same
        subst same
        rw [last] at first
        cases first
      obtain ⟨sum, found, exact⟩ := ih (by omega) (by omega)
      exact ⟨sum, by rw [fit, first, Option.none_or, found], exact⟩

/-- A sum is neither missing nor rounded exactly if it fits. -/
theorem add_exact_iff (first second : FixedDecimal bound maxScale) :
    (∃ sum, add first second = some sum ∧ sum.value = first.value + second.value) ↔
      Fits bound (aligned first second) (max first.scale second.scale) := by
  rw [← aligned_value]
  constructor
  · intro ⟨sum, found, same⟩
    have le := (fit_keeps found).1
    exact ⟨sum.scale, le, sum.mantissa, sum.bounded, (scaled_eq_iff le _ _).mp same⟩
  · intro ⟨kept, le, mantissa, bounded, same⟩
    rw [add, same]
    exact fit_exact bounded (max_le first.scaled second.scaled) le le_rfl

theorem sub_exact_iff (first second : FixedDecimal bound maxScale) :
    (∃ difference, sub first second = some difference ∧ difference.value = first.value - second.value) ↔
      Fits bound (aligned first second.neg) (max first.scale second.scale) := by
  rw [sub_eq_add_neg, ← value_neg]
  exact add_exact_iff first second.neg

private theorem value_le (decimal : FixedDecimal bound maxScale) : decimal.value ≤ bound - 1 := by
  have inside := decimal.bounded
  have bounded : (decimal.mantissa : ℚ) ≤ (bound - 1 : Int) := by exact_mod_cast (by omega : decimal.mantissa ≤ bound - 1)
  have positive : (0 : ℚ) ≤ (bound - 1 : Int) := by exact_mod_cast (by omega : (0 : Int) ≤ bound - 1)
  have unit : (1 : ℚ) ≤ 10 ^ decimal.scale := one_le_pow₀ (by norm_num)
  push_cast at bounded positive
  rw [value, div_le_iff₀ (by positivity)]
  nlinarith

/-- A sum that is not negative overflows from half a unit below the bound on, and is not rounded
below zero. -/
theorem add_nonneg_iff (even : 2 ∣ bound) {first second : FixedDecimal bound maxScale}
    (nonneg : 0 ≤ first.value + second.value) :
    (∃ sum, add first second = some sum ∧ 0 ≤ sum.value) ↔ first.value + second.value < bound - 1 / 2 := by
  have scaled := max_le first.scaled second.scaled
  have positive : (0 : ℚ) < 10 ^ max first.scale second.scale := by positivity
  rw [← aligned_value] at nonneg ⊢
  have nonneg : 0 ≤ aligned first second := by
    have scaled := mul_nonneg nonneg positive.le
    rw [div_mul_cancel₀ _ positive.ne'] at scaled
    exact_mod_cast scaled
  have fits := fit_found_iff even nonneg scaled le_rfl
  rw [div_lt_iff₀ positive]
  constructor
  · intro ⟨sum, found, _⟩
    have below : (2 * aligned first second + (10 ^ max first.scale second.scale : Nat) : ℚ) <
        2 * ((10 ^ max first.scale second.scale : Nat) * (bound : ℚ)) := by exact_mod_cast fits.mp ⟨sum, found⟩
    rw [Nat.cast_pow, Nat.cast_ofNat] at below
    linarith
  · intro below
    obtain ⟨sum, found⟩ := fits.mpr (by
      have below : (2 * aligned first second + (10 ^ max first.scale second.scale : Nat) : ℚ) <
          2 * ((10 ^ max first.scale second.scale : Nat) * (bound : ℚ)) := by
        rw [Nat.cast_pow, Nat.cast_ofNat]
        linarith
      exact_mod_cast below)
    refine ⟨sum, found, div_nonneg ?_ (by positivity)⟩
    rw [(fit_keeps found).2]
    exact_mod_cast roundHalfEven_nonneg nonneg (by positivity)

/-- A difference that is not negative does not overflow. -/
theorem sub_nonneg {first second : FixedDecimal bound maxScale} (even : 2 ∣ bound) (positive : 0 ≤ second.value)
    (covered : second.value ≤ first.value) : ∃ difference, sub first second = some difference ∧ 0 ≤ difference.value := by
  apply (add_nonneg_iff even _).mpr
  · have := first.value_le
    rw [value_neg]
    linarith
  · rw [value_neg]
    linarith

end FixedDecimal
end BankingEs
