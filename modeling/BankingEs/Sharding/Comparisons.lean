import Mathlib.Algebra.Order.Field.Basic
import Mathlib.Algebra.Order.Field.Rat
import BankingEs.Sharding.Shards

/-! The comparisons of the rebalancing on rational numbers. -/

namespace BankingEs.Comparisons

def average (count : Nat) (entries : InstanceShards) : ℚ := count / entries.length

def exact (threshold : ℚ) : Comparisons where
  isUnbalanced count entries entry :=
    threshold < |(entry.2.length : ℚ) - average count entries| / average count entries
  isOverloaded count entries entry := average count entries * (1 + threshold) < entry.2.length
  isUnderloaded count entries entry :=
    !decide (average count entries * (1 + threshold) < entry.2.length) &&
      decide (entry.2.length < average count entries * (1 - threshold))

end BankingEs.Comparisons
