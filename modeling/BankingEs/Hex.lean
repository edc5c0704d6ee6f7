import Mathlib.Algebra.Group.Nat.Defs
import Mathlib.Data.Nat.Basic
import Mathlib.Data.List.Basic

/-! Hexadecimal digits of a fixed count, and the number that they are read back as. -/

namespace BankingEs.Hex

/-- The last digits of a number, the most significant first. -/
def digits : (count number : Nat) → List Char
  | 0, _ => []
  | count + 1, number => digits count (number / 16) ++ [(number % 16).digitChar]

def digit (character : Char) : Nat := if character.toNat < 97 then character.toNat - 48 else character.toNat - 87

def value (digits : List Char) : Nat := digits.foldl (fun sum character => 16 * sum + digit character) 0

@[simp] theorem digits_length (count number : Nat) : (digits count number).length = count := by
  induction count generalizing number with
  | zero => rfl
  | succ count ih => rw [digits, List.length_append, ih, List.length_singleton]

private theorem digit_digitChar {number : Nat} (small : number < 16) : digit number.digitChar = number := by
  have all : ∀ number : Fin 16, digit (number : Nat).digitChar = number := by decide
  exact all ⟨number, small⟩

theorem value_digits {count number : Nat} (fits : number < 16 ^ count) : value (digits count number) = number := by
  induction count generalizing number with
  | zero =>
    rw [Nat.pow_zero, Nat.lt_one_iff] at fits
    exact fits.symm
  | succ count ih =>
    have front : number / 16 < 16 ^ count := Nat.div_lt_of_lt_mul (by rwa [Nat.pow_succ'] at fits)
    rw [digits, value, List.foldl_append]
    change 16 * value (digits count (number / 16)) + digit (number % 16).digitChar = number
    rw [ih front, digit_digitChar (Nat.mod_lt _ (by decide)), Nat.div_add_mod]

end BankingEs.Hex
