import Mathlib.Data.List.Nodup

/-! Lists of values under keys that are different from each other. -/

namespace BankingEs.Keyed

variable {κ α : Type} [BEq κ] [LawfulBEq κ]

theorem lookup_eq_some_iff_mem {entries : List (κ × α)} (distinct : (entries.map Prod.fst).Nodup) {key : κ}
    {value : α} :
    entries.lookup key = some value ↔ (key, value) ∈ entries := by
  constructor
  · intro found
    obtain ⟨before, after, rfl, _⟩ := List.lookup_eq_some_iff.mp found
    exact List.mem_append_right _ List.mem_cons_self
  · intro member
    obtain ⟨before, after, rfl⟩ := List.append_of_mem member
    refine List.lookup_eq_some_iff.mpr ⟨before, after, rfl, ?_⟩
    intro other inside
    rw [List.map_append, List.nodup_append] at distinct
    have differs := distinct.2.2 other.1 (List.mem_map_of_mem inside) key (by simp)
    simpa using differs.symm

end BankingEs.Keyed
