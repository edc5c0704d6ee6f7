import Mathlib.Data.List.Basic
import Mathlib.Logic.Relation

/-! Stores that forget. A state holds values under keys, in as many places as it
likes. A step may lose what is held, and a write leaves nothing but the written
value under its key; no step brings a value back. -/

namespace BankingEs.Forgetful
open Relation

variable {σ κ α : Type}

def Loses (holds : σ → κ → α → Prop) (before after : σ) : Prop :=
  ∀ ⦃key value⦄, holds after key value → holds before key value

/-- Only the written value is held under its key, and nothing new under the others. -/
def Writes (holds : σ → κ → α → Prop) (key : κ) (value : α) (before after : σ) : Prop :=
  ∀ ⦃other held⦄, holds after other held → other = key ∧ held = value ∨ other ≠ key ∧ holds before other held

variable {holds : σ → κ → α → Prop} {before middle after : σ} {key : κ} {value : α}

private theorem Loses.refl (state : σ) : Loses holds state state := fun _ _ held => held

theorem Loses.trans (first : Loses holds before middle) (last : Loses holds middle after) : Loses holds before after :=
  fun _ _ held => first (last held)

theorem Loses.of_moves {move : σ → σ → Prop} (loses : ∀ before after, move before after → Loses holds before after)
    (moves : ReflTransGen move before after) : Loses holds before after := by
  induction moves with
  | refl => exact .refl _
  | tail _ step ih => exact ih.trans (loses _ _ step)

theorem Loses.writes (first : Loses holds before middle) (last : Writes holds key value middle after) :
    Writes holds key value before after := by
  intro other held present
  rcases last present with written | ⟨differs, present⟩
  · exact .inl written
  · exact .inr ⟨differs, first present⟩

def Step (holds : σ → κ → α → Prop) : Option (κ × α) → σ → σ → Prop
  | none => Loses holds
  | some (key, value) => Writes holds key value

inductive Trace (holds : σ → κ → α → Prop) (first : σ) : List (Option (κ × α)) → σ → Prop where
  | start : Trace holds first [] first
  | step {labels : List (Option (κ × α))} {before after : σ} {label : Option (κ × α)}
      (trace : Trace holds first labels before) (step : Step holds label before after) :
      Trace holds first (labels ++ [label]) after

variable [DecidableEq κ]

/-- A map from which a key is taken has lost at most that key. -/
theorem update_none (entries : κ → Option α) (key other : κ) :
    Function.update entries key none other = entries other ∨ Function.update entries key none other = none := by
  rw [Function.update_apply]
  split
  next => exact .inr rfl
  next => exact .inl rfl

/-- The values written under a key, in order. -/
def writesTo (key : κ) (labels : List (Option (κ × α))) : List α :=
  labels.filterMap fun label => label.bind fun write => if write.1 = key then some write.2 else none

@[simp] theorem writesTo_none (key : κ) (labels : List (Option (κ × α))) :
    writesTo key (labels ++ [none]) = writesTo key labels := by
  simp [writesTo]

@[simp] theorem writesTo_own (key : κ) (value : α) (labels : List (Option (κ × α))) :
    writesTo key (labels ++ [some (key, value)]) = writesTo key labels ++ [value] := by
  simp [writesTo]

private theorem writesTo_other {other : κ} (differs : other ≠ key) (value : α) (labels : List (Option (κ × α))) :
    writesTo other (labels ++ [some (key, value)]) = writesTo other labels := by
  simp [writesTo, differs.symm]

namespace Trace
variable {first last : σ} {labels : List (Option (κ × α))}

/-- A value that is held was held from the start, or is the last one written. -/
theorem held (trace : Trace holds first labels last) (present : holds last key value) :
    (writesTo key labels = [] ∧ holds first key value) ∨ (writesTo key labels).getLast? = some value := by
  induction trace generalizing value with
  | start => exact .inl ⟨rfl, present⟩
  | @step labels before after label trace step ih =>
    cases label with
    | none =>
      rw [writesTo_none]
      exact ih (step present)
    | some write =>
      obtain ⟨written, given⟩ := write
      rcases step present with ⟨rfl, rfl⟩ | ⟨differs, present⟩
      · exact .inr (by rw [writesTo_own, List.getLast?_concat])
      · rw [writesTo_other differs]
        exact ih present

/-- What an empty store holds later is the last value written. -/
theorem last_written (trace : Trace holds first labels last) (empty : ∀ key value, ¬holds first key value)
    (present : holds last key value) : (writesTo key labels).getLast? = some value := by
  rcases trace.held present with ⟨_, initial⟩ | written
  · exact absurd initial (empty key value)
  · exact written

theorem absent (trace : Trace holds first labels last) (gone : ∀ value, ¬holds first key value)
    (unwritten : writesTo key labels = []) : ¬holds last key value := by
  intro present
  rcases trace.held present with ⟨_, initial⟩ | written
  · exact gone value initial
  · simp [unwritten] at written

end Trace
end BankingEs.Forgetful
