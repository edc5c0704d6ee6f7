import BankingEs.Projections.Dispatch

/-! Which calls through `ProjectionStoreTrait` return. A read finds an inherent function of its name.
A write finds only itself, and calls itself for good. -/

namespace BankingEs.Proofs.ProjectionWrites
open ProjectionFunction ProjectionStoreCall Relation

variable {call : ProjectionStoreCall} {channel : List ProjectionUpdate} {last : Frames}

private theorem function_mem (call : ProjectionStoreCall) : call.function ∈ traitFunctions := by
  cases call <;> simp [function, traitFunctions]

private theorem resolve_of_mem {function : ProjectionFunction} (inherent : function ∈ inherentFunctions) :
    resolve function = some .inherent := if_pos inherent

private theorem resolve_of_not_mem (only : call.function ∉ inherentFunctions) :
    resolve call.function = some .projectionStoreTrait := by
  rw [resolve, if_neg only, if_pos (function_mem call)]

/-- Only the function of the trait is entered, once and again. -/
structure Descends (channel : List ProjectionUpdate) (frames : Frames) : Prop where
  entered : ∃ depth, frames.entered = List.replicate (depth + 1) .projectionStoreTrait
  channel : frames.channel = channel

private theorem Descends.step {frames next : Frames} (only : call.function ∉ inherentFunctions)
    (descends : Descends channel frames) (step : Step call frames next) : Descends channel next := by
  obtain ⟨⟨depth, entered⟩, same⟩ := descends
  cases step with
  | @forwards impl frames channel resolved =>
    rw [resolve_of_not_mem only, Option.some.injEq] at resolved
    subst resolved
    refine ⟨⟨depth + 1, ?_⟩, same⟩
    exact congrArg (List.cons Impl.projectionStoreTrait) entered
  | returns =>
    rw [List.replicate_succ] at entered
    cases entered

private theorem Descends.steps (only : call.function ∉ inherentFunctions) (steps : Steps call (made channel) last) :
    Descends channel last := by
  induction steps with
  | refl => exact ⟨⟨0, rfl⟩, rfl⟩
  | tail _ step ih => exact ih.step only step

private theorem Descends.goes_on {frames : Frames} (only : call.function ∉ inherentFunctions)
    (descends : Descends channel frames) : ∃ next, Step call frames next := by
  obtain ⟨⟨depth, entered⟩, _⟩ := descends
  obtain ⟨stack, messages⟩ := frames
  obtain rfl : stack = _ := entered
  exact ⟨_, .forwards (resolve_of_not_mem only)⟩

/-- A call returns exactly if its name is that of an inherent function. -/
theorem returns_iff (call : ProjectionStoreCall) (channel : List ProjectionUpdate) :
    (∃ last, Steps call (made channel) last ∧ last.entered = []) ↔ call.function ∈ inherentFunctions := by
  constructor
  · intro returned
    obtain ⟨last, steps, left⟩ := returned
    by_contra only
    obtain ⟨⟨depth, entered⟩, _⟩ := Descends.steps only steps
    rw [left] at entered
    cases entered
  · intro inherent
    exact ⟨_, .tail (.single (.forwards (resolve_of_mem inherent))) .returns, rfl⟩

/-- The call that is to queue a message. -/
def write : ProjectionUpdate → ProjectionStoreCall
  | .accountBatch accounts => .upsertAccountsBatch accounts
  | .transactionBatch transactions => .insertTransactionsBatch transactions

private theorem write_not_inherent (update : ProjectionUpdate) : (write update).function ∉ inherentFunctions := by
  cases update with
  | accountBatch accounts =>
    change ProjectionFunction.upsertAccountsBatch ∉ inherentFunctions
    decide
  | transactionBatch transactions =>
    change ProjectionFunction.insertTransactionsBatch ∉ inherentFunctions
    decide

/-- No write returns, whatever its rows: it is always inside itself, it can always go further in,
and nothing is put on the channel. -/
theorem write_never_queued (update : ProjectionUpdate) (channel : List ProjectionUpdate) :
    (¬∃ last, Steps (write update) (made channel) last ∧ last.entered = [] ∧ last.channel = channel ++ [update]) ∧
      ∀ last, Steps (write update) (made channel) last →
        last.entered ≠ [] ∧ last.channel = channel ∧ ∃ next, Step (write update) last next := by
  have only := write_not_inherent update
  have inside : ∀ last, Steps (write update) (made channel) last → last.entered ≠ [] := by
    intro last steps left
    exact only ((returns_iff (write update) channel).mp ⟨last, steps, left⟩)
  refine ⟨?_, ?_⟩
  · intro returned
    obtain ⟨last, steps, left, _⟩ := returned
    exact inside last steps left
  · intro last steps
    have descends := Descends.steps only steps
    exact ⟨inside last steps, descends.channel, descends.goes_on only⟩

def created : AccountProjection := Sample.row ⟨1⟩ 10

theorem created_account_not_queued : ¬∃ last, Steps (write (.accountBatch [created])) (made []) last ∧
    last.entered = [] ∧ last.channel = [.accountBatch [created]] := by
  intro returned
  obtain ⟨last, steps, left, _⟩ := returned
  obtain ⟨⟨depth, entered⟩, _⟩ := Descends.steps (write_not_inherent (.accountBatch [created])) steps
  rw [left] at entered
  cases entered

end BankingEs.Proofs.ProjectionWrites
