import BankingEs.Async.Sequential

/-! Programs that fail at certain replies and at no others. Whatever comes before the first
of these replies is handled inside the program. -/

namespace BankingEs.Async.Program

variable {R S : Type → Type} {ε α β κ : Type}

/-- The first harmful reply ends the program with an error, and without one it succeeds. -/
def FailsOn (harmful : {β : Type} → R β → β → Prop) : Program R (Except ε α) → Prop
  | .pure result => ∃ value, result = .ok value
  | .request op resume => ∀ reply,
    (harmful op reply → ∃ error, resume reply = .pure (.error error)) ∧
    (¬ harmful op reply → (resume reply).FailsOn harmful)

variable {harmful : {β : Type} → R β → β → Prop} {allowed : {β : Type} → R β → Prop}

theorem FailsOn.send {op : R (Except ε α)} (harms : ∀ reply, harmful op reply ↔ ∃ error, reply = .error error) :
    (Program.send op).FailsOn harmful := by
  intro reply
  cases reply with
  | error error => exact ⟨fun _ => ⟨error, rfl⟩, fun fine => absurd ((harms _).mpr ⟨error, rfl⟩) fine⟩
  | ok value =>
    refine ⟨fun harm => ?_, fun _ => ⟨value, rfl⟩⟩
    obtain ⟨error, failed⟩ := (harms _).mp harm
    cases failed

theorem FailsOn.andThen {program : Program R (Except ε α)} {next : α → Program R (Except ε β)}
    (fails : program.FailsOn harmful) (rest : ∀ value, (next value).FailsOn harmful) :
    (program.andThen next).FailsOn harmful := by
  induction program with
  | pure result =>
    obtain ⟨value, rfl⟩ := fails
    exact rest value
  | request op resume ih =>
    intro reply
    refine ⟨fun harms => ?_, fun fine => ih reply ((fails reply).2 fine)⟩
    obtain ⟨error, stops⟩ := (fails reply).1 harms
    have stopped : (resume reply).andThen next = .pure (.error error) := by
      rw [stops]
      rfl
    exact ⟨error, stopped⟩

/-- What cannot do harm may come first, with any result. -/
theorem FailsOn.after {program : Program R α} {next : α → Program R (Except ε β)}
    (harmless : program.Uses fun op => ∀ reply, ¬ harmful op reply) (rest : ∀ value, (next value).FailsOn harmful) :
    (program >>= next).FailsOn harmful := by
  induction program with
  | pure value => exact rest value
  | request op resume ih =>
    intro reply
    exact ⟨fun harms => absurd harms (harmless.1 reply), fun _ => ih reply (harmless.2 reply)⟩

theorem FailsOn.forEach {body : κ → Program R (Except ε Unit)} (fails : ∀ item, (body item).FailsOn harmful)
    (items : List κ) : (Program.forEach body items).FailsOn harmful := by
  induction items with
  | nil => exact ⟨(), rfl⟩
  | cons item items ih => exact (fails item).andThen fun _ => ih

theorem Uses.forEach {body : κ → Program R (Except ε Unit)} (uses : ∀ item, (body item).Uses allowed)
    (items : List κ) : (Program.forEach body items).Uses allowed := by
  induction items with
  | nil => trivial
  | cons item items ih => exact (uses item).andThen fun _ => ih

theorem Uses.embed {request : {β : Type} → S β → R β} (all : ∀ {β : Type} (op : S β), allowed (request op))
    (program : Program S α) : (program.embed request).Uses allowed := by
  induction program with
  | pure value => trivial
  | request op resume ih => exact ⟨all op, ih⟩

end BankingEs.Async.Program
