import Mathlib.Data.Fintype.BigOperators
import BankingEs.Proofs.Linearizable

/-! The books of the concurrent handlers, over a store whose reports are not lost: every balance
is what it was, plus what the calls that succeeded paid in and minus what they took out. -/

namespace BankingEs.Proofs.Books
open Async Bank World AccountRepository Linearizable

variable {ι Value : Type} {codec : Codec Value} {fails : Prop}

def balanceOf (bank : Bank) (id : Uuid) : Decimal := (bank id).elim 0 Account.balance

/-- What a successful operation adds to the balance of an account. -/
def credit (id : Uuid) : Operation → Except AccountError Answer → Decimal
  | .createAccount _ initialBalance, .ok (.created accountId) => if accountId = id then initialBalance else 0
  | .change accountId (.depositMoney amount), .ok _ => if accountId = id then amount else 0
  | .change accountId (.withdrawMoney amount), .ok _ => if accountId = id then -amount else 0
  | _, _ => 0

@[simp] theorem credit_error (id : Uuid) (operation : Operation) (error : AccountError) :
    credit id operation (.error error) = 0 := by
  cases operation with
  | change accountId change => cases change <;> rfl
  | _ => rfl

private theorem balanceOf_update (bank : Bank) (accountId id : Uuid) (account : Account) :
    balanceOf (Function.update bank accountId (some account)) id =
      if accountId = id then account.balance else balanceOf bank id := by
  by_cases same : id = accountId
  · subst same
    simp [balanceOf]
  · simp [balanceOf, same, Ne.symm same]

private theorem apply_credit {change : Change} {account next : Account} (applied : change.apply account = .ok next)
    (id : Uuid)
    (events : List AccountEvent) :
    next.balance = account.balance + credit id (.change id change) (.ok (.changed events)) := by
  cases change with
  | depositMoney amount =>
    simp only [Change.apply] at applied
    split at applied
    · cases applied
    · split at applied
      · cases applied
      · cases applied
        simp [credit]
  | withdrawMoney amount =>
    simp only [Change.apply] at applied
    split at applied
    · cases applied
    · split at applied
      · cases applied
      · split at applied
        · cases applied
        · cases applied
          simp [credit, sub_eq_add_neg]
  | closeAccount reason =>
    simp only [Change.apply] at applied
    split at applied
    · cases applied
    · cases applied
      simp [credit]

private theorem credit_other {accountId id : Uuid} {change : Change} (apart : accountId ≠ id)
    (answer : Except AccountError Answer) :
    credit id (.change accountId change) answer = 0 := by
  cases answer with
  | error error => exact credit_error _ _ _
  | ok answer => cases change <;> simp [credit, apart]

private theorem executes_credit {operation : Operation} {before after : Bank} {answer : Except AccountError Answer}
    (executes : Executes before operation answer after) (id : Uuid) :
    balanceOf after id = balanceOf before id + credit id operation answer := by
  cases executes with
  | @created accountId ownerName initialBalance fresh valid =>
    rw [balanceOf_update]
    by_cases mine : accountId = id
    · subst mine
      simp [balanceOf, fresh, credit]
    · simp [credit, mine]
  | @changed accountId transactionId account next change found applied =>
    rw [balanceOf_update]
    by_cases mine : accountId = id
    · subst mine
      rw [if_pos rfl, balanceOf, found]
      exact apply_credit applied accountId _
    · rw [if_neg mine, credit_other mine, add_zero]
  | account => simp [credit]
  | balance => simp [credit]
  | active => simp [credit]
  | _ => rw [credit_error, add_zero]

private theorem attempts_credit {operation : Operation} {before after : Bank} {answer : Except AccountError Answer}
    (attempts : Attempts False operation before answer after) (id : Uuid) :
    balanceOf after id = balanceOf before id + credit id operation answer := by
  cases attempts with
  | executes executes => exact executes_credit executes id
  | fails message => rw [credit_error, add_zero]
  | unreported lost => exact lost.elim

/-- When all calls have returned, whatever way they interleaved and whatever failed, every
account has its initial balance plus the opening and deposits that succeeded, minus the
withdrawals that succeeded: no update is lost, and none happens twice or unasked. -/
theorem books_balance [Fintype ι] [DecidableEq ι] {operations : ι → Operation} {first last : World ι Value}
    {history : List (Served ι (Call Value) (World ι Value))}
    {threads : ι → Program (Call Value) (Except AccountError Answer)} {answers : ι → Except AccountError Answer}
    (logged : Logged codec first)
    (run : Interleaves (honest codec fails False) (fun thread => program codec (operations thread)) first history
      threads last)
    (returned : ∀ thread, threads thread = .pure (answers thread)) (id : Uuid) :
    balanceOf (bank codec last) id =
      balanceOf (bank codec first) id + ∑ thread, credit id (operations thread) (answers thread) := by
  have compatible (thread other : ι) (before after : World ι Value) (_ : thread ≠ other)
      (grows : Grows codec before after) : Grows codec before after := grows
  obtain ⟨points, explained, once, points_of⟩ :=
    Interleaves.linearizes compatible (fun thread => program_commits (operations thread) logged) run
  have total := explained.sequential.sum (fun bank => balanceOf bank id)
    (fun thread answer => credit id (operations thread) answer) fun _ _ _ _ attempts => attempts_credit attempts id
  rw [total, sum_points (fun thread answer => credit id (operations thread) answer) once
    fun thread => points_of thread _ (returned thread)]

/-- An account is opened with ten. -/
theorem opening_balances :
    ∃ (history : List (Served Unit (Call AccountEvent) (World Unit AccountEvent)))
      (threads : Unit → Program (Call AccountEvent) (Except AccountError Answer)) (last : World Unit AccountEvent),
      Interleaves (honest .plain False False) (fun _ => program .plain (.createAccount "Ann" 10)) {} history threads last ∧
      threads () = .pure (.ok (.created ⟨7⟩)) ∧ balanceOf (bank .plain last) ⟨7⟩ = 10 := by
  have begun : Interleaves (honest .plain False False) (fun _ : Unit => program .plain (.createAccount "Ann" 10))
      ({} : World Unit AccountEvent) [] _ _ := .start
  have drawn := begun.serve () (⟨7⟩ : Uuid) rfl ⟨serves_now ⟨by simp, rfl⟩, trivial⟩
  have unused := drawn.serve () (⟨8⟩ : Uuid) rfl ⟨serves_now ⟨by simp, rfl⟩, trivial⟩
  have decided := unused.serve () (⟨9⟩ : Uuid) rfl ⟨serves_now ⟨by simp, rfl⟩, trivial⟩
  have rows : Holds Codec.plain ⟨7⟩ 0 [.accountCreated ⟨7⟩ "Ann" 10] [plainRow ⟨7⟩ 1 (.accountCreated ⟨7⟩ "Ann" 10)] := rfl
  have saved := decided.serve () (.ok ()) rfl
    ⟨serves_now (Saves.stored rfl rows), fun _ => rfl, fun _ _ failed => by cases failed⟩
  have logged : Logged Codec.plain ({} : World Unit AccountEvent) := fun id => ⟨[], rfl⟩
  have total := @books_balance Unit AccountEvent .plain False _ _ (fun _ => .createAccount "Ann" 10) _ _ _ _
    (fun _ => .ok (.created ⟨7⟩)) logged saved (fun _ => rfl) ⟨7⟩
  refine ⟨_, _, _, saved, rfl, total.trans ?_⟩
  have nothing : balanceOf (bank .plain ({} : World Unit AccountEvent)) ⟨7⟩ = 0 := rfl
  rw [nothing, zero_add, Fintype.sum_unique]
  rfl

end BankingEs.Proofs.Books
