import BankingEs.Proofs.Footprint

/-! The duplicate check of `AccountService` over whole runs. The command cache is
keyed by the account alone and nothing is ever removed from it, so a check is
answered by whether any call has been checked under that id before. -/

namespace BankingEs.Proofs.Deduplication
open Async World

variable {ι Value : Type} {env : Environment Value}

inductive Operation where
  | createAccount (ownerName : String) (initialBalance : Decimal)
  | depositMoney (accountId : Uuid) (amount : Decimal)
  | withdrawMoney (accountId : Uuid) (amount : Decimal)

namespace Operation

def program (codec : Codec Value) : Operation → Program (Call Value) (Except AccountError (Option Uuid))
  | createAccount ownerName initialBalance =>
    (AccountService.createAccount ownerName initialBalance).andThen fun id => .pure (.ok (some id))
  | depositMoney accountId amount =>
    (AccountService.depositMoney codec accountId amount).andThen fun _ => .pure (.ok none)
  | withdrawMoney accountId amount =>
    (AccountService.withdrawMoney codec accountId amount).andThen fun _ => .pure (.ok none)

def account : Operation → Option Uuid
  | createAccount .. => none
  | depositMoney accountId _ => some accountId
  | withdrawMoney accountId _ => some accountId

end Operation

/-- The id under which a call looks for a duplicate. -/
def checks {β : Type} : Call Value β → Option Uuid
  | .isDuplicateCommand commandId => some commandId
  | _ => none

def refuses : Served ι (Call Value) (World ι Value) → Bool
  | ⟨_, .isDuplicateCommand _, duplicate, _⟩ => duplicate
  | _ => false

/-- The same kind of operation on the same account with the same amount was
submitted before, no longer ago than the window. -/
def Repeats (requests : ι → Operation) (window : Duration) (past : List (Served ι (Call Value) (World ι Value)))
    (entry : Served ι (Call Value) (World ι Value)) : Prop :=
  ∃ earlier ∈ past, (checks earlier.op).isSome ∧ requests earlier.thread = requests entry.thread ∧
    entry.world.now ≤ earlier.world.now + window

section Footprints
open AccountService Footprint

variable {codec : Codec Value}

private theorem reading_unchecked {β : Type} {op : Call Value β} (reading : isReading op) : checks op = none := by
  cases op with
  | isDuplicateCommand => cases reading
  | _ => rfl

private theorem upkeep_unchecked {β : Type} {op : Call Value β} (upkeep : isUpkeep op) : checks op = none := by
  cases op with
  | isDuplicateCommand => cases upkeep
  | _ => rfl

/-- A deposit or a withdrawal looks for a duplicate under its account only. -/
theorem execute_checks (duplicate : String) (id : Uuid) (command : AccountCommand) :
    (execute codec duplicate id command).Uses fun op => ∀ checked, checks op = some checked → checked = id := by
  have harmless {β : Type} (op : Call Value β) (unchecked : checks op = none) :
      ∀ checked, checks op = some checked → checked = id := by simp [unchecked]
  refine ⟨by simp [checks], fun refused => ?_⟩
  cases refused with
  | true => trivial
  | false =>
    apply ((readAndDecide_uses id command).imp fun op reading => harmless op (reading_unchecked reading)).andThen
    intro decided
    apply Program.Uses.andThen
    · exact ⟨harmless _ rfl, fun _ => trivial⟩
    · intro _
      apply ((updateProjections_uses decided.2).imp fun op upkeep => harmless op (upkeep_unchecked upkeep)).bind
      exact fun _ => trivial

private theorem operation_checks (operation : Operation) :
    (operation.program codec).Uses fun op =>
      ∀ id, operation.account = some id → ∀ checked, checks op = some checked → checked = id := by
  cases operation with
  | createAccount ownerName balance =>
    apply Program.Uses.of_all
    simp [Operation.account]
  | depositMoney accountId amount =>
    apply Program.Uses.andThen
    · apply (execute_checks _ accountId _).imp
      intro _ op checks id same
      cases same
      exact checks
    · exact fun _ => trivial
  | withdrawMoney accountId amount =>
    apply Program.Uses.andThen
    · apply (execute_checks _ accountId _).imp
      intro _ op checks id same
      cases same
      exact checks
    · exact fun _ => trivial

end Footprints

section Runs

private theorem passes_commandCache {before after : World ι Value} (passes : World.Passes before after) :
    after.commandCache = before.commandCache := by
  cases passes with
  | waits => rfl
  | cleans => rfl

private theorem serves_commandCache {caller : ι} {β : Type} {before after : World ι Value} {op : Call Value β}
    {reply : β}
    (served : serves env caller before op reply after) (id : Uuid) :
    (after.commandCache id).isSome ↔ (before.commandCache id).isSome ∨ checks op = some id := by
  obtain ⟨ready, passes, step⟩ := served
  rw [← passes_commandCache passes]
  cases op with
  | isDuplicateCommand commandId =>
    obtain ⟨rfl, rfl⟩ := step
    split
    next found =>
      simp only [checks, Option.some.injEq, iff_self_or]
      rintro rfl
      exact found
    next missing =>
      by_cases same : id = commandId
      · simp [same, checks]
      · simp [same, Ne.symm same, checks]
  | newV4 =>
    obtain ⟨-, rfl⟩ := step
    simp [checks]
  | utcNow =>
    obtain rfl := step
    simp [checks]
  | getEvents | projectionsGetAccount =>
    obtain ⟨-, rfl⟩ := step
    simp [checks]
  | saveEvents request => cases step <;> simp [checks]
  | upsertAccountsBatch | insertTransactionsBatch =>
    rcases step with ⟨-, rfl⟩ | ⟨-, rfl⟩ <;> simp [checks]
  | cacheGetAccount | cacheSetAccount =>
    obtain ⟨_, _, _, _, rfl⟩ := step
    simp [checks]

private theorem refuses_checks {entry : Served ι (Call Value) (World ι Value)} (refused : refuses entry) :
    (checks entry.op).isSome := by
  obtain ⟨thread, op, reply, world⟩ := entry
  cases op with
  | isDuplicateCommand commandId => rfl
  | _ => cases refused

/-- A check is refused exactly when the id is in the command cache. -/
theorem refuses_iff {entry : Served ι (Call Value) (World ι Value)} {before : World ι Value} {id : Uuid}
    (checked : checks entry.op = some id)
    (served : serves env entry.thread before entry.op entry.reply entry.world) :
    refuses entry ↔ (before.commandCache id).isSome := by
  obtain ⟨thread, op, reply, world⟩ := entry
  obtain ⟨ready, passes, step⟩ := served
  rw [← passes_commandCache passes]
  cases op with
  | isDuplicateCommand commandId =>
    cases checked
    obtain ⟨rfl, -⟩ := step
    rfl
  | _ => cases checked

variable [DecidableEq ι] {requests : ι → Operation} {first last : World ι Value}
  {history past : List (Served ι (Call Value) (World ι Value))} {entry : Served ι (Call Value) (World ι Value)}
  {threads : ι → Program (Call Value) (Except AccountError (Option Uuid))}

/-- The command cache holds the ids of all checks made since the service started. -/
theorem commandCache_checked (fresh : first.commandCache = fun _ => none)
    (run : Interleaves (serves env) (fun thread => (requests thread).program env.codec) first history threads last)
    (id : Uuid) : (last.commandCache id).isSome ↔ ∃ earlier ∈ history, checks earlier.op = some id := by
  induction run with
  | start => simp [fresh]
  | serve thread reply run pending served ih =>
    rw [serves_commandCache served id, ih]
    simp

private theorem refused_iff_checked (fresh : first.commandCache = fun _ => none)
    (run : Interleaves (serves env) (fun thread => (requests thread).program env.codec) first history threads last)
    (earlier : past ++ [entry] <+: history) {id : Uuid} (checked : checks entry.op = some id) :
    refuses entry ↔ ∃ earlier ∈ past, checks earlier.op = some id := by
  obtain ⟨threads, world, run, served⟩ := run.earlier earlier
  rw [refuses_iff checked served, commandCache_checked fresh run]

/-- Every refused deposit or withdrawal repeats one of the window exactly when every
deposit or withdrawal does that comes after any other call on its account. -/
theorem refusals_repeat_iff (window : Duration) (fresh : first.commandCache = fun _ => none)
    (run : Interleaves (serves env) (fun thread => (requests thread).program env.codec) first history threads last) :
    (∀ past entry id, past ++ [entry] <+: history → (requests entry.thread).account = some id → refuses entry →
        Repeats requests window past entry) ↔
      ∀ past entry id, past ++ [entry] <+: history → (requests entry.thread).account = some id →
        (checks entry.op).isSome → (∃ earlier ∈ past, checks earlier.op = some id) →
        Repeats requests window past entry := by
  have own {past : List (Served ι (Call Value) (World ι Value))} {entry : Served ι (Call Value) (World ι Value)} {id : Uuid}
      (earlier : past ++ [entry] <+: history) (account : (requests entry.thread).account = some id)
      (checked : (checks entry.op).isSome) : checks entry.op = some id := by
    obtain ⟨checkedId, found⟩ := Option.isSome_iff_exists.mp checked
    have member : entry ∈ history := earlier.subset (by simp)
    have same := (run.uses fun thread => operation_checks (requests thread)).1 entry member id account checkedId found
    rw [found, same]
  constructor
  · intro justified past entry id earlier account checked seen
    have answered := refused_iff_checked fresh run earlier (own earlier account checked)
    exact justified past entry id earlier account (answered.mpr seen)
  · intro repeated past entry id earlier account refused
    have checked := refuses_checks refused
    have answered := refused_iff_checked fresh run earlier (own earlier account checked)
    exact repeated past entry id earlier account checked (answered.mp refused)

end Runs

/-- A deposit sent twice within a minute is refused the second time. -/
theorem repeated_deposit_refused :
    ∃ (history : List (Served Bool (Call AccountEvent) (World Bool AccountEvent)))
      (threads : Bool → Program (Call AccountEvent) (Except AccountError (Option Uuid)))
      (last : World Bool AccountEvent),
      Interleaves (serves .accepting) (fun _ => (Operation.depositMoney ⟨7⟩ 5).program .plain) {} history threads last ∧
      threads true = .pure (.error (.infrastructureError "Duplicate deposit command")) ∧
      ∀ past entry id, past ++ [entry] <+: history → (Operation.depositMoney ⟨7⟩ 5).account = some id →
        refuses entry → Repeats (fun _ => .depositMoney ⟨7⟩ 5) (Duration.fromSecs 60) past entry := by
  have begun : Interleaves (serves .accepting) (fun _ : Bool => (Operation.depositMoney ⟨7⟩ 5).program .plain)
      {} [] _ _ := .start
  have checked := begun.serve false false rfl (serves_now ⟨rfl, rfl⟩)
  have refused := checked.serve true true rfl (serves_now ⟨rfl, rfl⟩)
  refine ⟨_, _, _, refused, rfl, ?_⟩
  apply (refusals_repeat_iff (Duration.fromSecs 60) rfl refused).mpr
  intro past entry id earlier _ _ seen
  obtain ⟨first, member, checked⟩ := seen
  rcases List.prefix_concat_iff.mp earlier with second | earlier
  · obtain ⟨rfl, same⟩ := List.append_inj' second rfl
    obtain rfl := List.singleton_inj.mp same
    refine ⟨first, member, ?_, rfl, ?_⟩
    all_goals
      obtain rfl := List.mem_singleton.mp member
      decide
  · have none : past = [] := by
      have shorter := earlier.length_le
      simpa using shorter
    simp [none] at member

def createAndDeposit : Bool → Operation
  | false => .createAccount "Ann" 200
  | true => .depositMoney ⟨1⟩ 10

/-- The owner of a new account cannot make the first deposit. -/
theorem first_deposit_refused :
    ∃ (history : List (Served Bool (Call AccountEvent) (World Bool AccountEvent)))
      (threads : Bool → Program (Call AccountEvent) (Except AccountError (Option Uuid)))
      (last : World Bool AccountEvent),
      Interleaves (serves .accepting) (fun thread => (createAndDeposit thread).program .plain) {} history threads last ∧
      threads false = .pure (.ok (some ⟨1⟩)) ∧
      threads true = .pure (.error (.infrastructureError "Duplicate deposit command")) ∧
      ∃ past entry, past ++ [entry] <+: history ∧ (createAndDeposit entry.thread).account = some ⟨1⟩ ∧ refuses entry ∧
        ∀ window, ¬ Repeats createAndDeposit window past entry := by
  have begun : Interleaves (serves .accepting) (fun thread => (createAndDeposit thread).program .plain) {} [] _ _ := .start
  have drawn := begun.serve false (⟨1⟩ : Uuid) rfl (serves_now ⟨by simp, rfl⟩)
  have checked := drawn.serve false false rfl (serves_now ⟨rfl, rfl⟩)
  have redrawn := checked.serve false (⟨2⟩ : Uuid) rfl (serves_now ⟨by simp, rfl⟩)
  have decided := redrawn.serve false (⟨3⟩ : Uuid) rfl (serves_now ⟨by simp, rfl⟩)
  have rows : Holds Codec.plain ⟨2⟩ 0 [.accountCreated ⟨1⟩ "Ann" 200] [plainRow ⟨2⟩ 1 (.accountCreated ⟨1⟩ "Ann" 200)] := rfl
  have saved := decided.serve false (.ok ()) rfl (serves_now (Saves.stored trivial rows))
  have timed := saved.serve false (0 : DateTime) rfl (serves_now rfl)
  have retimed := timed.serve false (0 : DateTime) rfl (serves_now rfl)
  have projected := retimed.serve false (.ok ()) rfl (serves_now (.inl ⟨rfl, rfl⟩))
  have refused := projected.serve true true rfl (serves_now ⟨rfl, rfl⟩)
  refine ⟨_, _, _, refused, rfl, rfl, _, _, List.prefix_rfl, rfl, rfl, ?_⟩
  intro window repeats
  obtain ⟨earlier, member, -, same, -⟩ := repeats
  have creating : earlier.thread ∈ List.replicate 8 false := List.mem_map_of_mem member
  have deposits : createAndDeposit earlier.thread = .depositMoney ⟨1⟩ 10 := same
  rw [List.eq_of_mem_replicate creating] at deposits
  cases deposits

end BankingEs.Proofs.Deduplication
