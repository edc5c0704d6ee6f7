import BankingEs.Proofs.Ledger

/-! The language of accepted event streams. The guard of `handleCommand` exempts
`CreateAccount` and a closed account looks like one that never existed, so a
stream is a sequence of lives rather than a single one. -/

namespace BankingEs.Proofs.Lifecycle
open AccountEvent

def isCreated : AccountEvent → Bool
  | accountCreated .. => true
  | _ => false

def isTransfer : AccountEvent → Bool
  | moneyDeposited .. | moneyWithdrawn .. => true
  | _ => false

def isClosed : AccountEvent → Bool
  | accountClosed .. => true
  | _ => false

/-- Created once and first, then deposits and withdrawals only. -/
def OpenLife (life : List AccountEvent) : Prop :=
  ∃ created transfers, life = created :: transfers ∧ isCreated created ∧ ∀ event ∈ transfers, isTransfer event

/-- An open life, possibly ended by one `AccountClosed`. -/
def Life (life : List AccountEvent) : Prop :=
  OpenLife life ∨ ∃ opened closed, life = opened ++ [closed] ∧ OpenLife opened ∧ isClosed closed

structure Lives (aggregate : Aggregate) (lives : List (List AccountEvent)) : Prop where
  stream : aggregate.emitted = lives.flatten
  each : ∀ life ∈ lives, Life life
  current : aggregate.account.isActive = true → ∃ earlier life, lives = earlier ++ [life] ∧ OpenLife life

private theorem OpenLife.extend {life : List AccountEvent} (opened : OpenLife life) (event : AccountEvent)
    (transfer : isTransfer event) : OpenLife (life ++ [event]) := by
  obtain ⟨created, transfers, rfl, first, rest⟩ := opened
  refine ⟨created, transfers ++ [event], rfl, first, ?_⟩
  intro other member
  rcases List.mem_append.mp member with member | member
  · exact rest other member
  · rwa [List.mem_singleton.mp member]

private theorem Lives.replace {aggregate : Aggregate} {earlier : List (List AccountEvent)} {life : List AccountEvent}
    (lives : Lives aggregate (earlier ++ [life])) {event : AccountEvent} (account : Account)
    (accepted : List AccountCommand) (extended : Life (life ++ [event]))
    (current : account.isActive = true → OpenLife (life ++ [event])) :
    Lives ⟨account, accepted, aggregate.emitted ++ [event]⟩ (earlier ++ [life ++ [event]]) := by
  refine ⟨?_, ?_, ?_⟩
  · simp [lives.stream]
  · intro other member
    rcases List.mem_append.mp member with member | member
    · exact lives.each other (List.mem_append_left _ member)
    · rwa [List.mem_singleton.mp member]
  · exact fun active => ⟨earlier, life ++ [event], rfl, current active⟩

private theorem accepted_lives (aggregate : Aggregate) (command : AccountCommand) (transactionId : Uuid)
    (kept : ∃ lives, Lives aggregate lives) (accepted : command.Accepted aggregate.account) :
    ∃ lives, Lives ⟨aggregate.account.applyEvent (command.event transactionId), aggregate.accepted ++ [command],
      aggregate.emitted ++ [command.event transactionId]⟩ lives := by
  obtain ⟨lives, kept⟩ := kept
  cases command with
  | createAccount accountId ownerName initialBalance =>
    have opened : OpenLife [accountCreated accountId ownerName initialBalance] := ⟨_, [], rfl, rfl, by simp⟩
    refine ⟨lives ++ [[accountCreated accountId ownerName initialBalance]], ?_, ?_, ?_⟩
    · simp [kept.stream, AccountCommand.event]
    · intro life member
      rcases List.mem_append.mp member with member | member
      · exact kept.each life member
      · rw [List.mem_singleton.mp member]
        exact .inl opened
    · exact fun _ => ⟨lives, _, rfl, opened⟩
  | depositMoney accountId amount =>
    obtain ⟨earlier, life, rfl, opened⟩ := kept.current accepted.1
    have extended := opened.extend (moneyDeposited accountId amount transactionId) rfl
    exact ⟨_, kept.replace _ _ (.inl extended) (fun _ => extended)⟩
  | withdrawMoney accountId amount =>
    obtain ⟨earlier, life, rfl, opened⟩ := kept.current accepted.1
    have extended := opened.extend (moneyWithdrawn accountId amount transactionId) rfl
    exact ⟨_, kept.replace _ _ (.inl extended) (fun _ => extended)⟩
  | closeAccount accountId reason =>
    obtain ⟨earlier, life, rfl, opened⟩ := kept.current accepted
    refine ⟨_, kept.replace _ _ (.inr ⟨life, _, rfl, opened, rfl⟩) ?_⟩
    intro active
    cases active

private theorem run_has_lives (newV4 : Uuid) (commands : List (AccountCommand × Uuid)) :
    ∃ lives, Lives (Aggregate.run newV4 commands) lives := by
  refine Aggregate.run_induction newV4 ⟨[], rfl, by simp, ?_⟩ accepted_lives commands
  intro active
  cases active

/-- Every stream of accepted events is a sequence of lives. Only `CreateAccount`
is accepted unless the last of them is still open, and a `CreateAccount` with a
non-negative balance is accepted in every state. -/
theorem run_lives (newV4 : Uuid) (commands : List (AccountCommand × Uuid)) :
    ∃ lives, (Aggregate.run newV4 commands).emitted = lives.flatten ∧ (∀ life ∈ lives, Life life) ∧
      (∀ command transactionId events,
        (Aggregate.run newV4 commands).account.handleCommand command transactionId = .ok events →
          Ledger.isCreate command ∨ ∃ earlier life, lives = earlier ++ [life] ∧ OpenLife life) ∧
      ∀ accountId ownerName initialBalance transactionId, 0 ≤ initialBalance →
        (Aggregate.run newV4 commands).account.handleCommand
            (.createAccount accountId ownerName initialBalance) transactionId =
          .ok [accountCreated accountId ownerName initialBalance] := by
  obtain ⟨lives, kept⟩ := run_has_lives newV4 commands
  refine ⟨lives, kept.stream, kept.each, ?_, ?_⟩
  · intro command transactionId events decided
    obtain ⟨accepted, _⟩ := (Account.handleCommand_ok_iff _ _ _ _).mp decided
    cases command with
    | createAccount => exact .inl rfl
    | depositMoney => exact .inr (kept.current accepted.1)
    | withdrawMoney => exact .inr (kept.current accepted.1)
    | closeAccount => exact .inr (kept.current accepted)
  · intro accountId ownerName initialBalance transactionId positive
    exact (Account.handleCommand_ok_iff _ _ _ _).mpr ⟨positive, rfl⟩

/-- An account that is closed and created again has a stream that is no single life. -/
theorem recreated_after_close :
    let account : Uuid := ⟨1⟩
    let stream := (Aggregate.run ⟨0⟩ [(.createAccount account "Ann" 10, ⟨0⟩), (.closeAccount account "moved", ⟨0⟩),
      (.createAccount account "Ann" 5, ⟨0⟩)]).emitted
    stream = [accountCreated account "Ann" 10, accountClosed account "moved", accountCreated account "Ann" 5] ∧
      ¬ Life stream := by
  have stream : (Aggregate.run ⟨0⟩ [(.createAccount ⟨1⟩ "Ann" 10, ⟨0⟩), (.closeAccount ⟨1⟩ "moved", ⟨0⟩),
      (.createAccount ⟨1⟩ "Ann" 5, ⟨0⟩)]).emitted =
      [accountCreated ⟨1⟩ "Ann" 10, accountClosed ⟨1⟩ "moved", accountCreated ⟨1⟩ "Ann" 5] := by
    decide +kernel
  refine ⟨stream, ?_⟩
  simp only [stream]
  rintro (⟨created, transfers, shape, -, rest⟩ | ⟨opened, closed, shape, -, last⟩)
  · obtain ⟨rfl, rfl⟩ := List.cons.inj shape
    simpa [isTransfer] using rest (accountClosed ⟨1⟩ "moved") (by simp)
  · have final := congrArg List.getLast? shape
    simp only [List.getLast?_append, List.getLast?_singleton, Option.some_or] at final
    obtain rfl := Option.some.inj final
    cases last

end BankingEs.Proofs.Lifecycle
