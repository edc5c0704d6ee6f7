import BankingEs.Async.Interference
import BankingEs.Application.Services
import BankingEs.Application.World

/-! What each call leaves alone, and what a thread knows while it reads an
account, decides on it and waits to save. -/

namespace BankingEs.Proofs.Footprint
open Async AccountRepository Relation World

variable {ι Value β : Type} {env : Environment Value} {caller : ι}

/-- Nothing was saved in between, and what was drawn was drawn by `caller`. -/
structure Unsaved (caller : ι) (before after : World ι Value) : Prop where
  events : after.events = before.events
  saves : after.saves = before.saves
  issued : ∀ entry ∈ before.issued, entry ∈ after.issued
  drawn : ∀ entry ∈ after.issued, entry ∈ before.issued ∨
    entry.1 = caller ∧ ∀ old ∈ before.issued, old.2 ≠ entry.2

namespace Unsaved

private theorem of_issued {before after : World ι Value} (events : after.events = before.events)
    (saves : after.saves = before.saves) (issued : after.issued = before.issued) : Unsaved caller before after :=
  ⟨events, saves, fun _ member => by rwa [issued], fun _ member => .inl (by rwa [← issued])⟩

private theorem refl (world : World ι Value) : Unsaved caller world world := .of_issued rfl rfl rfl

private theorem trans {first middle last : World ι Value} (one : Unsaved caller first middle)
    (two : Unsaved caller middle last) : Unsaved caller first last := by
  refine ⟨two.events.trans one.events, two.saves.trans one.saves,
    fun entry member => two.issued entry (one.issued entry member), ?_⟩
  intro entry member
  rcases two.drawn entry member with member | ⟨mine, fresh⟩
  · exact one.drawn entry member
  · exact .inr ⟨mine, fun old member => fresh old (one.issued old member)⟩

end Unsaved

theorem passes_unsaved (caller : ι) {before after : World ι Value} (passes : Passes before after) :
    Unsaved caller before after ∧ after.issued = before.issued := by
  cases passes with
  | waits => exact ⟨.of_issued rfl rfl rfl, rfl⟩
  | cleans => exact ⟨.of_issued rfl rfl rfl, rfl⟩

def isSave : Call Value β → Bool
  | .saveEvents _ => true
  | _ => false

private theorem step_unsaved {before after : World ι Value} {op : Call Value β} {reply : β}
    (other : isSave op = false) (served : step env caller before op reply after) : Unsaved caller before after := by
  cases op with
  | newV4 =>
    obtain ⟨fresh, rfl⟩ := served
    refine ⟨rfl, rfl, fun _ member => List.mem_cons_of_mem _ member, ?_⟩
    intro entry member
    rcases List.mem_cons.mp member with rfl | member
    · exact .inr ⟨rfl, fresh⟩
    · exact .inl member
  | utcNow =>
    subst served
    exact .refl _
  | isDuplicateCommand commandId =>
    obtain ⟨_, rfl⟩ := served
    split
    · exact .refl _
    · exact .of_issued rfl rfl rfl
  | getEvents aggregateId fromVersion =>
    obtain ⟨_, rfl⟩ := served
    exact .refl _
  | saveEvents request => cases other
  | upsertAccountsBatch rows =>
    rcases served with ⟨_, rfl⟩ | ⟨_, rfl⟩
    · exact .of_issued rfl rfl rfl
    · exact .refl _
  | insertTransactionsBatch rows =>
    rcases served with ⟨_, rfl⟩ | ⟨_, rfl⟩
    · exact .of_issued rfl rfl rfl
    · exact .refl _
  | projectionsGetAccount accountId =>
    obtain ⟨_, rfl⟩ := served
    exact .refl _
  | cacheGetAccount accountId =>
    obtain ⟨_, _, _, _, rfl⟩ := served
    exact .of_issued rfl rfl rfl
  | cacheSetAccount account ttl =>
    obtain ⟨_, _, _, _, rfl⟩ := served
    exact .of_issued rfl rfl rfl

theorem serves_unsaved {before after : World ι Value} {op : Call Value β} {reply : β}
    (other : isSave op = false) (served : serves env caller before op reply after) : Unsaved caller before after := by
  obtain ⟨ready, passes, served⟩ := served
  exact (passes_unsaved caller passes).1.trans (step_unsaved other served)

theorem serves_save {before after : World ι Value} {request : SaveRequest} {reply : Except EventStoreError Unit}
    (served : serves env caller before (.saveEvents request) reply after) :
    after.issued = before.issued ∧ ∃ rows stored, after.events = before.events ++ rows ∧
      after.saves = before.saves ++ [(request, stored)] ∧
      (stored = true → env.accepts before.events request ∧
        Holds env.codec request.aggregateId request.expectedVersion request.events rows) ∧
      (stored = false → rows = []) := by
  obtain ⟨ready, passes, served⟩ := served
  obtain ⟨same, issued⟩ := passes_unsaved caller passes
  cases served with
  | @stored rows accepted holds =>
    refine ⟨issued, rows, true, ?_, ?_, fun _ => ⟨?_, holds⟩, fun refused => (by cases refused)⟩
    · rw [← same.events]
    · rw [← same.saves]
    · rwa [← same.events]
  | refused =>
    refine ⟨issued, [], false, ?_, ?_, fun stored => (by cases stored), fun _ => rfl⟩
    · rw [List.append_nil, ← same.events]
    · rw [← same.saves]

theorem serves_newV4 {before after : World ι Value} {id : Uuid} (served : serves env caller before .newV4 id after) :
    (∀ entry ∈ before.issued, entry.2 ≠ id) ∧ after.issued = (caller, id) :: before.issued := by
  obtain ⟨ready, passes, fresh, rfl⟩ := served
  rw [← (passes_unsaved caller passes).2]
  exact ⟨fresh, rfl⟩

theorem serves_getEvents {before after : World ι Value} {aggregateId : Uuid} {fromVersion : Option Int}
    {stored : List (Event Value)} (served : serves env caller before (.getEvents aggregateId fromVersion) (.ok stored) after) :
    stored = before.events.getEvents aggregateId fromVersion := by
  obtain ⟨ready, passes, answer | ⟨_, _, fails⟩, rfl⟩ := served
  · rw [← (passes_unsaved caller passes).1.events]
    exact Except.ok.inj answer
  · cases fails

section Programs

/-- The calls that read an account and decide a command against it. -/
def isReading : Call Value β → Bool
  | .newV4 => true
  | .getEvents .. => true
  | _ => false

theorem readAndDecide_uses {codec : Codec Value} (id : Uuid) (command : AccountCommand) :
    (readAndDecide codec id command).Uses fun op => isReading op := by
  apply Program.Uses.andThen
  · exact ⟨rfl, fun _ => trivial⟩
  · intro found
    cases found with
    | none => trivial
    | some account =>
      apply Program.Uses.andThen
      · exact ⟨rfl, fun _ => trivial⟩
      · exact fun _ => trivial

/-- The calls that keep up the transactions and the cache. -/
def isUpkeep : Call Value β → Bool
  | .newV4 => true
  | .utcNow => true
  | .insertTransactionsBatch _ => true
  | .projectionsGetAccount _ => true
  | .cacheSetAccount .. => true
  | _ => false

private theorem updateProjection_uses (event : AccountEvent) :
    (AccountService.updateProjection event : Program (Call Value) _).Uses fun op => isUpkeep op := by
  refine ⟨rfl, fun _ => ⟨rfl, fun _ => ?_⟩⟩
  apply Program.Uses.andThen
  · exact ⟨rfl, fun _ => trivial⟩
  · intro _
    apply Program.Uses.andThen
    · exact ⟨rfl, fun _ => trivial⟩
    · intro found
      cases found with
      | none => trivial
      | some row => exact ⟨rfl, fun _ => trivial⟩

theorem updateProjections_uses (events : List AccountEvent) :
    (AccountService.updateProjectionsFromEvents events : Program (Call Value) _).Uses fun op => isUpkeep op := by
  induction events with
  | nil => trivial
  | cons event events ih => exact (updateProjection_uses event).andThen fun _ => ih

theorem isUpkeep_unsaving {op : Call Value β} (upkeep : isUpkeep op) : isSave op = false := by
  cases op with
  | saveEvents request => cases upkeep
  | _ => rfl

end Programs

section Thread
variable {rely guarantee : World ι Value → World ι Value → Prop} {known : Account → World ι Value → Prop}
  {id : Uuid} {command : AccountCommand} {world : World ι Value}

/-- A thread may make any call that is not a save, and what it knows of the account
it has read survives such calls and whatever it relies on. -/
structure Watches (caller : ι) (rely guarantee : World ι Value → World ι Value → Prop)
    (known : Account → World ι Value → Prop) : Prop where
  frame : ∀ before after, Unsaved caller before after → guarantee before after
  relied : ∀ account before after, rely before after → known account before → known account after
  kept : ∀ account before after, Unsaved caller before after → known account before → known account after

private theorem getById_guards (watches : Watches caller rely guarantee known)
    (reads : ∀ before account, ReflTransGen rely world before →
      rehydrate env.codec id (.ok (before.events.getEvents id none)) = .ok (some account) → known account before) :
    Guards (serves env caller) rely guarantee
      (fun result now => ∀ account, result = .ok (some account) → known account now) (getById env.codec id) world := by
  intro before reply after moves served
  have same := serves_unsaved rfl served
  refine ⟨watches.frame _ _ same, ?_⟩
  apply Guards.pure
  · intro account found
    cases reply with
    | error error => cases found
    | ok stored =>
      rw [serves_getEvents served] at found
      exact watches.kept account _ _ same (reads before account moves found)
  · intro earlier later relied holds account found
    exact watches.relied account _ _ relied (holds account found)

theorem decideCommand_guards (watches : Watches caller rely guarantee known) {account : Account}
    (knows : known account world) :
    Guards (serves env caller) rely guarantee
      (fun result now => ∀ events, result = .ok events →
        known account now ∧ ∃ transactionId, account.handleCommand command transactionId = .ok events)
      (decideCommand account command) world := by
  intro before transactionId after moves served
  have same := serves_unsaved rfl served
  have still := preserved_by_steps (watches.relied account) moves knows
  refine ⟨watches.frame _ _ same, ?_⟩
  apply Guards.pure
  · intro events accepted
    exact ⟨watches.kept account _ _ same still, transactionId, accepted⟩
  · intro earlier later relied holds events accepted
    obtain ⟨knows, decided⟩ := holds events accepted
    exact ⟨watches.relied account _ _ relied knows, decided⟩

theorem readAndDecide_guards (watches : Watches caller rely guarantee known)
    (reads : ∀ before account, ReflTransGen rely world before →
      rehydrate env.codec id (.ok (before.events.getEvents id none)) = .ok (some account) → known account before) :
    Guards (serves env caller) rely guarantee
      (fun result now => ∀ account events, result = .ok (account, events) →
        known account now ∧ ∃ transactionId, account.handleCommand command transactionId = .ok events)
      (readAndDecide env.codec id command) world := by
  apply (getById_guards watches reads).andThen
  · intro error now _ account events same
    cases same
  · intro found now knows
    cases found with
    | none =>
      intro later _ account events same
      cases same
    | some account =>
      apply (decideCommand_guards watches (knows account rfl)).andThen
      · intro error now _ other events same
        cases same
      · intro events now decided
        apply Guards.pure
        · intro _ _ same
          cases same
          exact decided events rfl
        · intro earlier later relied holds _ _ same
          cases same
          obtain ⟨knows, decided⟩ := holds account events rfl
          exact ⟨watches.relied account _ _ relied knows, decided⟩

/-- The save itself is the only step of a thread that has to be justified. -/
theorem saveAccount_guards {account : Account} {events : List AccountEvent} {post : World ι Value → Prop}
    (saves : ∀ before reply after, ReflTransGen rely world before →
      serves env caller before (.saveEvents ⟨account.id, events, account.version⟩) reply after →
      guarantee before after ∧ post after)
    (stable : ∀ before after, rely before after → post before → post after) :
    Guards (serves env caller) rely guarantee (fun _ => post) (saveAccount account events) world := by
  intro before reply after moves served
  obtain ⟨step, holds⟩ := saves before reply after moves served
  exact ⟨step, Guards.pure holds stable⟩

end Thread
end BankingEs.Proofs.Footprint
