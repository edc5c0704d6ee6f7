import BankingEs.Kafka.Processor
import BankingEs.Proofs.Footprint

/-! What the calls of the pipeline change of the events table, what they leave alone, and
which of them the event processor makes. -/

namespace BankingEs.Proofs.Pipeline
open Async Footprint BankingEs.Pipeline KafkaEventProcessor

variable {ι Value β : Type} {store : Store ι Value} {env : Environment Value} {caller : ι}
  {before after : BankingEs.Pipeline ι Value}

/-- Everything but the save goes by the events table. -/
def isSave : SystemCall Value β → Bool
  | .inl call => Footprint.isSave call
  | .inr _ => false

theorem serves_unsaved {op : SystemCall Value β} {reply : β} (other : isSave op = false)
    (served : serves store env caller before op reply after) :
    after.world.events = before.world.events ∧ after.world.saves = before.world.saves := by
  obtain ⟨ready, passes, served⟩ := served
  have waited := (passes_unsaved caller passes).1
  cases op with
  | inl call =>
    cases call with
    | saveEvents request => cases other
    | projectionsGetAccount accountId =>
      obtain ⟨_, _, _, _, rfl⟩ := served
      exact ⟨waited.events, waited.saves⟩
    | _ =>
      obtain ⟨world, served, rfl⟩ := served
      have step := Footprint.serves_unsaved rfl ⟨ready, passes, served⟩
      exact ⟨step.events, step.saves⟩
  | inr call =>
    suffices same : after.world = ready by exact ⟨same ▸ waited.events, same ▸ waited.saves⟩
    cases call with
    | sleep => rw [served]
    | aggregateIds => rw [served.2]
    | getLastProcessedVersion => rw [served.2]
    | cacheGetAccountEvents =>
      obtain ⟨_, _, _, _, rfl⟩ := served
      rfl
    | cacheSetAccountEvents =>
      obtain ⟨_, _, _, _, rfl⟩ := served
      rfl
    | projectionsGetAccountTransactions =>
      obtain ⟨_, _, _, _, rfl⟩ := served
      rfl
    | sendEventBatch => rcases served with ⟨_, rfl⟩ | ⟨_, rfl⟩ <;> rfl
    | sendCacheUpdate => rcases served with ⟨_, rfl⟩ | ⟨_, rfl⟩ <;> rfl

theorem serves_save {request : SaveRequest} {reply : Except EventStoreError Unit}
    (served : serves store env caller before (.inl (.saveEvents request)) reply after) :
    ∃ ready, Unsaved caller before.world ready ∧ store ready request reply after.world := by
  obtain ⟨ready, passes, world, saved, rfl⟩ := served
  exact ⟨ready, (passes_unsaved caller passes).1, saved⟩

/-- No row of the projections was written. -/
structure Unwritten (before after : World ι Value) : Prop where
  accounts : after.accounts = before.accounts
  transactions : after.transactions = before.transactions

theorem passes_unwritten {before after : World ι Value} (passes : World.Passes before after) :
    Unwritten before after := by
  cases passes with
  | waits => exact ⟨rfl, rfl⟩
  | cleans => exact ⟨rfl, rfl⟩

theorem exactStore_unwritten {codec : Codec Value} {before after : World ι Value} {request : SaveRequest}
    {reply : Except EventStoreError Unit} (saved : exactStore codec before request reply after) :
    Unwritten before after := by
  cases saved with
  | stored => exact ⟨rfl, rfl⟩
  | refused => exact ⟨rfl, rfl⟩
  | nothing => exact ⟨rfl, rfl⟩

theorem publish_uses {allowed : {β : Type} → SystemCall Value β → Prop} (batch : EventBatch)
    (reads : allowed (.inl (.projectionsGetAccount batch.accountId)))
    (stores : ∀ account ttl, allowed (.inl (.cacheSetAccount account ttl)))
    (sends : ∀ account, allowed (.inr (.sendCacheUpdate batch.accountId account))) :
    ((awaitCall id (.inl (.projectionsGetAccount batch.accountId))).andThen fun found =>
      match found with
      | none => .pure (.ok ())
      | some row =>
        match row.applyEvents batch.events with
        | .error error => .pure (.error error)
        | .ok row => publishAccount batch.accountId (updatedAccount batch row)).Uses allowed := by
  refine Program.Uses.andThen ⟨reads, fun _ => trivial⟩ fun found => ?_
  cases found with
  | none => trivial
  | some row =>
    dsimp only
    cases row.applyEvents batch.events with
    | error error => trivial
    | ok row => exact Program.Uses.andThen ⟨stores _ _, fun _ => trivial⟩ fun _ => ⟨sends _, fun _ => trivial⟩

theorem cacheBatch_unsaved (batch : EventBatch) :
    (cacheBatch batch : Program (SystemCall Value) _).Uses fun op => isSave op = false :=
  Program.Uses.andThen ⟨rfl, fun _ => trivial⟩ fun _ => publish_uses batch rfl (fun _ _ => rfl) fun _ => rfl

end BankingEs.Proofs.Pipeline
