import BankingEs.Async.Sequential
import BankingEs.Kafka.DeadLetterQueue

/-! One message from the dead-letter queue in the hands of each of the two `process_dlq`. They part
ways when the batch cannot be published again: one puts the message back, the other drops it. -/

namespace BankingEs.Proofs.LostLetters
open Async DeadLetterQueue Topics

structure Polled where
  message : DeadLetterMessage
  rest : List DeadLetterMessage
  retry : Except String Unit
  resend : Except String Unit
  now : DateTime

namespace Polled

def Answers (polled : Polled) {β : Type} (op : LoopCall β) (reply : β) (after : Topics) : Prop :=
  match op with
  | .pollDlqMessage => reply = .ok (some polled.message) ∧ after.dlq = polled.rest
  | .sendEventBatch _ => reply = polled.retry
  | .sendDlqMessage _ => reply = polled.resend
  | .utcNow => reply = polled.now
  | _ => True

def serves (polled : Polled) : Serves LoopCall (Topics) := fun before op reply after =>
  step before op reply after ∧ polled.Answers op reply after

def again (polled : Polled) : DeadLetterMessage :=
  { polled.message with retryCount := polled.message.retryCount + 1, lastRetry := some polled.now }

/-- What is published on the events topic, by either of the functions. -/
def published (polled : Polled) (queue : DeadLetterQueue) : List EventBatch :=
  if queue.maxRetries ≤ polled.message.retryCount then []
  else match polled.retry with
    | .ok () => [polled.message.batch]
    | .error _ => []

/-- What the inherent function puts back into the queue. -/
def putBack (polled : Polled) (queue : DeadLetterQueue) : List DeadLetterMessage :=
  if queue.maxRetries ≤ polled.message.retryCount then []
  else match polled.retry, polled.resend with
    | .error _, .ok () => [polled.again]
    | _, _ => []

end Polled

/-- The topics after a message was handled. -/
def Leaves (before : Topics) (polled : Polled) (events : List EventBatch) (dlq : List DeadLetterMessage)
    (after : Topics) : Prop :=
  after.events = before.events ++ events ∧ after.dlq = polled.rest ++ dlq

section Handling
variable {queue : DeadLetterQueue} {polled : Polled} {before after : Topics}

private theorem poll_step {reply : Except String (Option DeadLetterMessage)}
    (served : polled.serves before .pollDlqMessage reply after) :
    reply = .ok (some polled.message) ∧ after.events = before.events ∧ after.dlq = polled.rest := by
  obtain ⟨⟨dlq, _, rfl⟩, same, rest⟩ := served
  exact ⟨same, rfl, rest⟩

private theorem retry_step {batch : EventBatch} {reply : Except String Unit}
    (served : polled.serves before (.sendEventBatch batch) reply after) :
    reply = polled.retry ∧ after.dlq = before.dlq ∧
      after.events = before.events ++ (match polled.retry with | .ok () => [batch] | .error _ => []) := by
  obtain ⟨⟨events, sends, rfl⟩, same⟩ := served
  have same : reply = polled.retry := same
  rw [← same]
  cases sends with
  | sent => exact ⟨rfl, rfl, rfl⟩
  | fails => exact ⟨rfl, rfl, (List.append_nil _).symm⟩

private theorem resend_step {message : DeadLetterMessage} {reply : Except String Unit}
    (served : polled.serves before (.sendDlqMessage message) reply after) :
    after.events = before.events ∧
      after.dlq = before.dlq ++ (match polled.resend with | .ok () => [message] | .error _ => []) := by
  obtain ⟨⟨dlq, sends, rfl⟩, same⟩ := served
  have same : reply = polled.resend := same
  rw [← same]
  cases sends with
  | sent => exact ⟨rfl, rfl⟩
  | fails => exact ⟨rfl, (List.append_nil _).symm⟩

/-- The inherent function publishes the batch, or puts the message back. -/
theorem processDlq_leaves :
    Returns polled.serves (fun _ => Leaves before polled (polled.published queue) (polled.putBack queue))
      queue.processDlq before := by
  intro reply after served
  obtain ⟨rfl, events, dlq⟩ := poll_step served
  change Returns _ _ (if queue.maxRetries ≤ polled.message.retryCount then _ else _) _
  unfold Leaves Polled.published Polled.putBack
  split
  next => exact ⟨by rw [events, List.append_nil], by rw [dlq, List.append_nil]⟩
  next =>
    intro _ slept served
    obtain ⟨rfl, _⟩ := served
    intro retried sent served
    obtain ⟨rfl, dlq', events'⟩ := retry_step served
    cases outcome : polled.retry with
    | ok done =>
      rw [outcome] at events'
      exact ⟨by rw [events', events], by rw [dlq', dlq, List.append_nil]⟩
    | error error =>
      rw [outcome] at events'
      intro now stamped served
      obtain ⟨rfl, rfl⟩ := served
      intro resent after served
      obtain ⟨events'', dlq''⟩ := resend_step served
      refine ⟨by rw [events'', events', events], ?_⟩
      rw [dlq'', dlq', dlq]
      cases polled.resend with
      | ok done => rfl
      | error error => rfl

/-- The function of the trait publishes the batch or leaves nothing of the message. -/
theorem processDlqOnce_leaves :
    Returns polled.serves (fun _ => Leaves before polled (polled.published queue) []) queue.processDlqOnce before := by
  intro reply after served
  obtain ⟨rfl, events, dlq⟩ := poll_step served
  change Returns _ _ (if queue.maxRetries ≤ polled.message.retryCount then _ else _) _
  unfold Leaves Polled.published
  split
  next => exact ⟨by rw [events, List.append_nil], by rw [dlq, List.append_nil]⟩
  next =>
    intro _ slept served
    obtain ⟨rfl, _⟩ := served
    intro retried sent served
    obtain ⟨rfl, dlq', events'⟩ := retry_step served
    exact ⟨by rw [events', events], by rw [dlq', dlq, List.append_nil]⟩

end Handling

private theorem putBack_eq_nil_iff (polled : Polled) (queue : DeadLetterQueue) : polled.putBack queue = [] ↔
    queue.maxRetries ≤ polled.message.retryCount ∨ polled.retry = .ok () ∨ polled.resend ≠ .ok () := by
  unfold Polled.putBack
  split
  next done => exact iff_of_true rfl (.inl done)
  next more =>
    cases retry : polled.retry with
    | ok published => exact iff_of_true rfl (.inr (.inl rfl))
    | error error =>
      cases resend : polled.resend with
      | ok sent => simp [more]
      | error error => exact iff_of_true rfl (.inr (.inr nofun))

/-- Unless it has had its retries, and if the queue can be written to, the batch is published or
the message is back in the queue. -/
def Kept (queue : DeadLetterQueue) (polled : Polled) (before after : Topics) : Prop :=
  polled.message.retryCount < queue.maxRetries → polled.resend = .ok () →
    after.events = before.events ++ [polled.message.batch] ∨ after.dlq = polled.rest ++ [polled.again]

private theorem kept_of_published {queue : DeadLetterQueue} {polled : Polled} {before after : Topics}
    (events : after.events = before.events ++ polled.published queue)
    (nothing : queue.maxRetries ≤ polled.message.retryCount ∨ polled.retry = .ok () ∨ polled.resend ≠ .ok ()) :
    Kept queue polled before after := by
  intro more resent
  have more := not_le.mpr more
  have published := (nothing.resolve_left more).resolve_right (not_not.mpr resent)
  rw [Polled.published, if_neg more, published] at events
  exact .inl events

/-- The two functions leave the same topics and lose no message exactly if there is nothing to put
back: the retries are used up, the batch is published, or the queue cannot be written to. -/
theorem no_letter_lost_iff {queue : DeadLetterQueue} {polled : Polled} {before inherent trait : Topics}
    {result result' : Except String Unit} (run : Runs polled.serves before queue.processDlq result inherent)
    (run' : Runs polled.serves before queue.processDlqOnce result' trait) :
    (inherent.events = trait.events ∧ inherent.dlq = trait.dlq ∧ Kept queue polled before inherent ∧
        Kept queue polled before trait) ↔
      queue.maxRetries ≤ polled.message.retryCount ∨ polled.retry = .ok () ∨ polled.resend ≠ .ok () := by
  obtain ⟨events, dlq⟩ := processDlq_leaves.runs run
  obtain ⟨events', dlq'⟩ := processDlqOnce_leaves.runs run'
  refine ⟨?_, ?_⟩
  · intro ⟨_, same, _⟩
    apply (putBack_eq_nil_iff polled queue).mp
    rwa [dlq, dlq', List.append_cancel_left_eq] at same
  · intro nothing
    refine ⟨events.trans events'.symm, ?_, kept_of_published events nothing, kept_of_published events' nothing⟩
    rw [dlq, dlq', (putBack_eq_nil_iff polled queue).mpr nothing]

section Sample

private def letter (retry : Except String Unit) : Polled :=
  { message := ⟨⟨1⟩, [.accountClosed ⟨1⟩ ""], 1, 0, "", 0, none⟩, rest := [], retry, resend := .ok (), now := 0 }

private def queued (retry : Except String Unit) : Topics := { dlq := [(letter retry).message] }

private theorem letter_polled (retry : Except String Unit) :
    (letter retry).serves (queued retry) .pollDlqMessage (.ok (some (letter retry).message)) {} :=
  ⟨⟨[], @Polls.message _ _ [] [] _ rfl, rfl⟩, rfl, rfl⟩

theorem published_letter_kept : ∃ inherent trait : Topics,
    Runs (letter (.ok ())).serves (queued (.ok ())) ({} : DeadLetterQueue).processDlq (.ok ()) inherent ∧
    Runs (letter (.ok ())).serves (queued (.ok ())) ({} : DeadLetterQueue).processDlqOnce (.ok ()) trait ∧
    inherent.events = trait.events ∧ inherent.dlq = trait.dlq := by
  have run : Runs (letter (.ok ())).serves (queued (.ok ())) ({} : DeadLetterQueue).processDlq (.ok ()) _ :=
    .request _ (letter_polled _) (.request () ⟨rfl, trivial⟩ (.request (.ok ()) ⟨⟨_, .sent, rfl⟩, rfl⟩ .pure))
  have run' : Runs (letter (.ok ())).serves (queued (.ok ())) ({} : DeadLetterQueue).processDlqOnce (.ok ()) _ :=
    .request _ (letter_polled _) (.request () ⟨rfl, trivial⟩ (.request (.ok ()) ⟨⟨_, .sent, rfl⟩, rfl⟩ .pure))
  obtain ⟨events, dlq, _⟩ := (no_letter_lost_iff run run').mpr (.inr (.inl rfl))
  exact ⟨_, _, run, run', events, dlq⟩

/-- The batch cannot be published. The function of the trait leaves nothing of the message. -/
theorem letter_lost : ∃ inherent trait : Topics,
    Runs (letter (.error "")).serves (queued (.error "")) ({} : DeadLetterQueue).processDlq (.ok ()) inherent ∧
    Runs (letter (.error "")).serves (queued (.error "")) ({} : DeadLetterQueue).processDlqOnce (.error "") trait ∧
    inherent.events = [] ∧ inherent.dlq = [(letter (.error "")).again] ∧ trait.events = [] ∧ trait.dlq = [] :=
  ⟨_, _, .request _ (letter_polled _) (.request () ⟨rfl, trivial⟩ (.request (.error "") ⟨⟨_, .fails, rfl⟩, rfl⟩
      (.request 0 ⟨rfl, rfl⟩ (.request (.ok ()) ⟨⟨_, .sent, rfl⟩, rfl⟩ .pure)))),
    .request _ (letter_polled _) (.request () ⟨rfl, trivial⟩ (.request (.error "") ⟨⟨_, .fails, rfl⟩, rfl⟩ .pure)),
    rfl, rfl, rfl, rfl⟩

end Sample
end BankingEs.Proofs.LostLetters
