import BankingEs.Application.Repository

/-! The messages on the topics, and the loop between the event processor, which sends a
failed batch to the dead-letter queue, and the queue, which publishes it again. -/

namespace BankingEs
open Async

/-- A batch on the events topic. It has no count of its retries. -/
structure EventBatch where
  accountId : Uuid
  events : List AccountEvent
  version : Int
  deriving DecidableEq

structure DeadLetterMessage where
  accountId : Uuid
  events : List AccountEvent
  version : Int
  originalTimestamp : DateTime
  failureReason : String
  retryCount : Nat
  lastRetry : Option DateTime
  deriving DecidableEq

def DeadLetterMessage.batch (message : DeadLetterMessage) : EventBatch :=
  ⟨message.accountId, message.events, message.version⟩

/-- The calls of the loop. A batch is processed in one of them, with any outcome. -/
inductive LoopCall : Type → Type where
  | utcNow : LoopCall DateTime
  | sleep (delay : Duration) : LoopCall Unit
  | pollEvents : LoopCall (Except String (Option EventBatch))
  | pollDlqMessage : LoopCall (Except String (Option DeadLetterMessage))
  | processBatch (batch : EventBatch) : LoopCall (Except String Unit)
  | sendEventBatch (batch : EventBatch) : LoopCall (Except String Unit)
  | sendDlqMessage (message : DeadLetterMessage) : LoopCall (Except String Unit)

structure DeadLetterQueue where
  maxRetries : Nat := 3
  initialRetryDelay : Duration := Duration.fromSecs 1

namespace DeadLetterQueue

/-- The inherent function and the one of the trait build the same message. -/
def sendToDlq (batch : EventBatch) (failureReason : String) : Program LoopCall (Except String Unit) := do
  let originalTimestamp ← .send .utcNow
  .send (.sendDlqMessage
    { accountId := batch.accountId, events := batch.events, version := batch.version, originalTimestamp, failureReason,
      retryCount := 0, lastRetry := none })

def retryMessage (message : DeadLetterMessage) : Program LoopCall (Except String Unit) :=
  .send (.sendEventBatch message.batch)

/-- `initial_retry_delay * 2u32.pow(retry_count)`, where the power wraps around. -/
def delay (queue : DeadLetterQueue) (message : DeadLetterMessage) : Duration :=
  queue.initialRetryDelay * (2 ^ message.retryCount % 2 ^ 32)

def processDlq (queue : DeadLetterQueue) : Program LoopCall (Except String Unit) :=
  (Program.send .pollDlqMessage).andThen fun polled =>
    match polled with
    | none => .pure (.ok ())
    | some message =>
      if queue.maxRetries ≤ message.retryCount then .pure (.ok ())
      else do
        .send (.sleep (queue.delay message))
        match ← retryMessage message with
        | .ok () => return .ok ()
        | .error _ =>
          let now ← .send .utcNow
          .send (.sendDlqMessage { message with retryCount := message.retryCount + 1, lastRetry := some now })

/-- `process_dlq` of the trait: a single message, and a failed retry is reported. -/
def processDlqOnce (queue : DeadLetterQueue) : Program LoopCall (Except String Unit) :=
  (Program.send .pollDlqMessage).andThen fun polled =>
    match polled with
    | none => .pure (.ok ())
    | some message =>
      if queue.maxRetries ≤ message.retryCount then .pure (.ok ())
      else do
        .send (.sleep (queue.delay message))
        retryMessage message

end DeadLetterQueue

/-- One round of the loop in `start_processing`. What recovery may publish after a
failed poll arrives like any other batch. -/
def KafkaEventProcessor.startProcessing : Program LoopCall (Except String Unit) := do
  match ← .send .pollEvents with
  | .ok (some batch) =>
    match ← .send (.processBatch batch) with
    | .ok () => return .ok ()
    | .error error => DeadLetterQueue.sendToDlq batch ("Batch processing failed: " ++ error)
  | .ok none => return .ok ()
  | .error _ => return .ok ()

inductive Round where
  | startProcessing
  | processDlq
  | processDlqOnce

def Round.program (queue : DeadLetterQueue) : Round → Program LoopCall (Except String Unit)
  | startProcessing => KafkaEventProcessor.startProcessing
  | processDlq => queue.processDlq
  | processDlqOnce => queue.processDlqOnce

/-- The two topics that the functions of the queue send to. -/
structure Topics where
  events : List EventBatch := []
  dlq : List DeadLetterMessage := []

namespace Topics

/-- A poll takes one message, in any order, or none. -/
inductive Polls {α : Type} (topic : List α) : Except String (Option α) → List α → Prop where
  | message {before after : List α} {message : α} (split : topic = before ++ message :: after) :
      Polls topic (.ok (some message)) (before ++ after)
  | nothing : Polls topic (.ok none) topic
  | fails {error : String} : Polls topic (.error error) topic

inductive Sends {α : Type} (topic : List α) (message : α) : Except String Unit → List α → Prop where
  | sent : Sends topic message (.ok ()) (topic ++ [message])
  | fails {error : String} : Sends topic message (.error error) topic

def step : {β : Type} → Topics → LoopCall β → β → Topics → Prop
  | _, world, .utcNow, _, after => after = world
  | _, world, .sleep _, _, after => after = world
  | _, world, .pollEvents, reply, after => ∃ events, Polls world.events reply events ∧ after = { world with events }
  | _, world, .pollDlqMessage, reply, after => ∃ dlq, Polls world.dlq reply dlq ∧ after = { world with dlq }
  | _, world, .processBatch _, _, after => after = world
  | _, world, .sendEventBatch batch, reply, after => ∃ events, Sends world.events batch reply events ∧
      after = { world with events }
  | _, world, .sendDlqMessage message, reply, after => ∃ dlq, Sends world.dlq message reply dlq ∧
      after = { world with dlq }

end Topics
end BankingEs
