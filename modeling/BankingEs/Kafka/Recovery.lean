import BankingEs.Kafka.Processor

/-! Recovery: the stored events of accounts are published again on the events topic, one
by one or in batches. -/

namespace BankingEs
open Async

variable {Value : Type}

namespace EventStore

def getAccount (codec : Codec Value) (accountId : Uuid) :
    Program (SystemCall Value) (Except EventStoreError (Option Account)) :=
  (Program.send (.inl (.getEvents accountId none))).andThen fun events =>
    match events with
    | [] => .pure (.ok none)
    | event :: stored =>
      .pure (((AccountRepository.blank accountId).applyStored codec .serializationError (event :: stored)).map some)

def getAccounts (codec : Codec Value) : List Uuid → Program (SystemCall Value) (Except EventStoreError (List Account))
  | [] => .pure (.ok [])
  | accountId :: accountIds =>
    (getAccount codec accountId).andThen fun found =>
      (getAccounts codec accountIds).andThen fun accounts => .pure (.ok (found.toList ++ accounts))

def getAllAccounts (codec : Codec Value) : Program (SystemCall Value) (Except EventStoreError (List Account)) :=
  (Program.send (.inr .aggregateIds)).andThen (getAccounts codec)

end EventStore

def reportStoreError {α : Type} (program : Program (SystemCall Value) (Except EventStoreError α)) :
    Program (SystemCall Value) (Except String α) := do
  let result ← program
  return result.mapError EventStoreError.display

/-- The loop of every replay that publishes each event by itself, under its own version. -/
def replayEvents (codec : Codec Value) (accountId : Uuid) :
    List (Event Value) → Program (SystemCall Value) (Except String Unit)
  | [] => .pure (.ok ())
  | event :: events =>
    match codec.fromValue event.eventData with
    | .error _ => .pure (.error "Failed to deserialize event")
    | .ok accountEvent =>
      (awaitCall id (.inr (.sendEventBatch ⟨accountId, [accountEvent], event.version⟩))).andThen fun _ => do
        .send (.inr (.sleep 100000000))
        replayEvents codec accountId events

namespace KafkaRecoveryStrategies

/-- The accounts to replay: the one that was asked for, or all. -/
def accountsToReplay (codec : Codec Value) : Option Uuid → Program (SystemCall Value) (Except String (List Account))
  | some accountId =>
    (reportStoreError (EventStore.getAccount codec accountId)).andThen fun found =>
      match found with
      | none => .pure (.error ("Account " ++ accountId.display ++ " not found"))
      | some account => .pure (.ok [account])
  | none => reportStoreError (EventStore.getAllAccounts codec)

def fullReplay (codec : Codec Value) (accountId : Option Uuid) : Program (SystemCall Value) (Except String Unit) :=
  (accountsToReplay codec accountId).andThen <| Program.forEach fun account =>
    (awaitCall EventStoreError.display (.inl (.getEvents account.id none))).andThen (replayEvents codec account.id)

def getLastProcessedVersion (accountId : Uuid) : Program (SystemCall Value) (Except String Int) :=
  awaitCall (fun error => "Failed to get last processed version: " ++ error) (.inr (.getLastProcessedVersion accountId))

def incrementalReplay (codec : Codec Value) (accountId : Option Uuid) :
    Program (SystemCall Value) (Except String Unit) :=
  (accountsToReplay codec accountId).andThen <| Program.forEach fun account =>
    (getLastProcessedVersion account.id).andThen fun lastProcessedVersion =>
      (awaitCall EventStoreError.display (.inl (.getEvents account.id (some lastProcessedVersion)))).andThen
        (replayEvents codec account.id)

def sendCollected (accountId : Uuid) (batch : List AccountEvent) (currentVersion : Int) :
    Program (SystemCall Value) (Except String Unit) :=
  if batch = [] then .pure (.ok ()) else awaitCall id (.inr (.sendEventBatch ⟨accountId, batch, currentVersion⟩))

/-- The loop of `selective_replay`: what was collected is sent at every gap and at the end. -/
def selectEvents (codec : Codec Value) (accountId : Uuid) (currentVersion : Int) (batch : List AccountEvent) :
    List (Event Value) → Program (SystemCall Value) (Except String Unit)
  | [] => sendCollected accountId batch currentVersion
  | event :: events =>
    let collect (batch : List AccountEvent) : Program (SystemCall Value) (Except String Unit) :=
      match codec.fromValue event.eventData with
      | .error _ => .pure (.error "Failed to deserialize event")
      | .ok accountEvent => selectEvents codec accountId event.version (batch ++ [accountEvent]) events
    if event.version ≠ currentVersion + 1 then
      (sendCollected accountId batch currentVersion).andThen fun _ => collect []
    else collect batch

def selectiveReplay (codec : Codec Value) (accountId : Option Uuid) : Program (SystemCall Value) (Except String Unit) :=
  (accountsToReplay codec accountId).andThen <| Program.forEach fun account =>
    (awaitCall EventStoreError.display (.inl (.getEvents account.id none))).andThen (selectEvents codec account.id 0 [])

end KafkaRecoveryStrategies

def KafkaRecovery.replayAccountEvents (codec : Codec Value) (account : Account) :
    Program (SystemCall Value) (Except String Unit) :=
  (awaitCall EventStoreError.display (.inl (.getEvents account.id none))).andThen (replayEvents codec account.id)

end BankingEs
