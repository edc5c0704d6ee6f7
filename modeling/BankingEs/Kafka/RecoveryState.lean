import BankingEs.Kafka.Recovery

/-! `start_recovery`, the function itself and the one of the trait, with the state that all
of its calls share. -/

namespace BankingEs
open Async

structure RecoveryState where
  isRecovering : Bool := false
  recoveryStartTime : Option Instant := none
  accountsInRecovery : List Uuid := []

/-- The sections that hold the lock of the state, and what `perform_recovery` and its handlers
of failures await. A retry of a cache update comes with the number of those that remain. -/
inductive RecoveryCall (Value : Type) : Type → Type where
  | begin : RecoveryCall Value Bool
  | finish : RecoveryCall Value Unit
  | push (accountId : Uuid) : RecoveryCall Value Unit
  | retain (accountId : Uuid) : RecoveryCall Value Unit
  | getAllAccounts : RecoveryCall Value (Except String (List AccountProjection))
  | getEvents (accountId : Uuid) : RecoveryCall Value (Except EventStoreError (List (Event Value)))
  | sendToDlq (batch : EventBatch) (failureReason : String) : RecoveryCall Value (Except String Unit)
  | retryCacheUpdate (remaining : Nat) (account : Account) : RecoveryCall Value (Except String Unit)

abbrev RecoveryRequest (Value β : Type) := RecoveryCall Value β ⊕ SystemCall Value β

variable {Value : Type}

namespace KafkaRecovery

/-- The account that stored events lead to. -/
def reconstruct (codec : Codec Value) (accountId : Uuid) (stored : List (Event Value)) : Except String Account :=
  (AccountRepository.blank accountId).applyStored codec (fun _ => "Failed to deserialize event") stored

def verifyAccountEvents (codec : Codec Value) (account : Account) : Program (SystemCall Value) (Except String Unit) :=
  (awaitCall EventStoreError.display (.inl (.getEvents account.id none))).andThen fun stored =>
    match reconstruct codec account.id stored with
    | .error error => .pure (.error error)
    | .ok replayed =>
      .pure (if replayed ≠ account then .error "Account state mismatch after event replay" else .ok ())

def updateAccountCache (account : Account) : Program (SystemCall Value) (Except String Unit) :=
  awaitCall id (.inr (.sendCacheUpdate account.id account))

def handleInconsistentAccount (account : Account) (error : String) :
    Program (RecoveryRequest Value) (Except String Unit) :=
  .send (.inl (.sendToDlq ⟨account.id, [], account.version⟩ ("Event consistency check failed: " ++ error)))

def handleReplayFailure (account : Account) (error : String) : Program (RecoveryRequest Value) (Except String Unit) :=
  .send (.inl (.sendToDlq ⟨account.id, [], account.version⟩ ("Event replay failed: " ++ error)))

def maxRetries : Nat := 3

def retryCacheUpdates (account : Account) : Nat → Program (RecoveryRequest Value) (Except String Unit)
  | 0 => .pure (.ok ())
  | remaining + 1 => do
    match ← .send (.inl (.retryCacheUpdate remaining account)) with
    | .ok () => return .ok ()
    | .error error =>
      if remaining = 0 then return .error error
      else do
        .send (.inr (.inr (.sleep (100000000 * 2 ^ (maxRetries - remaining)))))
        retryCacheUpdates account remaining

/-- The error of the first update is not used. -/
def handleCacheUpdateFailure (account : Account) (_ : String) : Program (RecoveryRequest Value) (Except String Unit) :=
  retryCacheUpdates account maxRetries

/-- An account stays on the list if one of its steps fails. -/
def recoverSteps (codec : Codec Value) (account : Account) : Program (RecoveryRequest Value) (Except String Unit) := do
  match ← (verifyAccountEvents codec account).embed .inr with
  | .error error => handleInconsistentAccount account error
  | .ok () =>
    match ← (replayAccountEvents codec account).embed .inr with
    | .error error => handleReplayFailure account error
    | .ok () =>
      match ← (updateAccountCache account).embed .inr with
      | .error error => handleCacheUpdateFailure account error
      | .ok () =>
        .send (.inl (.retain account.id))
        return .ok ()

def recoverAccount (codec : Codec Value) (projection : AccountProjection) :
    Program (RecoveryRequest Value) (Except String Unit) := do
  .send (.inl (.push projection.id))
  match ← .send (.inl (.getEvents projection.id)) with
  | .error error => return .error error.display
  | .ok stored =>
    match reconstruct codec projection.id stored with
    | .error error => return .error error
    | .ok account => recoverSteps codec account

def performRecovery (codec : Codec Value) : Program (RecoveryRequest Value) (Except String Unit) :=
  (Program.send (.inl .getAllAccounts)).andThen (Program.forEach (recoverAccount codec))

def finishRecovery : Program (RecoveryRequest Value) (Except String Unit) := do
  .send (.inl .finish)
  return .ok ()

def startRecovery (codec : Codec Value) : Program (RecoveryRequest Value) (Except String Unit) := do
  let recovering ← .send (.inl .begin)
  if recovering then return .ok ()
  else (performRecovery codec).andThen fun _ => finishRecovery

def startRecoveryTrait (codec : Codec Value) : Program (RecoveryRequest Value) (Except String Unit) := do
  let recovering ← .send (.inl .begin)
  if recovering then return .ok ()
  else performRecovery codec

end KafkaRecovery

inductive RecoveryStart where
  | inherent
  | viaTrait

def RecoveryStart.program (codec : Codec Value) : RecoveryStart → Program (RecoveryRequest Value) (Except String Unit)
  | inherent => KafkaRecovery.startRecovery codec
  | viaTrait => KafkaRecovery.startRecoveryTrait codec

namespace RecoveryState

def step : {β : Type} → RecoveryState → RecoveryCall Value β → β → RecoveryState → Prop
  | _, state, .begin, recovering, after => recovering = state.isRecovering ∧
    if recovering then after = state
    else ∃ now, after = { state with isRecovering := true, recoveryStartTime := some now }
  | _, _, .finish, _, after => after = { isRecovering := false, recoveryStartTime := none, accountsInRecovery := [] }
  | _, state, .push accountId, _, after =>
    after = { state with accountsInRecovery := state.accountsInRecovery ++ [accountId] }
  | _, state, .retain accountId, _, after =>
    after = { state with accountsInRecovery := state.accountsInRecovery.filter (· ≠ accountId) }
  | _, state, .getAllAccounts, _, after => after = state
  | _, state, .getEvents _, _, after => after = state
  | _, state, .sendToDlq _ _, _, after => after = state
  | _, state, .retryCacheUpdate _ _, _, after => after = state

/-- The stores, the producer and the queue may answer anything. -/
def serves : Serves (RecoveryRequest Value) RecoveryState
  | _, state, .inl op, reply, after => step state op reply after
  | _, state, .inr _, _, after => after = state

/-- A next recovery finds nothing of an earlier one. -/
structure Idle (state : RecoveryState) : Prop where
  stopped : state.isRecovering = false
  untimed : state.recoveryStartTime = none
  empty : state.accountsInRecovery = []

end RecoveryState
end BankingEs
