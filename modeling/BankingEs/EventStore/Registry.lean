import BankingEs.EventStore.Flush

/-! The validators and handlers registered with the store. `new_with_config_and_pool`
starts the batch processor with the map of handlers; the map of validators stays
in the store and no task reads it. -/

namespace BankingEs

abbrev EventValidator (Value : Type) := Event Value → EventValidationResult

inductive Registration (Value : Type) where
  | validator (eventType : String) (validator : EventValidator Value)
  | handler (eventType : String) (handler : EventHandler Value)

structure Registry (Value : Type) where
  eventValidators : String → Option (EventValidator Value) := fun _ => none
  eventHandlers : String → List (EventHandler Value) := fun _ => []

variable {Value : Type}

namespace Registry

/-- A later validator of the same type replaces the earlier one. -/
def registerValidator (registry : Registry Value) (eventType : String) (validator : EventValidator Value) :
    Registry Value :=
  { registry with eventValidators := Function.update registry.eventValidators eventType (some validator) }

/-- A later handler of the same type runs after the earlier ones. -/
def registerHandler (registry : Registry Value) (eventType : String) (handler : EventHandler Value) :
    Registry Value :=
  { registry with
    eventHandlers :=
      Function.update registry.eventHandlers eventType (registry.eventHandlers eventType ++ [handler]) }

def register (registry : Registry Value) : Registration Value → Registry Value
  | .validator eventType validator => registry.registerValidator eventType validator
  | .handler eventType handler => registry.registerHandler eventType handler

def registered (registrations : List (Registration Value)) : Registry Value :=
  registrations.foldl register {}

def Rejects (registry : Registry Value) (event : Event Value) : Prop :=
  ∃ validator, registry.eventValidators event.eventType = some validator ∧ (validator event).isValid = false

end Registry

namespace EventStore

/-- The calls of a flush by a store. `registrations` are those made by the time
the flush comes to a position: they may be made while it runs. -/
def Calls.underRegistry (calls : Calls Value) (registrations : Nat → List (Registration Value)) : Calls Value :=
  { calls with handlers := fun position => (Registry.registered (registrations position)).eventHandlers }

/-- What the loop over a batch hands to `bulk_insert_events_optimized`, with the positions. -/
def handedFrom (calls : Calls Value) : Nat → List BatchedEvent → List (Nat × List (Event Value))
  | _, [] => []
  | position, batched :: batch =>
    match calls.prepare position batched with
    | .error _ => []
    | .ok eventData =>
      let rest := handedFrom calls (position + 1) batch
      match validationError eventData, handlingError (calls.handlers position) eventData with
      | none, none => (position, eventData) :: rest
      | _, _ => rest

def handedOver (calls : Calls Value) (batch : List BatchedEvent) : List (Nat × List (Event Value)) :=
  match calls.begin with
  | .error _ => []
  | .ok () => handedFrom calls 0 batch

end EventStore
end BankingEs
