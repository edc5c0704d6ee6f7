import BankingEs.Application.World
import BankingEs.EventStore.WritePath

/-! The application layer over the write path of the event store. A call of `save_events` waits
for a permit, sends its request and is served when the write path returns its result; every
other call reads the table as the write path has committed it. -/

namespace BankingEs
open Async Relation

structure Stack (ι Value : Type) where
  world : World ι Value
  path : WritePath Value

namespace Stack
variable {ι Value : Type}

/-- `save_events`: nothing to do without events, and else the result that the path returns. -/
def Saves (config : EventStoreConfig) (before after : WritePath Value) (request : SaveRequest)
    (reply : Except EventStoreError Unit) : Prop :=
  if request.events = [] then after = before ∧ reply = .ok ()
  else ∃ ready taken, ReflTransGen (WritePath.Moves config) before ready ∧
    ready.semaphore.tryAcquire = some taken ∧
    ReflTransGen (WritePath.Moves config)
      (ready.send taken request.aggregateId request.events request.expectedVersion) after ∧
    (ready.nextResponse, reply) ∈ after.results

/-- The path moves on while a call waits. What is read is read from the committed table. -/
def serves (env : Environment Value) (config : EventStoreConfig) (caller : ι) :
    {β : Type} → Stack ι Value → Call Value β → β → Stack ι Value → Prop
  | _, before, .saveEvents request, reply, after =>
    World.Passes before.world after.world ∧ Saves config before.path after.path request reply
  | _, before, op, reply, after =>
    ReflTransGen (WritePath.Moves config) before.path after.path ∧
      World.serves env caller { before.world with events := after.path.committed } op reply after.world

end Stack
end BankingEs
