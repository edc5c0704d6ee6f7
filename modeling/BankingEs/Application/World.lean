import BankingEs.Cache.Service

/-! The world that serves the calls of the application layer: the events table,
the projections, the cache, the command cache of one service and the clock. -/

namespace BankingEs
open Async

/-- `issued` are the random ids drawn so far and by whom, and `saves` the requests
that reached the event store, with whether their events were stored. -/
structure World (ι Value : Type) where
  now : Instant := 0
  issued : List (ι × Uuid) := []
  events : Table Value := []
  saves : List (SaveRequest × Bool) := []
  commandCache : Uuid → Option Instant := fun _ => none
  accounts : Uuid → Option AccountProjection := fun _ => none
  transactions : List TransactionProjection := []
  cache : CacheService := {}

/-- What is known of the collaborators: which saves the event store may accept, and
whether the calls that are not saves can fail. -/
structure Environment (Value : Type) where
  codec : Codec Value
  accepts : Table Value → SaveRequest → Prop
  fails : Prop

/-- The event store accepts every save, and nothing fails. -/
def Environment.accepting : Environment AccountEvent := ⟨.plain, fun _ _ => True, False⟩

def locking {Value : Type} (codec : Codec Value) (fails : Prop) : Environment Value where
  codec := codec
  accepts := fun table request => request.expectedVersion = table.currentVersion request.aggregateId
  fails := fails

namespace World
variable {ι Value : Type}

/-- Time passes before a call is served, and the clean-up of the cache may run. -/
inductive Passes (world : World ι Value) : World ι Value → Prop where
  | waits {now : Instant} (later : world.now ≤ now) : Passes world { world with now }
  | cleans {now : Instant} (later : world.now ≤ now) :
      Passes world { world with now, cache := world.cache.cleanUp now }

/-- The stored events of a request, or none of them. The answer does not depend on
which: an accepted save may be reported as failed, and the other way round. -/
inductive Saves (env : Environment Value) (world : World ι Value) (request : SaveRequest) : World ι Value → Prop where
  | stored {rows : Table Value} (accepted : env.accepts world.events request)
      (holds : Holds env.codec request.aggregateId request.expectedVersion request.events rows) :
      Saves env world request
        { world with events := world.events ++ rows, saves := world.saves ++ [(request, true)] }
  | refused : Saves env world request { world with saves := world.saves ++ [(request, false)] }

def Fails (env : Environment Value) {α ε : Type} (reply : Except ε α) :
    Prop := env.fails ∧ ∃ error, reply = .error error

theorem answer_cases {env : Environment Value} {α ε : Type} {expected reply : Except ε α}
    (answer : reply = expected ∨ Fails env reply) : reply = expected ∨ ∃ error, reply = .error error :=
  answer.imp_right And.right

def Connects (env : Environment Value) (connection : Except String Unit) : Prop :=
  connection = .ok () ∨ Fails env connection

def step (env : Environment Value) (caller : ι) :
    {β : Type} → World ι Value → Call Value β → β → World ι Value → Prop
  | _, world, .newV4, id, after =>
    (∀ entry ∈ world.issued, entry.2 ≠ id) ∧ after = { world with issued := (caller, id) :: world.issued }
  | _, world, .utcNow, _, after => after = world
  | _, world, .isDuplicateCommand commandId, duplicate, after =>
    duplicate = (world.commandCache commandId).isSome ∧
      after = if duplicate then world
        else { world with commandCache := Function.update world.commandCache commandId (some world.now) }
  | _, world, .getEvents aggregateId fromVersion, reply, after =>
    (reply = .ok (world.events.getEvents aggregateId fromVersion) ∨ Fails env reply) ∧ after = world
  | _, world, .saveEvents request, _, after => Saves env world request after
  | _, world, .upsertAccountsBatch rows, reply, after =>
    (reply = .ok () ∧ after = { world with
      accounts := rows.foldl (fun table row => Function.update table row.id (some row)) world.accounts }) ∨
    (Fails env reply ∧ after = world)
  | _, world, .insertTransactionsBatch rows, reply, after =>
    (reply = .ok () ∧ after = { world with
      transactions := world.transactions ++ rows.map TransactionProjection.stored }) ∨
    (Fails env reply ∧ after = world)
  | _, world, .projectionsGetAccount accountId, reply, after =>
    (reply = .ok (world.accounts accountId) ∨ Fails env reply) ∧ after = world
  | _, world, .cacheGetAccount accountId, reply, after =>
    ∃ connection, Connects env connection ∧ ∃ cache,
      world.cache.getAccount world.now connection accountId = (reply, cache) ∧ after = { world with cache }
  | _, world, .cacheSetAccount account ttl, reply, after =>
    ∃ connection, Connects env connection ∧ ∃ cache,
      world.cache.setAccount world.now connection account ttl = (reply, cache) ∧ after = { world with cache }

def serves (env : Environment Value) (caller : ι) : Serves (Call Value) (World ι Value) :=
  fun before op reply after => ∃ ready, Passes before ready ∧ step env caller ready op reply after

theorem serves_now {env : Environment Value} {caller : ι} {β : Type} {before after : World ι Value}
    {op : Call Value β} {reply : β} (served : step env caller before op reply after) :
    serves env caller before op reply after :=
  ⟨before, .waits le_rfl, served⟩

end World
end BankingEs
