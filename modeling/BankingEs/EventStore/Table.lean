import Mathlib.Data.List.Sort
import BankingEs.Domain

/-! The events table: its rows, the errors of the store that keeps it, and the
queries that read it. JSON values are a parameter, of which only the round trip
of an account event is known. -/

namespace BankingEs

/-- Nanoseconds since the epoch. -/
abbrev DateTime := Int

/-- `TIMESTAMPTZ` keeps microseconds. -/
def DateTime.stored (time : DateTime) : DateTime := time - time % 1000

/-- Wrap-around of a 64-bit signed sum, as in a release build. -/
def i64 (value : Int) : Int := value.bmod (2 ^ 64)

theorem i64_of_bounds {value : Int} (low : -2 ^ 63 ≤ value) (high : value < 2 ^ 63) : i64 value = value :=
  Int.bmod_eq_of_le (by omega) (by omega)

theorem i64_dvd (value : Int) : (2 ^ 64 : Int) ∣ i64 value - value := Int.dvd_bmod_sub_self

theorem i64_succ_ne (value : Int) : i64 (value + 1) ≠ value := by
  intro same
  have divides := i64_dvd (value + 1)
  omega

/-- `serde_json` on account events. -/
structure Codec (Value : Type) (Amount : Type := Decimal) where
  toValue : AccountEvent Amount → Except String Value
  fromValue : Value → Except String (AccountEvent Amount)
  decodes : ∀ event value, toValue event = .ok value → fromValue value = .ok event

def Codec.plain : Codec AccountEvent := ⟨.ok, .ok, fun _ _ encoded => by cases encoded; rfl⟩

inductive SqlxError where
  | rowNotFound
  | database (code : String) (constraint : Option String) (message : String)
  | other (message : String)
  deriving DecidableEq

namespace SqlxError

def display : SqlxError → String
  | rowNotFound => "no rows returned by a query that expected to return at least one row"
  | database _ _ message => "error returned from database: " ++ message
  | other message => message

def isConflict : SqlxError → Bool
  | database code constraint _ => code == "23505" && constraint == some "unique_aggregate_id_version"
  | _ => false

def transientErrorCodes : List String :=
  ["40001", "40003", "08006", "08001", "08004", "08007", "08P01", "40000"]

def isTransientError : SqlxError → Bool
  | database code _ _ => transientErrorCodes.contains code
  | _ => false

end SqlxError

inductive EventStoreError where
  | optimisticConcurrencyConflict (aggregateId : Uuid) (expected : Int) (actual : Option Int)
  | databaseError (error : SqlxError)
  | serializationError (message : String)
  | validationError (errors : List String)
  | responseSendError (message : String)
  | internalError (message : String)
  | eventHandlingError (message : String)
  deriving DecidableEq

namespace EventStoreError

def display : EventStoreError → String
  | optimisticConcurrencyConflict aggregateId expected actual =>
    "Optimistic concurrency conflict for aggregate " ++ aggregateId.display ++ ": expected version " ++
      toString expected ++ ", but found " ++
      (match actual with | some version => "Some(" ++ toString version ++ ")" | none => "None")
  | databaseError error => "Database error: " ++ error.display
  | serializationError message => "Serialization error: " ++ message
  | validationError errors => "Validation error: [" ++ ", ".intercalate (errors.map String.quote) ++ "]"
  | responseSendError message => "Failed to send response for batch event: " ++ message
  | internalError message => "Internal error: " ++ message
  | eventHandlingError message => "Event handling error: " ++ message

end EventStoreError

structure EventMetadata where
  correlationId : Option Uuid
  causationId : Option Uuid
  userId : Option String
  source : String
  schemaVersion : String
  tags : List String
  deriving DecidableEq

def EventMetadata.default : EventMetadata :=
  { correlationId := none, causationId := none, userId := none, source := "system", schemaVersion := "1.0", tags := [] }

structure Event (Value : Type) where
  id : Uuid
  aggregateId : Uuid
  eventType : String
  eventData : Value
  version : Int
  timestamp : DateTime
  metadata : EventMetadata
  deriving DecidableEq

def plainRow (aggregateId : Uuid) (version : Int) (event : AccountEvent) : Event AccountEvent :=
  { id := ⟨0⟩, aggregateId, eventType := event.eventType, eventData := event, version, timestamp := 0,
    metadata := .default }

abbrev Table (Value : Type) := List (Event Value)

variable {Value Amount : Type}

/-- The rows hold the events in order under the versions after `version`. -/
def Holds (codec : Codec Value Amount) (aggregateId : Uuid) (version : Int) (events : List (AccountEvent Amount))
    (rows : Table Value) : Prop :=
  rows.map (fun row => (row.aggregateId, row.version, codec.fromValue row.eventData)) =
    events.mapIdx (fun index event => (aggregateId, version + index + 1, .ok event))

namespace Table

def rowsOf (table : Table Value) (aggregateId : Uuid) : Table Value :=
  table.filter (fun row => row.aggregateId = aggregateId)

/-- `ORDER BY version DESC LIMIT 1`: no row at all for an unknown aggregate. -/
def latestVersion (table : Table Value) (aggregateId : Uuid) : Option Int :=
  ((table.rowsOf aggregateId).map Event.version).max?

/-- `COALESCE(MAX(version), 0)`. -/
def currentVersion (table : Table Value) (aggregateId : Uuid) : Int :=
  (table.latestVersion aggregateId).getD 0

/-- The rows above `fromVersion` in version order; the stored metadata is not read. -/
def getEvents (table : Table Value) (aggregateId : Uuid) (fromVersion : Option Int) : Table Value :=
  (((table.rowsOf aggregateId).filter (fun row => fromVersion.getD (-1) < row.version)).insertionSort
    (fun first second => first.version ≤ second.version)).map (fun row => { row with metadata := .default })

@[simp] theorem rowsOf_append (first second : Table Value) (aggregateId : Uuid) :
    rowsOf (first ++ second) aggregateId = rowsOf first aggregateId ++ rowsOf second aggregateId := by
  simp [rowsOf]

theorem latestVersion_eq_some_iff (table : Table Value) (aggregateId : Uuid) (version : Int) :
    table.latestVersion aggregateId = some version ↔
      (∃ row ∈ table, row.aggregateId = aggregateId ∧ row.version = version) ∧
        ∀ row ∈ table, row.aggregateId = aggregateId → row.version ≤ version := by
  rw [latestVersion, List.max?_eq_some_iff]
  constructor
  · rintro ⟨found, bound⟩
    obtain ⟨row, member, same⟩ := List.mem_map.mp found
    obtain ⟨stored, owner⟩ := List.mem_filter.mp member
    refine ⟨⟨row, stored, by simpa using owner, same⟩, ?_⟩
    intro other inside mine
    exact bound _ (List.mem_map.mpr ⟨other, List.mem_filter.mpr ⟨inside, by simpa using mine⟩, rfl⟩)
  · rintro ⟨⟨row, stored, owner, same⟩, bound⟩
    refine ⟨List.mem_map.mpr ⟨row, List.mem_filter.mpr ⟨stored, by simpa using owner⟩, same⟩, ?_⟩
    intro other found
    obtain ⟨row, member, rfl⟩ := List.mem_map.mp found
    obtain ⟨inside, mine⟩ := List.mem_filter.mp member
    exact bound row inside (by simpa using mine)

theorem latestVersion_eq_none_iff (table : Table Value) (aggregateId : Uuid) :
    table.latestVersion aggregateId = none ↔ ∀ row ∈ table, row.aggregateId ≠ aggregateId := by
  simp [latestVersion, rowsOf, List.max?_eq_none_iff]

end Table
end BankingEs
