import BankingEs.EventStore.Table

/-! One PostgreSQL transaction on the events table. A statement may fail because
the database says so, and a failed statement leaves a transaction that can only
roll back. -/

namespace BankingEs

inductive Bind (Value : Type) where
  | uuid (value : Uuid)
  | text (value : String)
  | json (value : Value)
  | bigint (value : Int)
  | timestamptz (value : DateTime)
  | metadata (value : EventMetadata)

/-- A multi-row `INSERT`: the placeholder numbers of each tuple and the values bound to them. -/
structure InsertQuery (Value : Type) where
  tuples : List (List Nat)
  binds : List (Bind Value)

/-- What PostgreSQL adds of its own: the statements that fail, by the number of those sent before,
and the hash that puts an aggregate in one of the four partitions of the table. -/
structure Database where
  faults : Nat → Option SqlxError := fun _ => none
  remainder : Uuid → Fin 4 := fun _ => 0

def Database.faultless : Database := {}

structure Transaction (Value : Type) where
  snapshot : Table Value
  inserted : Table Value := []
  aborted : Bool := false
  sent : Nat := 0

variable {Value : Type}

namespace InsertQuery

def header : String :=
  "\n                INSERT INTO events (id, aggregate_id, event_type, event_data, version, timestamp, metadata)" ++
    "\n                VALUES\n                "

def text (query : InsertQuery Value) : String :=
  header ++ ",".intercalate (query.tuples.map fun tuple =>
    "(" ++ ",".intercalate (tuple.map fun index => "$" ++ toString index) ++ ")")

def bound (binds : List (Bind Value)) (index : Nat) : Option (Bind Value) := binds[index - 1]?

def row (binds : List (Bind Value)) (tuple : List Nat) : Option (Event Value) :=
  match tuple.mapM (bound binds) with
  | some [.uuid id, .uuid aggregateId, .text eventType, .json eventData, .bigint version,
      .timestamptz timestamp, .metadata metadata] =>
    some { id, aggregateId, eventType, eventData, version, timestamp, metadata }
  | _ => none

def rows (query : InsertQuery Value) : Option (Table Value) :=
  query.tuples.mapM (row query.binds)

end InsertQuery

namespace Event

def key (event : Event Value) : Uuid × Int := (event.aggregateId, event.version)

def binds (event : Event Value) : List (Bind Value) :=
  [.uuid event.id, .uuid event.aggregateId, .text event.eventType, .json event.eventData,
    .bigint event.version, .timestamptz event.timestamp, .metadata event.metadata]

end Event

def Table.Conflicts (visible rows : Table Value) : Prop :=
  ¬ (rows.map Event.key).Nodup ∨ ∃ row ∈ rows, row.key ∈ visible.map Event.key

instance (visible rows : Table Value) : Decidable (Table.Conflicts visible rows) :=
  inferInstanceAs (Decidable (_ ∨ _))

namespace Transaction

/-- `unique_aggregate_id_version` is the constraint of the partitioned table. A row that violates it
violates the index of its partition, and PostgreSQL names that one. -/
def partitionKey (remainder : Fin 4) : String :=
  "events_new_p" ++ toString remainder.val ++ "_aggregate_id_version_key"

def uniqueViolation (remainder : Fin 4) : SqlxError :=
  .database "23505" (some (partitionKey remainder))
    ("duplicate key value violates unique constraint \"" ++ partitionKey remainder ++ "\"")

def inFailedSqlTransaction : SqlxError :=
  .database "25P02" none "current transaction is aborted, commands ignored until end of transaction block"

def syntaxError : SqlxError := .database "42601" none "syntax error"

def visible (tx : Transaction Value) : Table Value := tx.snapshot ++ tx.inserted

/-- Send one statement, which yields a result and the rows it adds. -/
def send {α : Type} (database : Database) (statement : Table Value → Except SqlxError (α × Table Value))
    (tx : Transaction Value) : Except SqlxError α × Transaction Value :=
  let after := { tx with sent := tx.sent + 1 }
  if tx.aborted then (.error inFailedSqlTransaction, after)
  else match database.faults tx.sent with
    | some error => (.error error, { after with aborted := true })
    | none => match statement tx.visible with
      | .ok (result, rows) => (.ok result, { after with inserted := tx.inserted ++ rows })
      | .error error => (.error error, { after with aborted := true })

def setSerializable (database : Database) (tx : Transaction Value) : Except SqlxError Unit × Transaction Value :=
  tx.send database (fun _ => .ok ((), []))

/-- The locking version query; `none` is an empty result. -/
def selectVersion (database : Database) (aggregateId : Uuid) (tx : Transaction Value) :
    Except SqlxError (Option Int) × Transaction Value :=
  tx.send database (fun visible => .ok (visible.latestVersion aggregateId, []))

def remainderOf (database : Database) (rows : Table Value) : Fin 4 :=
  rows.head?.elim 0 fun row => database.remainder row.aggregateId

def execute (database : Database) (query : InsertQuery Value) (tx : Transaction Value) :
    Except SqlxError Unit × Transaction Value :=
  tx.send database (fun visible => match query.rows with
    | none => .error syntaxError
    | some rows =>
      if visible.Conflicts rows then .error (uniqueViolation (remainderOf database rows)) else .ok ((), rows))

end Transaction
end BankingEs
