import BankingEs.EventStore.Flush

/-! The query builder of `bulk_insert_events_optimized`: one loop writes the text and collects the
values, and numbers the placeholders with an `i32`. A second loop binds the values. -/

namespace BankingEs

/-- Wrap-around of a 32-bit signed sum, as in a release build. -/
def i32 (value : Int) : Int := value.bmod (2 ^ 32)

abbrev InsertParams (Value : Type) := Uuid × Uuid × String × Value × Int × DateTime × EventMetadata

structure QueryBuilder (Value : Type) where
  values : List String := []
  params : List (InsertParams Value) := []
  paramIndex : Int := 1

namespace QueryBuilder
variable {Value : Type}

/-- The arguments of a format, as `"(${},${},${},${},${},${},${})"` prints them. -/
def valueText (arguments : List Int) : String :=
  "(" ++ ",".intercalate (arguments.map fun argument => "$" ++ toString argument) ++ ")"

def indices (paramIndex : Int) : List Int :=
  [paramIndex, i32 (paramIndex + 1), i32 (paramIndex + 2), i32 (paramIndex + 3), i32 (paramIndex + 4),
    i32 (paramIndex + 5), i32 (paramIndex + 6)]

def push (builder : QueryBuilder Value) (event : Event Value) : QueryBuilder Value :=
  { values := builder.values ++ [valueText (indices builder.paramIndex)]
    params := builder.params ++ [(event.id, event.aggregateId, event.eventType, event.eventData, event.version,
      event.timestamp, event.metadata)]
    paramIndex := i32 (builder.paramIndex + 7) }

def text (builder : QueryBuilder Value) : String := InsertQuery.header ++ ",".intercalate builder.values

def binds (builder : QueryBuilder Value) : List (Bind Value) :=
  builder.params.flatMap fun (id, aggregateId, eventType, eventData, version, timestamp, metadata) =>
    [.uuid id, .uuid aggregateId, .text eventType, .json eventData, .bigint version, .timestamptz timestamp,
      .metadata metadata]

end QueryBuilder
end BankingEs
