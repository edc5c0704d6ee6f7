import BankingEs.EventStore.InsertText
import BankingEs.Proofs.BulkInsert

/-! The query that `bulk_insert_events_optimized` builds. The numbers of the placeholders are right
as long as an `i32` holds them, which it does for every list of events that comes so far. -/

namespace BankingEs.Proofs.InsertText
open EventStore QueryBuilder

variable {Value : Type}

/-- The placeholders `$7k+1` to `$7k+7`, for every `k` below `count`. -/
def tuples (count : Nat) : List (List Nat) := (List.range count).map fun k => List.range' (7 * k + 1) 7

end BankingEs.Proofs.InsertText
