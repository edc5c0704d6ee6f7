import BankingEs.EventStore.Flush

/-! `bulk_insert_events_optimized` over any connection: what its three statements
answer is left open, as is what the transaction behind them is. -/

namespace BankingEs

structure Connection (σ Value : Type) where
  setSerializable : σ → Except SqlxError Unit × σ
  selectVersion : Uuid → σ → Except SqlxError (Option Int) × σ
  execute : InsertQuery Value → σ → Except SqlxError Unit × σ

structure InsertSession (σ : Type) where
  tx : σ
  metrics : EventStoreMetrics
  versionCache : Uuid → Option Int

variable {σ Value : Type}

def InsertSession.occFailure (session : InsertSession σ) (aggregateId : Uuid) : InsertSession σ :=
  { session with
    metrics := { session.metrics with occFailures := session.metrics.occFailures + 1 }
    versionCache := Function.update session.versionCache aggregateId none }

namespace Connection
open EventStore

def insertLoop (connection : Connection σ Value) (events : List (Event Value)) (aggregateId : Uuid)
    (expectedVersion lastVersion : Int) (retries : Nat) (session : InsertSession σ) :
    Except EventStoreError Unit × InsertSession σ :=
  match connection.selectVersion aggregateId session.tx with
  | (.error error, tx) => (.error (.databaseError error), { session with tx })
  | (.ok none, tx) => (.error (.databaseError .rowNotFound), { session with tx })
  | (.ok (some currentVersion), tx) =>
    let session := { session with tx }
    let conflict := EventStoreError.optimisticConcurrencyConflict aggregateId expectedVersion (some currentVersion)
    if currentVersion ≠ expectedVersion then (.error conflict, session.occFailure aggregateId)
    else match sequenceError expectedVersion events with
      | some message => (.error (.validationError [message]), session)
      | none => match connection.execute (insertQuery events) session.tx with
        | (.ok (), tx) => (.ok (), { session with
            tx, versionCache := Function.update session.versionCache aggregateId (some lastVersion) })
        | (.error error, tx) =>
          let session := { session with tx }
          if error.isConflict then (.error conflict, session.occFailure aggregateId)
          else if error.isTransientError then match retries with
            | 0 => (.error (.databaseError error), session)
            | retries + 1 => insertLoop connection events aggregateId expectedVersion lastVersion retries session
          else (.error (.databaseError error), session)

def bulkInsertEventsOptimized (connection : Connection σ Value) (events : List (Event Value))
    (session : InsertSession σ) : Except EventStoreError Unit × InsertSession σ :=
  match events.head?, events.getLast? with
  | some first, some last =>
    match connection.setSerializable session.tx with
    | (.error error, tx) => (.error (.databaseError error), { session with tx })
    | (.ok (), tx) =>
      connection.insertLoop events first.aggregateId first.version last.version maxRetries { session with tx }
  | _, _ => (.ok (), session)

end Connection

def Transaction.connection (database : Database) : Connection (Transaction Value) Value where
  setSerializable tx := tx.setSerializable database
  selectVersion aggregateId tx := tx.selectVersion database aggregateId
  execute query tx := tx.execute database query

def Session.connected (session : Session Value) : InsertSession (Transaction Value) :=
  { tx := session.tx, metrics := session.metrics, versionCache := session.versionCache }

structure Answers where
  setSerializable : Except SqlxError Unit
  selectVersion : Nat → Except SqlxError (Option Int)
  execute : Nat → Except SqlxError Unit

structure AnsweredTransaction where
  aborted : Bool := false
  selected : Nat := 0
  executed : Nat := 0

/-- A transaction gives the answer while it is usable; a failure aborts it. -/
def AnsweredTransaction.send {α : Type} (answer : Except SqlxError α) (tx : AnsweredTransaction) :
    Except SqlxError α × AnsweredTransaction :=
  if tx.aborted then (.error Transaction.inFailedSqlTransaction, tx)
  else match answer with
    | .ok result => (.ok result, tx)
    | .error error => (.error error, { tx with aborted := true })

def Answers.connection (answers : Answers) : Connection AnsweredTransaction Value where
  setSerializable tx := tx.send answers.setSerializable
  selectVersion _ tx := { tx with selected := tx.selected + 1 }.send (answers.selectVersion tx.selected)
  execute _ tx := { tx with executed := tx.executed + 1 }.send (answers.execute tx.executed)

end BankingEs
