import BankingEs.Auth.Service

/-! The counters of `check_rate_limit` in a Redis whose commands may fail, before they are carried
out or after. A call that is never served again is one whose process stopped. -/

namespace BankingEs
open Async

/-- `starter` is the call whose `INCR` began the count and `touchedAt` the time of the last command
on it; nothing reads these two. -/
structure Counter (ι : Type) where
  count : Int
  expiresAt : Option DateTime
  starter : ι
  touchedAt : DateTime

def Counter.isLive {ι : Type} (now : DateTime) (counter : Counter ι) : Bool :=
  match counter.expiresAt with
  | some expiresAt => now < expiresAt
  | none => true

/-- `expired` are the calls whose `EXPIRE` was carried out; nothing reads it. -/
structure CounterStore (ι : Type) where
  now : DateTime := 0
  counters : String → Option (Counter ι) := fun _ => none
  expired : List ι := []

namespace CounterStore
variable {ι : Type}

def live (store : CounterStore ι) (key : String) : Option (Counter ι) :=
  (store.counters key).filter fun counter => counter.isLive store.now

def set (store : CounterStore ι) (key : String) (counter : Option (Counter ι)) : CounterStore ι :=
  { store with counters := Function.update store.counters key counter }

def counted (store : CounterStore ι) (thread : ι) (key : String) : Counter ι :=
  match store.live key with
  | some counter => { counter with count := counter.count + 1, touchedAt := store.now }
  | none => { count := 1, expiresAt := none, starter := thread, touchedAt := store.now }

inductive Counts (store : CounterStore ι) (thread : ι) (key : String) : Except RedisError Int → CounterStore ι → Prop where
  | fails {error : RedisError} : Counts store thread key (.error error) store
  | answered (fits : (store.counted thread key).count < 2 ^ 63) :
      Counts store thread key (.ok (store.counted thread key).count) (store.set key (some (store.counted thread key)))
  | unanswered {error : RedisError} (fits : (store.counted thread key).count < 2 ^ 63) :
      Counts store thread key (.error error) (store.set key (some (store.counted thread key)))

/-- `EXPIRE`, which drops the key at once if the time is not positive. -/
def expire (store : CounterStore ι) (thread : ι) (key : String) (seconds : Int) : CounterStore ι :=
  { (match store.live key with
    | some counter =>
      if 0 < seconds then
        store.set key (some { counter with
          expiresAt := some (store.now + DateTime.seconds seconds), touchedAt := store.now })
      else store.set key none
    | none => store) with expired := thread :: store.expired }

inductive Expires (store : CounterStore ι) (thread : ι) (key : String) (seconds : Int) :
    Except RedisError Unit → CounterStore ι → Prop where
  | fails {error : RedisError} : Expires store thread key seconds (.error error) store
  | answered : Expires store thread key seconds (.ok ()) (store.expire thread key seconds)
  | unanswered {error : RedisError} : Expires store thread key seconds (.error error) (store.expire thread key seconds)

/-- The other calls of the service do not touch the counters. -/
def step (thread : ι) : {β : Type} → CounterStore ι → AuthCall β → β → CounterStore ι → Prop
  | _, store, .redisIncr key, reply, after => Counts store thread key reply after
  | _, store, .redisExpire key seconds, reply, after => Expires store thread key seconds reply after
  | _, store, _, _, after => after = store

def serves (thread : ι) : Serves AuthCall (CounterStore ι) :=
  fun before op reply after => ∃ now, before.now ≤ now ∧ step thread { before with now } op reply after

end CounterStore
end BankingEs
