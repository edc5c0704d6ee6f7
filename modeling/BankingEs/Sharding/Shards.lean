import BankingEs.Async.Sequential
import BankingEs.Sharding.Locks

/-! `ShardManager`: the shards divide the hashes of the keys among them, and are assigned
to instances under locks. -/

namespace BankingEs
open Async

inductive ShardStatus where
  | available
  | assigned
  | rebalancing
  | failed
  deriving DecidableEq

structure ShardInfo where
  id : String
  rangeStart : UInt64
  rangeEnd : UInt64
  instanceId : Option String
  status : ShardStatus
  lastUpdated : DateTime
  deriving DecidableEq

def ShardInfo.covers (hash : UInt64) (shard : ShardInfo) : Bool := shard.rangeStart ≤ hash && hash ≤ shard.rangeEnd

/-- The other fields of the configuration are read by nothing. -/
structure ShardConfig where
  shardCount : UInt64 := 16
  rebalanceThreshold : Float := 0.2
  lockTimeout : Duration := Duration.fromSecs 30

def checkedAdd (a b : UInt64) : Option UInt64 := if a.toNat + b.toNat < UInt64.size then some (a + b) else none

def checkedSub (a b : UInt64) : Option UInt64 := if b ≤ a then some (a - b) else none

def checkedMul (a b : UInt64) : Option UInt64 := if a.toNat * b.toNat < UInt64.size then some (a * b) else none

def checkedDiv (a b : UInt64) : Option UInt64 := if b = 0 then none else some (a / b)

def u64Max : UInt64 := 18446744073709551615

/-- The map from shard ids to shards. Each shard lies under its own id. -/
abbrev ShardMap := List ShardInfo

namespace ShardMap

def insert (shards : ShardMap) (shard : ShardInfo) :
    ShardMap := shards.filter (fun other => other.id ≠ shard.id) ++ [shard]

/-- The update that `assign_shard` makes through `get_mut`. -/
def assign (now : DateTime) (shardId instanceId : String) (shards : ShardMap) : ShardMap :=
  shards.map fun shard =>
    if shard.id = shardId then { shard with instanceId := some instanceId, status := .assigned, lastUpdated := now }
    else shard

end ShardMap

namespace ShardManager

/-- The last shard ends with the last hash. -/
def rangeEnd (config : ShardConfig) (rangeSize : UInt64) (i : Nat) : Option UInt64 := do
  let last ← checkedSub config.shardCount 1
  if UInt64.ofNat i = last then some u64Max
  else
    let next ← checkedAdd (.ofNat i) 1
    let bound ← checkedMul next rangeSize
    checkedSub bound 1

def shardAt (config : ShardConfig) (rangeSize : UInt64) (now : DateTime) (i : Nat) : Option ShardInfo := do
  let rangeStart ← checkedMul (.ofNat i) rangeSize
  let rangeEnd ← rangeEnd config rangeSize i
  return { id := "shard-" ++ toString i, rangeStart, rangeEnd, instanceId := none, status := .available, lastUpdated := now }

/-- `clock` gives the time of each turn of the loop. -/
def initializeShards (config : ShardConfig) (clock : Nat → DateTime) (shards : ShardMap) : Option ShardMap := do
  let rangeSize ← checkedDiv u64Max config.shardCount
  (List.range config.shardCount.toNat).foldlM (fun shards i => do
    let shard ← shardAt config rangeSize (clock i) i
    return shards.insert shard) shards

end ShardManager

abbrev InstanceShards := List (String × List ShardInfo)

inductive MapCall : Type → Type where
  | assign (shardId instanceId : String) : MapCall Unit
  /-- The shards, in the order in which the map is iterated. -/
  | iter : MapCall (List ShardInfo)
  | len : MapCall Nat
  /-- The entries of the local map, in the order in which it is iterated. -/
  | iterInstances (instanceShards : InstanceShards) : MapCall InstanceShards

abbrev ShardCall (β : Type) := LockCall β ⊕ MapCall β

namespace ShardManager

def withLock {α : Type} (program : Program LockCall α) : Program ShardCall α := program.embed .inl

def assignShard (config : ShardConfig) (shardId instanceId : String) : Program ShardCall (Except String Unit) :=
  (withLock (LockManager.acquireLock ("shard:lock:" ++ shardId) config.lockTimeout)).andThen fun lock => do
    let _ ← Program.send (.inr (.assign shardId instanceId))
    withLock lock.releaseLock

/-- `hashKey` is the hash that the standard library gives. -/
def getShardForKey (hashKey : String → UInt64) (key : String) :
    Program ShardCall (Except String (Option ShardInfo)) := do
  let hash := hashKey key
  let shards ← Program.send (.inr .iter)
  return .ok (shards.find? fun shard => shard.covers hash)

def push (instanceId : String) (shard : ShardInfo) : InstanceShards → InstanceShards
  | [] => [(instanceId, [shard])]
  | (other, shards) :: rest =>
    if other = instanceId then (other, shards ++ [shard]) :: rest else (other, shards) :: push instanceId shard rest

def instanceShards (shards : List ShardInfo) : InstanceShards :=
  shards.foldl (fun entries shard => match shard.instanceId with
    | some instanceId => push instanceId shard entries
    | none => entries) []

def avgShards (count : Nat) (entries : InstanceShards) : Float := Float.ofNat count / Float.ofNat entries.length

def isUnbalanced (config : ShardConfig) (avg : Float) (entry : String × List ShardInfo) : Bool :=
  (Float.ofNat entry.2.length - avg).abs / avg > config.rebalanceThreshold

def isOverloaded (config : ShardConfig) (avg : Float) (entry : String × List ShardInfo) : Bool :=
  Float.ofNat entry.2.length > avg * (1.0 + config.rebalanceThreshold)

def isUnderloaded (config : ShardConfig) (avg : Float) (entry : String × List ShardInfo) : Bool :=
  !isOverloaded config avg entry && Float.ofNat entry.2.length < avg * (1.0 - config.rebalanceThreshold)

inductive Operation where
  | assign (shardId instanceId : String)
  | rebalance

end ShardManager

/-- What is decided about an entry, from the number of shards and the shards of each instance. The
code compares on `f64`; other comparisons are those of other numbers. -/
structure Comparisons where
  isUnbalanced : Nat → InstanceShards → String × List ShardInfo → Bool
  isOverloaded : Nat → InstanceShards → String × List ShardInfo → Bool
  isUnderloaded : Nat → InstanceShards → String × List ShardInfo → Bool

namespace Comparisons
open ShardManager

def float (config : ShardConfig) : Comparisons where
  isUnbalanced count entries := ShardManager.isUnbalanced config (avgShards count entries)
  isOverloaded count entries := ShardManager.isOverloaded config (avgShards count entries)
  isUnderloaded count entries := ShardManager.isUnderloaded config (avgShards count entries)

variable (comparisons : Comparisons) (config : ShardConfig)

def performRebalancing (entries : InstanceShards) : Program ShardCall (Except String Unit) := do
  let count ← Program.send (.inr .len)
  let order ← Program.send (.inr (.iterInstances entries))
  let overloaded := (order.filter (comparisons.isOverloaded count entries)).map Prod.fst
  let underloaded := (order.filter (comparisons.isUnderloaded count entries)).map Prod.fst
  Program.forEach (fun overloadedId =>
    Program.forEach (fun underloadedId =>
      match (entries.lookup overloadedId).bind List.head? with
      | some shard => assignShard config shard.id underloadedId
      | none => .pure (.ok ())) underloaded) overloaded

def rebalanceShards : Program ShardCall (Except String Unit) :=
  (withLock (LockManager.acquireLock "shard:rebalance:lock" config.lockTimeout)).andThen fun lock => do
    let shards ← Program.send (.inr .iter)
    let entries := instanceShards shards
    let count ← Program.send (.inr .len)
    let order ← Program.send (.inr (.iterInstances entries))
    if order.any (comparisons.isUnbalanced count entries) then
      (comparisons.performRebalancing config entries).andThen fun _ => withLock lock.releaseLock
    else withLock lock.releaseLock

def perform : Operation → Program ShardCall (Except String Unit)
  | .assign shardId instanceId => assignShard config shardId instanceId
  | .rebalance => comparisons.rebalanceShards config

end Comparisons

namespace ShardManager

def performRebalancing (config : ShardConfig) : InstanceShards → Program ShardCall (Except String Unit) :=
  (Comparisons.float config).performRebalancing config

def rebalanceShards (config : ShardConfig) : Program ShardCall (Except String Unit) :=
  (Comparisons.float config).rebalanceShards config

def perform (config : ShardConfig) : Operation → Program ShardCall (Except String Unit) :=
  (Comparisons.float config).perform config

end ShardManager

structure ShardWorld (ι : Type) where
  locks : LockStore ι := {}
  shards : ShardMap := []

namespace ShardWorld
variable {ι : Type} [DecidableEq ι]

def serves (thread : ι) : Serves ShardCall (ShardWorld ι)
  | _, world, .inl op, reply, after =>
    ∃ locks, LockStore.serves thread world.locks op reply locks ∧ after = { world with locks }
  | _, world, .inr (.assign shardId instanceId), _, after =>
    ∃ now, after = { world with shards := world.shards.assign now shardId instanceId }
  | _, world, .inr .iter, shards, after => shards.Perm world.shards ∧ after = world
  | _, world, .inr .len, count, after => count = world.shards.length ∧ after = world
  | _, world, .inr (.iterInstances entries), order, after => order.Perm entries ∧ after = world

end ShardWorld
end BankingEs
