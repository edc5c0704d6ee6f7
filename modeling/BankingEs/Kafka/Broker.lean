import BankingEs.Kafka.Routing
import BankingEs.Wire

/-! The topics of the broker and the one consumer of the event processor. The clones of a
`KafkaConsumer` share its stream, so the processor, its dead-letter queue and its recovery
strategies poll the same records. Offsets are never committed and `auto.offset.reset` is not
set: a partition that the consumer gets starts at its end. -/

namespace BankingEs
open Async Serde Relation

/-- The topic that the messages of a kind are sent to. The program sends no cache invalidations. -/
def KafkaConfig.topic (config : KafkaConfig) : MessageKind → Option String
  | .events => some (config.topicPrefix ++ "-events")
  | .cacheUpdates => some (config.topicPrefix ++ "-cache")
  | .deadLetters => some (config.topicPrefix ++ "-dlq")
  | .cacheInvalidations => none

def MessageKind.accountId : (kind : MessageKind) → kind.Message → Uuid
  | .events, message => StampedBatch.batch message |>.accountId
  | .cacheUpdates, message => Account.id message
  | .cacheInvalidations, message => CacheInvalidationMessage.accountId message
  | .deadLetters, message => DeadLetterMessage.accountId message

/-- The consumer behind all clones. Once it has subscribed, its group hands out partitions of the
topic to it. -/
structure StreamConsumer where
  topic : Option String := none
  grouped : Bool := false
  assigned : List Nat := []
  position : String → Nat → Nat := fun _ _ => 0

structure Delivery where
  kind : Option MessageKind
  topic : String
  partition : Nat
  offset : Nat

structure Broker where
  topics : KafkaTopics Document
  consumer : StreamConsumer := {}
  delivered : List Delivery := []

namespace Broker

def log (broker : Broker) (topic : String) (partition : Nat) : List (KafkaRecord Document) :=
  (broker.topics topic)[partition]?.getD []

def subscribe (broker : Broker) (topic : String) : Broker :=
  { broker with consumer := { broker.consumer with topic := some topic, grouped := true, assigned := [] } }

def subscribeToEvents (config : KafkaConfig) (broker : Broker) : Broker := broker.subscribe config.eventsTopic

def reads (broker : Broker) (topic : String) (assigned : List Nat) (start : Nat → Nat) : StreamConsumer :=
  { broker.consumer with
    topic := some topic
    assigned
    position := fun other partition =>
      if other = topic ∧ partition ∈ assigned then start partition else broker.consumer.position other partition }

/-- `assign` with partition 0, at the beginning of `get_last_processed_version`. The subscription
is kept, so that the next rebalance replaces the assignment. -/
def assign (broker : Broker) (topic : String) : Broker :=
  { broker with consumer := broker.reads topic [0] fun partition => (broker.log topic partition).length }

/-- The group hands out the partitions anew. One that is kept goes on where it was. -/
inductive Rebalances (broker : Broker) : Broker → Prop where
  | rebalances {topic : String} {assigned : List Nat} {start : Nat → Nat} (grouped : broker.consumer.grouped)
      (subscribed : broker.consumer.topic = some topic)
      (starts : ∀ partition ∈ assigned,
        partition ∈ broker.consumer.assigned ∧ start partition = broker.consumer.position topic partition ∨
          start partition = (broker.log topic partition).length) :
      Rebalances broker { broker with consumer := broker.reads topic assigned start }

inductive Yields (broker : Broker) (kind : Option MessageKind) : KafkaRecord Document → Broker → Prop where
  | yields {topic : String} {partition : Nat} {record : KafkaRecord Document}
      (subscribed : broker.consumer.topic = some topic) (assigned : partition ∈ broker.consumer.assigned)
      (next : (broker.log topic partition)[broker.consumer.position topic partition]? = some record) :
      Yields broker kind record { broker with
        consumer := { broker.consumer with
          position := Function.update broker.consumer.position topic
            (Function.update (broker.consumer.position topic) partition (broker.consumer.position topic partition + 1)) }
        delivered := broker.delivered ++ [⟨kind, topic, partition, broker.consumer.position topic partition⟩] }

/-- The poll functions. Each takes what the stream yields and reads it as its own kind. -/
inductive Polls (texts : Texts) (kind : MessageKind) (broker : Broker) :
    Except String (Option kind.Message) → Broker → Prop where
  | message {record : KafkaRecord Document} {payload : Document} {message : kind.Message} {after : Broker}
      (yields : Yields broker (some kind) record after) (carries : record.payload = some payload)
      (decoded : kind.decode texts payload = some message) : Polls texts kind broker (.ok (some message)) after
  | malformed {record : KafkaRecord Document} {payload : Document} {error : String} {after : Broker}
      (yields : Yields broker (some kind) record after) (carries : record.payload = some payload)
      (refused : kind.decode texts payload = none) : Polls texts kind broker (.error error) after
  | empty {record : KafkaRecord Document} {after : Broker} (yields : Yields broker (some kind) record after)
      (carries : record.payload = none) : Polls texts kind broker (.error "Empty message payload") after
  -- the stream has yielded nothing within 100 ms, or Kafka is switched off
  | nothing : Polls texts kind broker (.ok none) broker
  | fails {error : String} : Polls texts kind broker (.error error) broker

/-- The send functions. The numbers of a message are in the ranges of their types, and a message
that cannot be sent has no effect. -/
inductive Sends (texts : Texts) (config : KafkaConfig) {kind : MessageKind} (message : kind.Message) (broker : Broker) :
    Except String Unit → Broker → Prop where
  | sent {topic : String} {partitions : Partitions Document} (named : config.topic kind = some topic)
      (fits : (kind.record texts).Fits message)
      (produced : (broker.topics topic).produce (kind.accountId message).partition
        ⟨some (kind.accountId message).display, some (kind.encode texts message)⟩ = .ok partitions) :
      Sends texts config message broker (.ok ()) { broker with topics := Function.update broker.topics topic partitions }
  | disabled (off : config.enabled = false) : Sends texts config message broker (.ok ()) broker
  | fails {error : String} : Sends texts config message broker (.error error) broker

/-- What happens beside the loops: others send, an incremental replay takes the consumer for itself
and reads from it, and, where partitions are handed out anew, the group rebalances and the process
starts over. -/
inductive Environment (texts : Texts) (config : KafkaConfig) (regroups : Prop) (broker : Broker) : Broker → Prop where
  | sends {kind : MessageKind} {message : kind.Message} {after : Broker}
      (sent : Sends texts config message broker (.ok ()) after) : Environment texts config regroups broker after
  | rebalances {after : Broker} (allowed : regroups) (rebalances : Rebalances broker after) :
      Environment texts config regroups broker after
  | assigns : Environment texts config regroups broker (broker.assign config.eventsTopic)
  | yields {record : KafkaRecord Document} {after : Broker} (yields : Yields broker none record after) :
      Environment texts config regroups broker after
  | starts (allowed : regroups) : Environment texts config regroups broker (broker.subscribeToEvents config)

/-- What the stream gives. It has no end: at the end of the partitions it waits for the next message. -/
inductive Next (broker : Broker) : Option (Except String (KafkaRecord Document)) → Broker → Prop where
  | message {record : KafkaRecord Document} {after : Broker} (yields : Yields broker none record after) :
      Next broker (some (.ok record)) after
  | fails {error : String} : Next broker (some (.error error)) broker

def seen (texts : Texts) (key : String) (version : Int) (record : KafkaRecord Document) : Int :=
  if record.key = some key then
    match record.payload with
    | some payload => match MessageKind.events.decode texts payload with
      | some stamped => (StampedBatch.batch stamped).version
      | none => version
    | none => version
  else version

/-- The loop of `get_last_processed_version` over the stream, from the version found so far, and
what it returns. Others go on meanwhile. -/
inductive Searches (texts : Texts) (config : KafkaConfig) (regroups : Prop) (key : String) :
    Int → Broker → Except String Int → Broker → Prop where
  | others {version : Int} {broker ready after : Broker} {result : Except String Int}
      (moves : Environment texts config regroups broker ready)
      (rest : Searches texts config regroups key version ready result after) :
      Searches texts config regroups key version broker result after
  | message {version : Int} {broker ready after : Broker} {record : KafkaRecord Document} {result : Except String Int}
      (next : Next broker (some (.ok record)) ready)
      (rest : Searches texts config regroups key (seen texts key version record) ready result after) :
      Searches texts config regroups key version broker result after
  | fails {version : Int} {broker after : Broker} {error : String} (next : Next broker (some (.error error)) after) :
      Searches texts config regroups key version broker (.error error) after
  | ends {version : Int} {broker after : Broker} (next : Next broker none after) :
      Searches texts config regroups key version broker (.ok version) after

/-- What `get_last_processed_version` returns, if it does. -/
inductive GetsLastProcessedVersion (texts : Texts) (config : KafkaConfig) (regroups : Prop) (accountId : Uuid)
    (broker : Broker) : Except String Int → Broker → Prop where
  | disabled (off : config.enabled = false) : GetsLastProcessedVersion texts config regroups accountId broker (.ok 0) broker
  | refused {error : String} (on : config.enabled = true) :
      GetsLastProcessedVersion texts config regroups accountId broker (.error error) broker
  | searched {result : Except String Int} {after : Broker} (on : config.enabled = true)
      (searches : Searches texts config regroups accountId.display 0 (broker.assign config.eventsTopic) result after) :
      GetsLastProcessedVersion texts config regroups accountId broker result after

def step (texts : Texts) (config : KafkaConfig) : {β : Type} → Broker → LoopCall β → β → Broker → Prop
  | _, broker, .utcNow, _, after => after = broker
  | _, broker, .sleep _, _, after => after = broker
  | _, broker, .pollEvents, reply, after => ∃ polled, Polls texts .events broker polled after ∧
      reply = polled.map (Option.map StampedBatch.batch)
  | _, broker, .pollDlqMessage, reply, after => Polls texts .deadLetters broker reply after
  | _, broker, .processBatch _, _, after => after = broker
  | _, broker, .sendEventBatch batch, reply, after => ∃ timestamp,
      @Sends texts config .events ⟨batch, timestamp⟩ broker reply after
  | _, broker, .sendDlqMessage message, reply, after => @Sends texts config .deadLetters message broker reply after

def serves (texts : Texts) (config : KafkaConfig) (regroups : Prop) : Serves LoopCall Broker :=
  fun before op reply after => ∃ ready, ReflTransGen (Environment texts config regroups) before ready ∧
    step texts config ready op reply after

end Broker
end BankingEs
