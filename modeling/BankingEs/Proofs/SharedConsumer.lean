import BankingEs.Async.Interference
import BankingEs.Kafka.Broker
import BankingEs.Proofs.Wire

/-! Whole runs of the loops of the event processor over the broker. They share one consumer, which
is subscribed to the events: no dead letter is ever read, every record is yielded once, and a
replay takes all partitions but one away from the processor. -/

namespace BankingEs.Proofs.SharedConsumer
open Async Relation Serde BankingEs.Broker

variable {texts : Texts} {config : KafkaConfig} {regroups : Prop} {broker before after : Broker}
  {kind : MessageKind} {read : Option MessageKind} {record : KafkaRecord Document}

section Logs

/-- Nothing that was sent is ever changed or removed. -/
def Extends (before after : Broker) : Prop := ∀ topic partition, before.log topic partition <+:
    after.log topic partition

private theorem Extends.refl : Extends broker broker := fun _ _ => List.prefix_refl _

private theorem Extends.trans {third : Broker} (one : Extends before broker) (two : Extends broker third) :
    Extends before third :=
  fun topic partition => (one topic partition).trans (two topic partition)

private theorem log_produced {topic : String} {partitions : Partitions Document} {partition : Int}
    (produced : (broker.topics topic).produce partition record = .ok partitions) (other : String) (index : Nat) :
    Broker.log { broker with topics := Function.update broker.topics topic partitions } other index =
      if other = topic ∧ (index : Int) = partition then broker.log other index ++ [record] else broker.log other index := by
  unfold Partitions.produce at produced
  split at produced
  next inside =>
    cases produced
    by_cases same : other = topic
    · subst same
      simp only [Broker.log, Function.update_self, true_and]
      rw [List.getElem?_modify]
      by_cases here : (index : Int) = partition
      · have index_eq : partition.toNat = index := by omega
        have bound : index < (broker.topics other).length := by omega
        simp [here, index_eq, List.getElem?_eq_getElem bound]
      · have apart : partition.toNat ≠ index := by omega
        simp [here, apart]
    · simp [Broker.log, same]
  next => cases produced

end Logs

section Topics

private theorem eventsTopic_ne_dlq : config.eventsTopic ≠ config.topicPrefix ++ "-dlq" := by
  intro same
  have suffix := congrArg String.toList same
  simp [KafkaConfig.eventsTopic] at suffix

private theorem topic_events {topic : String} (named : config.topic kind = some topic)
    (events : topic = config.eventsTopic) :
    kind = .events := by
  subst events
  cases kind with
  | events => rfl
  | cacheUpdates =>
    have suffix := congrArg String.toList (Option.some.inj named)
    simp [KafkaConfig.eventsTopic] at suffix
  | deadLetters => exact absurd (Option.some.inj named).symm eventsTopic_ne_dlq
  | cacheInvalidations => cases named

end Topics

section Invariant

/-- The batch that a record of a partition of the events carries. -/
def Carries (texts : Texts) (partition : Nat) (record : KafkaRecord Document) (stamped : StampedBatch) : Prop :=
  record.payload = some (MessageKind.events.encode texts stamped) ∧ (StampedBatch.record texts).Fits stamped ∧
    stamped.batch.accountId.partition = partition

/-- The events topic holds batches, each in the partition of its account. -/
def Published (texts : Texts) (config : KafkaConfig) (broker : Broker) : Prop :=
  ∀ partition, ∀ record ∈ broker.log config.eventsTopic partition, ∃ stamped, Carries texts partition record stamped

def Ordered (delivered : List Delivery) : Prop :=
  delivered.Pairwise fun first second => first.topic = second.topic → first.partition = second.partition →
    first.offset < second.offset

/-- The consumer reads the events, and has gone past all that was yielded. -/
structure Sane (texts : Texts) (config : KafkaConfig) (broker : Broker) : Prop where
  subscribed : ∀ topic ∈ broker.consumer.topic, topic = config.eventsTopic
  bounded : ∀ topic partition, broker.consumer.position topic partition ≤ (broker.log topic partition).length
  passed : ∀ delivery ∈ broker.delivered, delivery.offset < broker.consumer.position delivery.topic delivery.partition
  ordered : Ordered broker.delivered
  source : ∀ delivery ∈ broker.delivered, delivery.topic = config.eventsTopic
  published : Published texts config broker

private theorem Sane.sends {message : kind.Message} {reply : Except String Unit} (sane : Sane texts config before)
    (sends : Sends texts config message before reply after) : Sane texts config after ∧ Extends before after := by
  cases sends with
  | @sent topic partitions named fits produced =>
    have logs := log_produced produced
    have grows : Extends before { before with topics := Function.update before.topics topic partitions } := by
      intro other index
      rw [logs]
      split
      · exact List.prefix_append _ _
      · exact List.prefix_refl _
    refine ⟨⟨sane.subscribed, ?_, sane.passed, sane.ordered, sane.source, ?_⟩, grows⟩
    · exact fun other index => (sane.bounded other index).trans (grows other index).length_le
    · intro index record member
      rw [logs] at member
      split at member
      next here =>
        rcases List.mem_append.mp member with old | new
        · exact sane.published index record old
        · obtain rfl := topic_events named here.1.symm
          rw [List.mem_singleton.mp new]
          exact ⟨message, rfl, fits, here.2.symm⟩
      next => exact sane.published index record member
  | disabled => exact ⟨sane, .refl⟩
  | fails => exact ⟨sane, .refl⟩

private theorem Sane.reads {assigned : List Nat} {start : Nat → Nat} (sane : Sane texts config broker)
    (starts : ∀ partition ∈ assigned, start partition = broker.consumer.position config.eventsTopic partition ∨
      start partition = (broker.log config.eventsTopic partition).length) :
    Sane texts config { broker with consumer := broker.reads config.eventsTopic assigned start } := by
  have bounds (partition : Nat) (member : partition ∈ assigned) :
      broker.consumer.position config.eventsTopic partition ≤ start partition ∧
        start partition ≤ (broker.log config.eventsTopic partition).length := by
    have bounded := sane.bounded config.eventsTopic partition
    rcases starts partition member with same | same <;> omega
  refine ⟨fun topic named => (Option.some.inj named).symm, ?_, ?_, sane.ordered, sane.source, sane.published⟩
  · intro topic partition
    simp only [Broker.reads]
    split
    next here => exact here.1 ▸ (bounds partition here.2).2
    next => exact sane.bounded topic partition
  · intro delivery member
    have passed := sane.passed delivery member
    simp only [Broker.reads]
    split
    next here =>
      rw [here.1] at passed
      exact lt_of_lt_of_le passed (bounds _ here.2).1
    next => exact passed

structure Yielded (config : KafkaConfig) (read : Option MessageKind) (record : KafkaRecord Document) (partition : Nat)
    (before after : Broker) : Prop where
  assigned : partition ∈ before.consumer.assigned
  next : (before.log config.eventsTopic partition)[before.consumer.position config.eventsTopic partition]? = some record
  delivered : after.delivered = before.delivered ++
    [⟨read, config.eventsTopic, partition, before.consumer.position config.eventsTopic partition⟩]
  topics : after.topics = before.topics
  kept : after.consumer.assigned = before.consumer.assigned

private theorem Yielded.member {partition : Nat} (yielded : Yielded config read record partition before after) :
    record ∈ before.log config.eventsTopic partition := List.mem_of_getElem? yielded.next

private theorem Sane.yields (sane : Sane texts config before) (yields : Yields before read record after) :
    Sane texts config after ∧ ∃ partition, Yielded config read record partition before after := by
  obtain @⟨topic, partition, record, subscribed, assigned, next⟩ := yields
  obtain rfl := sane.subscribed topic subscribed
  have position (other : String) (index : Nat) :
      Function.update before.consumer.position config.eventsTopic
        (Function.update (before.consumer.position config.eventsTopic) partition
          (before.consumer.position config.eventsTopic partition + 1)) other index =
        if other = config.eventsTopic ∧ index = partition then before.consumer.position other index + 1
        else before.consumer.position other index := by
    by_cases topic : other = config.eventsTopic
    · subst topic
      by_cases here : index = partition
      · subst here
        simp
      · simp [here]
    · simp [topic]
  have inside := (List.getElem?_eq_some_iff.mp next).1
  refine ⟨⟨sane.subscribed, ?_, ?_, ?_, ?_, sane.published⟩, partition, assigned, next, rfl, rfl, rfl⟩
  · intro other index
    dsimp only
    rw [position]
    split
    next here =>
      obtain ⟨rfl, rfl⟩ := here
      exact inside
    next => exact sane.bounded other index
  · intro delivery member
    dsimp only
    rw [position]
    rcases List.mem_append.mp member with old | new
    · have passed := sane.passed delivery old
      split <;> omega
    · rw [List.mem_singleton.mp new, if_pos ⟨rfl, rfl⟩]
      exact Nat.lt_succ_self _
  · refine List.pairwise_append.mpr ⟨sane.ordered, List.pairwise_singleton _ _, ?_⟩
    intro delivery member latest new topic here
    rw [List.mem_singleton.mp new] at topic here ⊢
    have passed := sane.passed delivery member
    rwa [topic, here] at passed
  · intro delivery member
    rcases List.mem_append.mp member with old | new
    · exact sane.source delivery old
    · rw [List.mem_singleton.mp new]

private theorem polls_cases {reply : Except String (Option kind.Message)}
    (polls : Polls texts kind before reply after) :
    (after = before ∧ ∀ message, reply ≠ .ok (some message)) ∨ ∃ record, Yields before (some kind) record after ∧
      ∀ message, reply = .ok (some message) → ∃ payload, record.payload = some payload ∧
        kind.decode texts payload = some message := by
  cases polls with
  | message yields carries decoded =>
    refine .inr ⟨_, yields, ?_⟩
    intro message same
    cases same
    exact ⟨_, carries, decoded⟩
  | malformed yields => exact .inr ⟨_, yields, fun _ same => by cases same⟩
  | empty yields => exact .inr ⟨_, yields, fun _ same => by cases same⟩
  | nothing => exact .inl ⟨rfl, fun _ same => by cases same⟩
  | fails => exact .inl ⟨rfl, fun _ same => by cases same⟩

private theorem Extends.of_topics (same : after.topics = before.topics) : Extends before after := by
  intro topic partition
  have logs : after.log topic partition = before.log topic partition := by rw [Broker.log, Broker.log, same]
  exact logs ▸ List.prefix_refl _

private theorem Sane.polls {reply : Except String (Option kind.Message)} (sane : Sane texts config before)
    (polls : Polls texts kind before reply after) : Sane texts config after ∧ Extends before after := by
  rcases polls_cases polls with ⟨rfl, _⟩ | ⟨record, yields, _⟩
  · exact ⟨sane, .refl⟩
  · obtain ⟨sane, _, yielded⟩ := sane.yields yields
    exact ⟨sane, .of_topics yielded.topics⟩

private theorem Sane.environment (sane : Sane texts config before)
    (moves : Broker.Environment texts config regroups before after) :
    Sane texts config after ∧ Extends before after := by
  cases moves with
  | sends sent => exact sane.sends sent
  | rebalances _ rebalances =>
    obtain ⟨_, subscribed, starts⟩ := rebalances
    obtain rfl := sane.subscribed _ subscribed
    exact ⟨sane.reads fun partition member => (starts partition member).imp_left And.right, .refl⟩
  | assigns => exact ⟨sane.reads fun _ _ => .inr rfl, .refl⟩
  | yields yields =>
    obtain ⟨sane, _, yielded⟩ := sane.yields yields
    exact ⟨sane, .of_topics yielded.topics⟩
  | starts => exact ⟨⟨fun _ named => (Option.some.inj named).symm, sane.bounded, sane.passed, sane.ordered, sane.source,
      sane.published⟩, .refl⟩

private theorem Sane.environments (sane : Sane texts config before)
    (moves : ReflTransGen (Broker.Environment texts config regroups) before after) :
    Sane texts config after ∧ Extends before after := by
  induction moves with
  | refl => exact ⟨sane, .refl⟩
  | tail _ step ih =>
    obtain ⟨sane, grows⟩ := ih
    obtain ⟨sane, more⟩ := sane.environment step
    exact ⟨sane, grows.trans more⟩

private theorem Sane.step {β : Type} {op : LoopCall β} {reply : β} (sane : Sane texts config before)
    (step : Broker.step texts config before op reply after) : Sane texts config after ∧ Extends before after := by
  cases op with
  | utcNow =>
    obtain rfl := step
    exact ⟨sane, .refl⟩
  | sleep =>
    obtain rfl := step
    exact ⟨sane, .refl⟩
  | pollEvents =>
    obtain ⟨_, polls, _⟩ := step
    exact sane.polls polls
  | pollDlqMessage => exact sane.polls step
  | processBatch =>
    obtain rfl := step
    exact ⟨sane, .refl⟩
  | sendEventBatch =>
    obtain ⟨_, sends⟩ := step
    exact sane.sends sends
  | sendDlqMessage => exact sane.sends step

end Invariant

section Runs
variable {ι : Type} [DecidableEq ι] {queue : DeadLetterQueue} {rounds : ι → Round} {first last : Broker}
  {history : List (Served ι LoopCall Broker)} {threads : ι → Program LoopCall (Except String Unit)}

/-- The replies that the loops can get: no poll returns a dead letter. -/
def Possible : {β : Type} → LoopCall β → β → Prop
  | _, .pollDlqMessage, .ok (some _) => False
  | _, _, _ => True

def Quiet : {β : Type} → LoopCall β → Prop
  | _, .sendEventBatch _ => False
  | _, _ => True

def Silent {α : Type} : Program LoopCall α → Prop
  | .pure _ => True
  | .request op resume => Quiet op ∧ ∀ reply, Possible op reply → Silent (resume reply)

private theorem sendToDlq_silent (batch : EventBatch) (reason : String) :
    Silent (DeadLetterQueue.sendToDlq batch reason) :=
  ⟨trivial, fun _ _ => ⟨trivial, fun _ _ => trivial⟩⟩

private theorem polling_silent {next : Option DeadLetterMessage → Program LoopCall (Except String Unit)}
    (nothing : next none = .pure (.ok ())) : Silent ((Program.send .pollDlqMessage).andThen next) := by
  refine ⟨trivial, ?_⟩
  intro reply possible
  rcases reply with error | none | message
  · trivial
  · change Silent (next none)
    rw [nothing]
    trivial
  · exact possible.elim

private theorem round_silent (round : Round) : Silent (round.program queue) := by
  cases round with
  | startProcessing =>
    refine ⟨trivial, ?_⟩
    intro reply _
    rcases reply with error | none | batch
    · trivial
    · trivial
    · refine ⟨trivial, ?_⟩
      intro outcome _
      rcases outcome with error | done
      · exact sendToDlq_silent batch _
      · trivial
  | processDlq => exact polling_silent rfl
  | processDlqOnce => exact polling_silent rfl

private theorem Sane.possible {β : Type} {op : LoopCall β} {reply : β} (sane : Sane texts config before)
    (step : Broker.step texts config before op reply after) : Possible op reply := by
  cases op with
  | pollDlqMessage =>
    rcases reply with error | none | message
    · trivial
    · trivial
    · rcases polls_cases step with ⟨_, nothing⟩ | ⟨record, yields, decodes⟩
      · exact (nothing message rfl).elim
      · obtain ⟨_, _, yielded⟩ := sane.yields yields
        obtain ⟨payload, carries, decoded⟩ := decodes message rfl
        obtain ⟨stamped, written, _, _⟩ := sane.published _ record yielded.member
        obtain rfl := Option.some.inj (carries.symm.trans written)
        rw [@Wire.decode_other texts .deadLetters .events (by decide) stamped] at decoded
        cases decoded
  | _ => trivial

private theorem Sane.started (published : Published texts config broker) (fresh : broker.delivered = [])
    (positions : broker.consumer.position = fun _ _ => 0) : Sane texts config (broker.subscribeToEvents config) := by
  refine ⟨fun _ named => (Option.some.inj named).symm, ?_, ?_, ?_, ?_, published⟩
  · intro topic partition
    simp [subscribeToEvents, subscribe, positions]
  · intro delivery member
    rw [show (broker.subscribeToEvents config).delivered = [] from fresh] at member
    cases member
  · rw [Ordered, show (broker.subscribeToEvents config).delivered = [] from fresh]
    exact .nil
  · intro delivery member
    rw [show (broker.subscribeToEvents config).delivered = [] from fresh] at member
    cases member

private theorem run_silent (sane : Sane texts config first)
    (run : Interleaves (fun _ => Broker.serves texts config regroups) (fun thread => (rounds thread).program queue) first
      history threads last) :
    (Sane texts config last ∧ Extends first last) ∧ (∀ thread, Silent (threads thread)) ∧
      ∀ entry ∈ history, Possible entry.op entry.reply ∧ Quiet entry.op := by
  refine run.answered (fun world => Sane texts config world ∧ Extends first world) (fun _ => Silent)
    (fun entry => Possible entry.op entry.reply ∧ Quiet entry.op) ?_ ⟨sane, .refl⟩ fun thread => round_silent _
  intro thread β op resume before reply after holds silent served
  obtain ⟨ready, moves, step⟩ := served
  obtain ⟨sane, grows⟩ := holds.1.environments moves
  have possible := sane.possible step
  obtain ⟨sane, more⟩ := sane.step step
  exact ⟨⟨sane, (holds.2.trans grows).trans more⟩, silent.2 reply possible, possible, silent.1⟩

/-- Whatever the loops of the processor and of its dead-letter queue do, in any interleaving, with
any failures, rebalances, replays and regroups: no poll of the queue ever returns a dead letter,
no batch is ever published again by it, and every dead letter stays where it was sent, since no
record of its topic is ever yielded. -/
theorem dead_letters_stay_unread (published : Published texts config broker) (fresh : broker.delivered = [])
    (positions : broker.consumer.position = fun _ _ => 0)
    (run : Interleaves (fun _ => Broker.serves texts config regroups) (fun thread => (rounds thread).program queue)
      (broker.subscribeToEvents config) history threads last) :
    (∀ thread message world, ⟨thread, .pollDlqMessage, .ok (some message), world⟩ ∉ history) ∧
    (∀ thread batch reply world, ⟨thread, .sendEventBatch batch, reply, world⟩ ∉ history) ∧
    ∀ partition, broker.log (config.topicPrefix ++ "-dlq") partition <+: last.log (config.topicPrefix ++ "-dlq") partition ∧
      ∀ delivery ∈ last.delivered, delivery.topic ≠ config.topicPrefix ++ "-dlq" := by
  obtain ⟨⟨sane, grows⟩, _, calls⟩ := run_silent (.started published fresh positions) run
  refine ⟨?_, ?_, ?_⟩
  · intro thread message world member
    exact (calls _ member).1
  · intro thread batch reply world member
    exact (calls _ member).2
  · intro partition
    refine ⟨grows _ partition, ?_⟩
    intro delivery member same
    exact eventsTopic_ne_dlq ((sane.source delivery member).symm.trans same)

/-- Whether a call has published the batch again. -/
def republishes (batch : EventBatch) : {β : Type} → LoopCall β → β → Bool
  | _, .sendEventBatch sent, .ok () => sent = batch
  | _, _, _ => false

private theorem Quiet.republishes {β : Type} {op : LoopCall β} (quiet : Quiet op) (batch : EventBatch) (reply : β) :
    republishes batch op reply = false := by
  cases op with
  | sendEventBatch => exact quiet.elim
  | _ => rfl

/-- How often a batch was published again. -/
def republications (batch : EventBatch) (history : List (Served ι LoopCall Broker)) : Nat :=
  history.countP fun entry => republishes batch entry.op entry.reply

/-- However often a batch fails and whatever else fails, it is published again at most
`max_retries` times: the messages that the processor sends to the dead-letter topic do not come
back. -/
theorem republications_le_maxRetries (published : Published texts config broker) (fresh : broker.delivered = [])
    (positions : broker.consumer.position = fun _ _ => 0)
    (run : Interleaves (fun _ => Broker.serves texts config regroups) (fun thread => (rounds thread).program queue)
      (broker.subscribeToEvents config) history threads last) (batch : EventBatch) :
    republications batch history ≤ queue.maxRetries := by
  obtain ⟨_, _, calls⟩ := run_silent (.started published fresh positions) run
  have never : republications batch history = 0 := by
    rw [republications, List.countP_eq_zero]
    intro entry member
    rw [(calls entry member).2.republishes]
    exact Bool.false_ne_true
  omega

def polledBatch : {β : Type} → LoopCall β → β → Option EventBatch
  | _, .pollEvents, .ok (some batch) => some batch
  | _, _, _ => none

def batchAt (texts : Texts) (broker : Broker) (delivery : Delivery) : Option EventBatch :=
  if delivery.kind = some .events then do
    let record ← (broker.log delivery.topic delivery.partition)[delivery.offset]?
    let stamped ← MessageKind.events.decode texts (← record.payload)
    return StampedBatch.batch stamped
  else none

def batches (texts : Texts) (broker : Broker) : List EventBatch := broker.delivered.filterMap (batchAt texts broker)

private theorem Sane.batchAt_extends (sane : Sane texts config before) (grows : Extends before after)
    {delivery : Delivery}
    (member : delivery ∈ before.delivered) : batchAt texts after delivery = batchAt texts before delivery := by
  have inside := (sane.passed delivery member).trans_le (sane.bounded delivery.topic delivery.partition)
  obtain ⟨rest, longer⟩ := grows delivery.topic delivery.partition
  rw [batchAt, batchAt, ← longer, List.getElem?_append_left inside]

private theorem Sane.batches_same (sane : Sane texts config before) (grows : Extends before after)
    (same : after.delivered = before.delivered) : batches texts after = batches texts before := by
  rw [batches, batches, same]
  exact List.filterMap_congr fun delivery member => sane.batchAt_extends grows member

private theorem Sane.batches_yielded (sane : Sane texts config before) {partition : Nat}
    (yielded : Yielded config read record partition before after) :
    batches texts after = batches texts before ++ (if read = some .events then do
      let stamped ← MessageKind.events.decode texts (← record.payload)
      return StampedBatch.batch stamped else none).toList := by
  have grows : Extends before after := .of_topics yielded.topics
  have old : before.delivered.filterMap (batchAt texts after) = batches texts before :=
    List.filterMap_congr fun delivery member => sane.batchAt_extends grows member
  rw [batches, yielded.delivered, List.filterMap_append, old]
  congr 1
  have found : (after.log config.eventsTopic partition)[before.consumer.position config.eventsTopic partition]? =
      some record := by
    rw [Broker.log, yielded.topics]
    exact yielded.next
  simp only [List.filterMap_cons, List.filterMap_nil, batchAt, found, Option.bind_some, Option.bind_eq_bind]
  split
  next nothing => rw [nothing, Option.toList_none]
  next batch some => rw [some, Option.toList_some]

private theorem Sane.decodes (sane : Sane texts config before) {partition : Nat}
    (member : record ∈ before.log config.eventsTopic partition) :
    ∃ payload stamped, record.payload = some payload ∧ MessageKind.events.decode texts payload = some stamped ∧
      Carries texts partition record stamped := by
  obtain ⟨stamped, written, fits, here⟩ := sane.published partition record member
  exact ⟨_, stamped, written, (StampedBatch.record texts).format.decodes stamped fits, written, fits, here⟩

private theorem Sane.batches_polled {reply : Except String (Option (MessageKind.Message .events))}
    (sane : Sane texts config before) (polls : Polls texts .events before reply after) :
    batches texts after = batches texts before ++
      (polledBatch .pollEvents (reply.map (Option.map StampedBatch.batch))).toList := by
  cases polls with
  | message yields carries decoded =>
    obtain ⟨_, _, yielded⟩ := sane.yields yields
    rw [sane.batches_yielded yielded, if_pos rfl, carries]
    simp only [Option.bind_eq_bind, Option.bind_some, decoded]
    rfl
  | malformed yields carries refused =>
    obtain ⟨_, _, yielded⟩ := sane.yields yields
    obtain ⟨payload, stamped, written, decoded, _⟩ := sane.decodes yielded.member
    obtain rfl := Option.some.inj (carries.symm.trans written)
    rw [refused] at decoded
    cases decoded
  | empty yields carries =>
    obtain ⟨_, _, yielded⟩ := sane.yields yields
    obtain ⟨payload, stamped, written, _⟩ := sane.decodes yielded.member
    rw [carries] at written
    cases written
  | nothing => exact (List.append_nil _).symm
  | fails => exact (List.append_nil _).symm

private theorem Sane.batches_environment (sane : Sane texts config before)
    (moves : Broker.Environment texts config regroups before after) : batches texts after = batches texts before := by
  have grows := (sane.environment moves).2
  cases moves with
  | sends sent =>
    apply sane.batches_same grows
    cases sent <;> rfl
  | rebalances _ rebalances =>
    obtain ⟨_, _, _⟩ := rebalances
    exact sane.batches_same grows rfl
  | assigns => exact sane.batches_same grows rfl
  | yields yields =>
    obtain ⟨_, _, yielded⟩ := sane.yields yields
    rw [sane.batches_yielded yielded, if_neg (by simp)]
    exact List.append_nil _
  | starts => exact sane.batches_same grows rfl

private theorem Sane.batches_environments (sane : Sane texts config before)
    (moves : ReflTransGen (Broker.Environment texts config regroups) before after) :
    batches texts after = batches texts before := by
  induction moves with
  | refl => rfl
  | tail earlier step ih => rw [(sane.environments earlier).1.batches_environment step, ih]

private theorem Sane.batches_step {β : Type} {op : LoopCall β} {reply : β} (sane : Sane texts config before)
    (step : Broker.step texts config before op reply after) :
    batches texts after = batches texts before ++ (polledBatch op reply).toList := by
  have grows := (sane.step step).2
  have still (same : after.delivered = before.delivered) (other : polledBatch op reply = none) :
      batches texts after = batches texts before ++ (polledBatch op reply).toList := by
    rw [sane.batches_same grows same, other, Option.toList_none, List.append_nil]
  cases op with
  | utcNow => exact still (by rw [show after = before from step]) rfl
  | sleep => exact still (by rw [show after = before from step]) rfl
  | pollEvents =>
    obtain ⟨polled, polls, rfl⟩ := step
    exact sane.batches_polled polls
  | pollDlqMessage =>
    rcases polls_cases step with ⟨rfl, _⟩ | ⟨record, yields, _⟩
    · exact still rfl rfl
    · obtain ⟨_, _, yielded⟩ := sane.yields yields
      rw [sane.batches_yielded yielded, if_neg (by simp)]
      rfl
  | processBatch => exact still (by rw [show after = before from step]) rfl
  | sendEventBatch =>
    obtain ⟨_, sends⟩ := step
    exact still (by cases sends <;> rfl) rfl
  | sendDlqMessage => exact still (by cases step <;> rfl) rfl

private theorem run_batches (sane : Sane texts config first)
    (run : Interleaves (fun _ => Broker.serves texts config regroups) (fun thread => (rounds thread).program queue) first
      history threads last) :
    Sane texts config last ∧ batches texts last =
      batches texts first ++ history.filterMap fun entry => polledBatch entry.op entry.reply := by
  induction run with
  | start => exact ⟨sane, (List.append_nil _).symm⟩
  | serve thread reply run pending served ih =>
    obtain ⟨holds, same⟩ := ih
    obtain ⟨ready, moves, step⟩ := served
    have steady := (holds.environments moves).1
    refine ⟨(steady.step step).1, ?_⟩
    rw [steady.batches_step step, holds.batches_environments moves, same, List.filterMap_append, List.append_assoc]
    rfl

/-- The batches that are handed to the processor are those at the places of the records that were
yielded to it, in the same order. Every place is yielded to at most one poll, of whichever kind,
and the places of a partition come in their order, over all rebalances, replays and regroups: no
batch is processed twice, and one that another poll has taken is never processed. -/
theorem batches_processed_once (published : Published texts config broker) (fresh : broker.delivered = [])
    (positions : broker.consumer.position = fun _ _ => 0)
    (run : Interleaves (fun _ => Broker.serves texts config regroups) (fun thread => (rounds thread).program queue)
      (broker.subscribeToEvents config) history threads last) :
    Ordered last.delivered ∧ (history.filterMap fun entry => polledBatch entry.op entry.reply) = batches texts last := by
  obtain ⟨sane, same⟩ := run_batches (.started published fresh positions) run
  refine ⟨sane.ordered, ?_⟩
  rw [same, batches, show (broker.subscribeToEvents config).delivered = [] from fresh]
  rfl

def Narrow (broker : Broker) : Prop := broker.consumer.assigned = [0]

private theorem Yielded.narrow {partition : Nat} (yielded : Yielded config read record partition before after)
    (narrow : Narrow before) : Narrow after ∧ partition = 0 := by
  refine ⟨yielded.kept.trans narrow, ?_⟩
  have assigned := yielded.assigned
  rwa [narrow, List.mem_singleton] at assigned

private theorem Narrow.environment (narrow : Narrow before) (sane : Sane texts config before)
    (moves : Broker.Environment texts config False before after) : Narrow after := by
  cases moves with
  | sends sent => cases sent <;> exact narrow
  | rebalances allowed => exact allowed.elim
  | assigns => rfl
  | yields yields =>
    obtain ⟨_, _, yielded⟩ := sane.yields yields
    exact (yielded.narrow narrow).1
  | starts allowed => exact allowed.elim

private theorem Narrow.environments (narrow : Narrow before) (sane : Sane texts config before)
    (moves : ReflTransGen (Broker.Environment texts config False) before after) : Narrow after := by
  induction moves with
  | refl => exact narrow
  | tail earlier step ih => exact ih.environment (sane.environments earlier).1 step

private theorem Narrow.step {β : Type} {op : LoopCall β} {reply : β} (narrow : Narrow before)
    (sane : Sane texts config before)
    (step : Broker.step texts config before op reply after) :
    Narrow after ∧ ∀ batch ∈ polledBatch op reply, batch.accountId.partition = 0 := by
  have others (same : polledBatch op reply = none) : ∀ batch ∈ polledBatch op reply, batch.accountId.partition = 0 := by
    intro batch member
    rw [same] at member
    cases member
  cases op with
  | utcNow => exact ⟨by rwa [show after = before from step], others rfl⟩
  | sleep => exact ⟨by rwa [show after = before from step], others rfl⟩
  | pollEvents =>
    obtain ⟨polled, polls, rfl⟩ := step
    rcases polls_cases polls with ⟨rfl, nothing⟩ | ⟨record, yields, decodes⟩
    · refine ⟨narrow, others ?_⟩
      rcases polled with error | none | message
      · rfl
      · rfl
      · exact (nothing message rfl).elim
    · obtain ⟨_, partition, yielded⟩ := sane.yields yields
      obtain ⟨narrow, rfl⟩ := yielded.narrow narrow
      refine ⟨narrow, ?_⟩
      intro batch handed
      rcases polled with error | none | message
      · cases handed
      · cases handed
      · cases handed
        obtain ⟨payload, carries, decoded⟩ := decodes message rfl
        obtain ⟨_, stamped, written, read, _, _, here⟩ := sane.decodes yielded.member
        obtain rfl := Option.some.inj (carries.symm.trans written)
        obtain rfl := Option.some.inj (decoded.symm.trans read)
        exact here
  | pollDlqMessage =>
    rcases polls_cases step with ⟨rfl, _⟩ | ⟨record, yields, _⟩
    · exact ⟨narrow, others rfl⟩
    · obtain ⟨_, _, yielded⟩ := sane.yields yields
      exact ⟨(yielded.narrow narrow).1, others rfl⟩
  | processBatch => exact ⟨by rwa [show after = before from step], others rfl⟩
  | sendEventBatch =>
    obtain ⟨_, sends⟩ := step
    exact ⟨by cases sends <;> exact narrow, others rfl⟩
  | sendDlqMessage => exact ⟨by cases step <;> exact narrow, others rfl⟩

end Runs

section Sample
open Wire

def silentBroker : Broker := { topics := fun _ => [[]] }

private theorem silent_published : Published sampleTexts {} silentBroker := by
  intro partition record member
  have empty : silentBroker.log ({} : KafkaConfig).eventsTopic partition = [] := by
    cases partition <;> rfl
  rw [empty] at member
  cases member

def sampleBatch : StampedBatch := ⟨⟨⟨0⟩, [], 1⟩, 0⟩

noncomputable def sampleRecord : KafkaRecord Document :=
  ⟨some (Uuid.display ⟨0⟩), some (MessageKind.events.encode sampleTexts sampleBatch)⟩

private theorem sample_fits : (StampedBatch.record sampleTexts).Fits sampleBatch := by
  simp [StampedBatch.record, sampleBatch, Format.i64, Format.integer, Format.list]

private theorem batch_arrives : ∃ ready, ReflTransGen (Broker.Environment sampleTexts {} True)
    (silentBroker.subscribeToEvents {}) ready ∧
      ∀ read, ∃ after, Yields ready read sampleRecord after ∧ after.delivered.length = 1 ∧
        after.topics "banking-es-dlq" = [[]] := by
  have given : Broker.Environment sampleTexts {} True (silentBroker.subscribeToEvents {}) _ :=
    .rebalances trivial (@Rebalances.rebalances _ _ [0] (fun _ => 0) rfl rfl (fun partition member => .inr (by
      rw [List.mem_singleton.mp member]
      rfl)))
  have sent := (ReflTransGen.single given).tail
    (.sends (@Sends.sent sampleTexts {} .events sampleBatch _ _ _ rfl sample_fits rfl))
  refine ⟨_, sent, fun read => ⟨_, .yields rfl (List.mem_singleton.mpr rfl) rfl, rfl, ?_⟩⟩
  rfl

theorem batch_taken_by_letter_poll : ∃ history threads last,
    Interleaves (fun _ : Unit => Broker.serves sampleTexts {} True) (fun _ => Round.processDlqOnce.program {})
      (silentBroker.subscribeToEvents {}) history threads last ∧ last.delivered.length = 1 ∧
    ∀ thread message world, ⟨thread, .pollDlqMessage, .ok (some message), world⟩ ∉ history := by
  obtain ⟨ready, arrives, yields⟩ := batch_arrives
  obtain ⟨last, yields, one, _⟩ := yields (some .deadLetters)
  have polled : Polls sampleTexts .deadLetters ready (.error "") last :=
    .malformed yields rfl (@decode_other sampleTexts .deadLetters .events (by decide) sampleBatch)
  have run : Interleaves (fun _ : Unit => Broker.serves sampleTexts {} True) (fun _ => Round.processDlqOnce.program {})
      (silentBroker.subscribeToEvents {}) _ _ last := .serve () _ .start rfl ⟨ready, arrives, polled⟩
  exact ⟨_, _, last, run, one, (dead_letters_stay_unread silent_published rfl rfl run).1⟩

def sampleLetter : DeadLetterMessage := ⟨⟨0⟩, [], 1, 5, "Batch processing failed: " ++ "refused", 0, none⟩

noncomputable def letterRecord : KafkaRecord Document :=
  ⟨some (Uuid.display ⟨0⟩), some (MessageKind.deadLetters.encode sampleTexts sampleLetter)⟩

private theorem letter_fits : (DeadLetterMessage.record sampleTexts).Fits sampleLetter := by
  simp [DeadLetterMessage.record, sampleLetter, Format.i64, Format.u32, Format.natural, Format.integer, Format.list, Format.option]

theorem failed_batch_not_republished : ∃ history threads last,
    Interleaves (fun _ : Bool => Broker.serves sampleTexts {} True)
      (fun thread => (cond thread Round.startProcessing Round.processDlq).program {})
      (silentBroker.subscribeToEvents {}) history threads last ∧
    (last.log "banking-es-dlq" 0).length = 1 ∧ history.length = 5 ∧
    republications sampleBatch.batch history ≤ ({} : DeadLetterQueue).maxRetries := by
  obtain ⟨ready, arrives, yields⟩ := batch_arrives
  obtain ⟨handed, yields, _, empty⟩ := yields (some .events)
  have polled : Polls sampleTexts .events ready (.ok (some sampleBatch)) handed :=
    .message yields rfl ((StampedBatch.record sampleTexts).format.decodes sampleBatch sample_fits)
  have produced : (handed.topics "banking-es-dlq").produce (Uuid.partition ⟨0⟩) letterRecord =
      .ok [[letterRecord]] := by
    rw [empty]
    rfl
  have taken : Interleaves (fun _ : Bool => Broker.serves sampleTexts {} True)
      (fun thread => (cond thread Round.startProcessing Round.processDlq).program {})
      (silentBroker.subscribeToEvents {}) _ _ handed :=
    .serve true (.ok (some sampleBatch.batch)) .start rfl ⟨ready, arrives, .ok (some sampleBatch), polled, rfl⟩
  have refused := taken.serve true (.error "refused") rfl ⟨handed, .refl, rfl⟩
  have stamped := refused.serve true (5 : DateTime) rfl ⟨handed, .refl, rfl⟩
  have letter : @Sends sampleTexts {} .deadLetters sampleLetter handed (.ok ()) _ := .sent rfl letter_fits produced
  have sent := stamped.serve true (.ok () : Except String Unit) rfl ⟨handed, .refl, letter⟩
  have run := sent.serve false (.ok none : Except String (Option DeadLetterMessage)) rfl ⟨_, .refl, .nothing⟩
  refine ⟨_, _, _, run, ?_, rfl, republications_le_maxRetries silent_published rfl rfl run sampleBatch.batch⟩
  simp [Broker.log]

theorem batch_handed_over_once : ∃ history threads last,
    Interleaves (fun _ : Unit => Broker.serves sampleTexts {} True) (fun _ => Round.startProcessing.program {})
      (silentBroker.subscribeToEvents {}) history threads last ∧
    (history.filterMap fun entry => polledBatch entry.op entry.reply) = [sampleBatch.batch] ∧
    batches sampleTexts last = [sampleBatch.batch] := by
  obtain ⟨ready, arrives, yields⟩ := batch_arrives
  obtain ⟨last, yields, _⟩ := yields (some .events)
  have polled : Polls sampleTexts .events ready (.ok (some sampleBatch)) last :=
    .message yields rfl ((StampedBatch.record sampleTexts).format.decodes sampleBatch sample_fits)
  have run : Interleaves (fun _ : Unit => Broker.serves sampleTexts {} True) (fun _ => Round.startProcessing.program {})
      (silentBroker.subscribeToEvents {}) _ _ last :=
    .serve () (.ok (some sampleBatch.batch)) .start rfl ⟨ready, arrives, .ok (some sampleBatch), polled, rfl⟩
  exact ⟨_, _, last, run, rfl, (batches_processed_once silent_published rfl rfl run).2.symm⟩

end Sample
end BankingEs.Proofs.SharedConsumer
