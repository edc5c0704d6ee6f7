import BankingEs.Kafka.DeadLetterQueue

/-! The partitions of a topic. The send functions name the partition that a message goes to. -/

namespace BankingEs

structure KafkaConfig where
  enabled : Bool := true
  topicPrefix : String := "banking-es"

structure KafkaRecord (Payload : Type) where
  key : Option String
  payload : Option Payload

/-- The records of each partition, in the order in which they were stored. -/
abbrev Partitions (Payload : Type) := List (List (KafkaRecord Payload))

abbrev KafkaTopics (Payload : Type) := String → Partitions Payload

variable {Payload : Type}

/-- A record is stored in the partition that is named, if the topic has it. -/
def Partitions.produce (partitions : Partitions Payload) (partition : Int) (record : KafkaRecord Payload) :
    Except String (Partitions Payload) :=
  if 0 ≤ partition ∧ partition < partitions.length then
    .ok (partitions.modify partition.toNat fun records => records ++ [record])
  else .error "UnknownPartition"

/-- `account_id.as_u128() as i32`. -/
def Uuid.partition (id : Uuid) : Int := (id.bits.setWidth 32).toInt

def KafkaConfig.eventsTopic (config : KafkaConfig) : String := config.topicPrefix ++ "-events"

end BankingEs
