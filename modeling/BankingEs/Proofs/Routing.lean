import BankingEs.Kafka.Broker
import BankingEs.Proofs.Wire

/-! Where `send_event_batch` puts a batch, and what `get_last_processed_version` finds of it: it
waits at the end of partition 0 and does not return. -/

namespace BankingEs.Proofs.Routing
open Serde BankingEs.Broker

variable {texts : Texts} {config : KafkaConfig} {regroups : Prop} {id : Uuid} {broker after : Broker}

def fresh (count : Nat) : Broker := { topics := fun _ => List.replicate count [] }

inductive SendsAll (texts : Texts) (config : KafkaConfig) : List StampedBatch → Broker → Broker → Prop where
  | nil {broker : Broker} : SendsAll texts config [] broker broker
  | cons {stamped : StampedBatch} {batches : List StampedBatch} {broker next after : Broker}
      (sends : @Sends texts config .events stamped broker (.ok ()) next) (rest : SendsAll texts config batches next after) :
      SendsAll texts config (stamped :: batches) broker after

/-- The version of the last batch for an account, if Kafka is in use. -/
def lastSent (config : KafkaConfig) (id : Uuid) (batches : List StampedBatch) : Int :=
  if config.enabled then
    (((batches.filter fun stamped => stamped.batch.accountId = id).getLast?).map fun stamped => stamped.batch.version).getD 0
  else 0

/-- The partition of an account is one of the topic, and after any batches its last version is returned. -/
def Routed (texts : Texts) (config : KafkaConfig) (regroups : Prop) (count : Nat) (id : Uuid) : Prop :=
  (config.enabled = true → 0 ≤ id.partition ∧ id.partition < count) ∧
    ∀ batches broker, SendsAll texts config batches (fresh count) broker →
      ∃ after, GetsLastProcessedVersion texts config regroups id broker (.ok (lastSent config id batches)) after

/-- Only an error ends the loop. -/
theorem searches_fails {key : String} {version : Int} {result : Except String Int}
    (searches : Searches texts config regroups key version broker result after) : ∃ error, result = .error error := by
  induction searches with
  | others _ _ ih => exact ih
  | message _ _ ih => exact ih
  | fails => exact ⟨_, rfl⟩
  | ends next => cases next

private theorem version_not_found {version : Int} (enabled : config.enabled = true) :
    ¬ GetsLastProcessedVersion texts config regroups id broker (.ok version) after := by
  intro gets
  cases gets with
  | disabled off => simp [enabled] at off
  | searched _ searches =>
    obtain ⟨error, same⟩ := searches_fails searches
    cases same

private theorem not_routed {count : Nat} (enabled : config.enabled = true) :
    ¬ Routed texts config regroups count id := by
  intro ⟨_, found⟩
  obtain ⟨after, gets⟩ := found [] (fresh count) .nil
  exact version_not_found enabled gets

/-- An account is routed exactly if Kafka is not in use. -/
theorem routed_iff (texts : Texts) (config : KafkaConfig) (regroups : Prop) (count : Nat) (id : Uuid) :
    Routed texts config regroups count id ↔ config.enabled = false := by
  constructor
  · intro routed
    by_contra enabled
    exact not_routed (eq_true_of_ne_false enabled) routed
  · intro disabled
    refine ⟨?_, ?_⟩
    · intro enabled
      rw [disabled] at enabled
      cases enabled
    · intro batches broker _
      have nothing : lastSent config id batches = 0 := by simp [lastSent, disabled]
      exact ⟨broker, nothing ▸ .disabled disabled⟩

section Sample
open Wire

private def sentBatch : StampedBatch := ⟨⟨⟨4294967296⟩, [], 1⟩, 0⟩

/-- Topics of three partitions. The batch of an account whose id ends in 32 zero bits is stored in
partition 0; the search starts behind it, where there is nothing to read, and never returns a
version. The batch of account 3 has no partition. -/
theorem accounts_not_routed :
    (∃ broker, @Sends sampleTexts {} .events sentBatch (fresh 3) (.ok ()) broker ∧
      (broker.log ({} : KafkaConfig).eventsTopic 0).length = 1 ∧
      (∀ record after, ¬ Yields (broker.assign ({} : KafkaConfig).eventsTopic) none record after) ∧
      ∀ version after, ¬ GetsLastProcessedVersion sampleTexts {} True sentBatch.batch.accountId broker (.ok version) after) ∧
    Uuid.partition ⟨3⟩ = 3 ∧ ¬ Routed sampleTexts {} True 3 sentBatch.batch.accountId ∧
    ¬ Routed sampleTexts {} True 3 ⟨3⟩ := by
  have fits : (StampedBatch.record sampleTexts).Fits sentBatch := by
    simp [StampedBatch.record, sentBatch, Format.i64, Format.integer, Format.list]
  refine ⟨⟨_, @Sends.sent sampleTexts {} .events sentBatch _ _ _ rfl fits rfl, rfl, ?_, ?_⟩, by decide, ?_, ?_⟩
  · intro record after yields
    obtain ⟨subscribed, assigned, next⟩ := yields
    cases subscribed
    obtain rfl := List.mem_singleton.mp assigned
    cases next
  · intro version after
    exact version_not_found rfl
  · exact not_routed rfl
  · exact not_routed rfl

end Sample
end BankingEs.Proofs.Routing
