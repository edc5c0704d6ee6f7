import Mathlib.Data.Rat.Encodable
import Mathlib.Logic.Encodable.Basic
import BankingEs.Wire

/-! A message is read by the poll function of its own kind only. -/

namespace BankingEs.Proofs.Wire
open Serde

variable (texts : Texts)

section Kinds

def telling : (polled sent : MessageKind) → String
  | .events, .deadLetters => "timestamp"
  | .events, _ => "events"
  | .cacheUpdates, _ => "id"
  | .cacheInvalidations, _ => "invalidation_type"
  | .deadLetters, _ => "failure_reason"

private theorem needs_telling (polled sent : MessageKind) : (polled.record texts).Needs (telling polled sent) := by
  cases polled with
  | events =>
    have strict : (StampedBatch.record texts).Strict := .via (.required (.required (.required (.required .empty))))
    cases sent <;> exact strict _ (by simp [StampedBatch.record, telling])
  | cacheUpdates =>
    have strict : (Account.record texts).Strict := .via (.required (.required (.required (.required (.required .empty)))))
    exact strict _ (by simp [Account.record, telling])
  | cacheInvalidations =>
    have strict : (CacheInvalidationMessage.record texts).Strict :=
      .via (.required (.required (.required (.required .empty))))
    exact strict _ (by simp [CacheInvalidationMessage.record, telling])
  | deadLetters => exact .via (.field (.field (.field (.field Record.needs_required))))

private theorem lacks_telling {polled sent : MessageKind} (apart : polled ≠ sent) :
    telling polled sent ∉ (sent.record texts).names := by
  cases sent with
  | events => cases polled <;> simp [MessageKind.record, StampedBatch.record, telling] at apart ⊢
  | cacheUpdates => cases polled <;> simp [MessageKind.record, Account.record, telling] at apart ⊢
  | cacheInvalidations =>
    cases polled <;> simp [MessageKind.record, CacheInvalidationMessage.record, telling] at apart ⊢
  | deadLetters => cases polled <;> simp [MessageKind.record, DeadLetterMessage.record, telling] at apart ⊢

theorem decode_other {polled sent : MessageKind} (apart : polled ≠ sent) (message : sent.Message) :
    polled.decode texts (sent.encode texts message) = none :=
  (needs_telling texts polled sent).refuses (lacks_telling texts apart) message

/-- A payload is accepted by the poll function of the kind of message that it was written for, and
by no other. -/
theorem payload_read_by_own_kind (polled : MessageKind) {sent : MessageKind} {message : sent.Message}
    (fits : (sent.record texts).Fits message) :
    (polled.decode texts (sent.encode texts message)).isSome ↔ polled = sent := by
  constructor
  · intro accepted
    by_contra apart
    rw [decode_other texts apart message] at accepted
    cases accepted
  · rintro rfl
    exact Option.isSome_iff_exists.mpr ⟨message, (polled.record texts).format.decodes message fits⟩

end Kinds

section Keys
variable {id other : Uuid}

private theorem display_toList (id : Uuid) :
    id.display.toList = (Hex.digits 32 id.bits.toNat).take 8 ++ '-' :: (((Hex.digits 32 id.bits.toNat).drop 8).take 4 ++
      '-' :: (((Hex.digits 32 id.bits.toNat).drop 12).take 4 ++ '-' :: (((Hex.digits 32 id.bits.toNat).drop 16).take 4 ++
      '-' :: ((Hex.digits 32 id.bits.toNat).drop 20).take 12))) := by
  simp [Uuid.display]

private theorem group_length {digits : List Char} (all : digits.length = 32) {start length : Nat}
    (inside : start + length ≤ 32) : ((digits.drop start).take length).length = length := by
  rw [List.length_take, List.length_drop, all]
  omega

private theorem digits_of_groups {digits : List Char} (all : digits.length = 32) :
    digits = digits.take 8 ++ ((digits.drop 8).take 4 ++ ((digits.drop 12).take 4 ++
      ((digits.drop 16).take 4 ++ (digits.drop 20).take 12))) := by
  have join (start count : Nat) : (digits.drop start).take count ++ digits.drop (start + count) = digits.drop start := by
    rw [← List.drop_drop, List.take_append_drop]
  have last : (digits.drop 20).take 12 = digits.drop 20 := List.take_of_length_le (by rw [List.length_drop, all])
  rw [last, join 16 4, join 12 4, join 8 4]
  exact (List.take_append_drop 8 digits).symm

/-- Different accounts have different keys. -/
theorem display_injective (same : id.display = other.display) : id = other := by
  have lists : id.display.toList = other.display.toList := congrArg String.toList same
  rw [display_toList, display_toList] at lists
  have length (id : Uuid) : (Hex.digits 32 id.bits.toNat).length = 32 := Hex.digits_length ..
  have groups (start count : Nat) (inside : start + count ≤ 32) :
      (((Hex.digits 32 id.bits.toNat).drop start).take count).length =
        (((Hex.digits 32 other.bits.toNat).drop start).take count).length := by
    rw [group_length (length id) inside, group_length (length other) inside]
  obtain ⟨first, lists⟩ := List.append_inj lists (groups 0 8 (by decide))
  obtain ⟨second, lists⟩ := List.append_inj (List.cons.inj lists).2 (groups 8 4 (by decide))
  obtain ⟨third, lists⟩ := List.append_inj (List.cons.inj lists).2 (groups 12 4 (by decide))
  obtain ⟨fourth, lists⟩ := List.append_inj (List.cons.inj lists).2 (groups 16 4 (by decide))
  have digits : Hex.digits 32 id.bits.toNat = Hex.digits 32 other.bits.toNat := by
    rw [digits_of_groups (length id), digits_of_groups (length other), first, second, third, fourth,
      (List.cons.inj lists).2]
  have values := congrArg Hex.value digits
  rw [Hex.value_digits (by exact id.bits.isLt), Hex.value_digits (by exact other.bits.isLt)] at values
  obtain ⟨bits⟩ := id
  obtain ⟨bits'⟩ := other
  exact congrArg Uuid.mk (BitVec.eq_of_toNat_eq values)

end Keys

section Sample

def unary {α : Type} [Encodable α] (value : α) : String := String.ofList (List.replicate (Encodable.encode value) '1')

private theorem unary_injective {α : Type} [Encodable α] : Function.Injective (unary : α → String) := by
  intro first second same
  have lengths := congrArg (fun text => text.toList.length) same
  simpa [unary] using lengths

noncomputable def sampleTexts : Texts where
  parseUuid := Function.partialInv Uuid.display
  parsesUuid := Function.partialInv_left fun _ _ same => display_injective same
  displayDecimal := unary
  parseDecimal := Function.partialInv unary
  parsesDecimal := Function.partialInv_left unary_injective
  decimalOfInteger value := some value
  decimalOfFloat := some
  displayDateTime := unary
  parseDateTime := Function.partialInv unary
  parsesDateTime := Function.partialInv_left unary_injective

theorem batch_read_as_letter_refused : ((MessageKind.deadLetters.decode sampleTexts
    (MessageKind.events.encode sampleTexts ⟨⟨⟨7⟩, [], 1⟩, 0⟩)).isSome ↔ MessageKind.deadLetters = .events) := by
  apply payload_read_by_own_kind
  simp [MessageKind.record, StampedBatch.record, Format.i64, Format.integer, Format.list]

end Sample
end BankingEs.Proofs.Wire
