import BankingEs.Async.Interference
import BankingEs.Redis.LoadShedder

/-! What the counters of the load shedder count. The load goes up with every permit and
never down, because a permit that is dropped counts down in a copy. -/

namespace BankingEs.Proofs.LoadAccounting
open Relation Async ShedderWorld

variable {config : LoadShedderConfig} {world before after : ShedderWorld} {limit : Nat}

inductive Effect (before after : ShedderWorld) : Prop where
  | granted (load : after.shedder.currentLoad = before.shedder.currentLoad + 1)
      (rejected : after.shedder.rejectedRequests = before.shedder.rejectedRequests)
      (permits : after.permits.length = before.permits.length + 1) (discarded : after.discarded = before.discarded)
      (refused : after.refused = before.refused)
      (acquired : before.semaphore.tryAcquire = some after.semaphore)
  | refused (load : after.shedder.currentLoad = before.shedder.currentLoad)
      (rejected : after.shedder.rejectedRequests = before.shedder.rejectedRequests + 1)
      (permits : after.permits = before.permits) (discarded : after.discarded = before.discarded)
      (refused : after.refused = before.refused + 1) (semaphore : after.semaphore = before.semaphore)
  | dropped (shedder : after.shedder = before.shedder) (permits : before.permits.length = after.permits.length + 1)
      (discarded : after.discarded.length = before.discarded.length + 1) (refused : after.refused = before.refused)
      (semaphore : after.semaphore = before.semaphore.release)

private theorem step_effect (step : Step before after) : Effect before after := by
  cases step with
  | grants acquired called =>
    unfold LoadShedder.acquirePermit at called
    split at called
    next => cases called
    next =>
      cases called
      exact .granted rfl rfl rfl rfl rfl acquired
  | refuses called =>
    unfold LoadShedder.acquirePermit at called
    split at called
    next =>
      cases called
      exact .refused rfl rfl rfl rfl rfl rfl
    next =>
      split at called
      next => cases called
      next =>
        cases called
        exact .refused rfl rfl rfl rfl rfl rfl
  | drops held =>
    refine .dropped rfl ?_ rfl rfl rfl
    rw [held]
    simp
    omega

/-- The load has counted every permit there ever was. -/
structure Counted (limit : Nat) (world : ShedderWorld) : Prop where
  lends : Semaphore.Lends limit world.semaphore world.permits.length
  load : world.shedder.currentLoad = UInt64.ofNat (world.permits.length + world.discarded.length)
  rejected : world.shedder.rejectedRequests = UInt64.ofNat world.refused

private theorem step_counted (step : Step before after) (counted : Counted limit before) : Counted limit after := by
  cases step_effect step with
  | granted load rejected permits discarded refused acquired =>
    refine ⟨?_, ?_, ?_⟩
    · rw [permits]
      exact counted.lends.acquire acquired
    · rw [load, permits, discarded, counted.load, Nat.add_right_comm]
      exact (UInt64.ofNat_add _ 1).symm
    · rw [rejected, refused, counted.rejected]
  | refused load rejected permits discarded refused semaphore =>
    refine ⟨?_, ?_, ?_⟩
    · rw [permits, semaphore]
      exact counted.lends
    · rw [load, permits, discarded, counted.load]
    · rw [rejected, refused, counted.rejected]
      exact (UInt64.ofNat_add _ 1).symm
  | dropped shedder permits discarded refused semaphore =>
    have lends := counted.lends
    have load := counted.load
    rw [permits] at lends load
    refine ⟨?_, ?_, ?_⟩
    · rw [semaphore]
      exact lends.release
    · rw [shedder, load, discarded, Nat.add_right_comm, Nat.add_assoc]
    · rw [shedder, refused, counted.rejected]

private theorem counted_of_new {first : ShedderWorld} (started : ShedderWorld.new config = some first)
    (run : ReflTransGen Step first world) :
    Counted config.maxConcurrentRequests world ∧ config.maxConcurrentRequests ≤ maxPermits := by
  unfold ShedderWorld.new at started
  split at started
  next possible =>
    cases started
    refine ⟨?_, possible⟩
    apply preserved_by_steps (fun _ _ step => step_counted step) run
    exact ⟨Semaphore.Lends.new, rfl, rfl⟩
  next => cases started

/-- The load is the number of permits held as long as none was dropped: the counter goes
down only by wrapping around. -/
theorem load_accounting_iff (config : LoadShedderConfig) (first world : ShedderWorld)
    (started : ShedderWorld.new config = some first) (run : ReflTransGen Step first world) :
    (world.shedder.getMetrics.currentLoad.toNat = world.permits.length ∧
      world.permits.length ≤ config.maxConcurrentRequests ∧
      world.shedder.getMetrics.rejectedRequests.toNat = world.refused) ↔
      2 ^ 64 ∣ world.discarded.length ∧ world.refused < 2 ^ 64 := by
  obtain ⟨counted, possible⟩ := counted_of_new started run
  have few := counted.lends.le
  unfold maxPermits at possible
  rw [LoadShedder.getMetrics, counted.load, counted.rejected]
  dsimp only
  rw [UInt64.toNat_ofNat', UInt64.toNat_ofNat']
  omega

private def onePermit : ShedderWorld := { shedder := { config := { maxConcurrentRequests := 1 } }, semaphore := .new 1 }

private def loadedShedder : LoadShedder := { onePermit.shedder with currentLoad := 1 }

private theorem onePermit_acquires : onePermit.shedder.acquirePermit true = (.ok ⟨loadedShedder⟩, loadedShedder) := by
  have calm : onePermit.shedder.isSystemOverloaded = false := by decide +kernel
  rw [LoadShedder.acquirePermit, calm]
  rfl

private def onePermitHeld : ShedderWorld :=
  { onePermit with shedder := loadedShedder, semaphore := .new 0, permits := [⟨loadedShedder⟩] }

private theorem onePermit_grants : ReflTransGen Step onePermit onePermitHeld := .single (.grants rfl onePermit_acquires)

theorem load_accounting_held :
    ShedderWorld.new { maxConcurrentRequests := 1 } = some onePermit ∧ ReflTransGen Step onePermit onePermitHeld ∧
      onePermitHeld.shedder.getMetrics.currentLoad.toNat = onePermitHeld.permits.length ∧
      onePermitHeld.permits.length ≤ 1 ∧
      onePermitHeld.shedder.getMetrics.rejectedRequests.toNat = onePermitHeld.refused := by
  have started : ShedderWorld.new { maxConcurrentRequests := 1 } = some onePermit := by
    rw [ShedderWorld.new, if_pos (by decide)]
    rfl
  have accounting := load_accounting_iff { maxConcurrentRequests := 1 } onePermit onePermitHeld started onePermit_grants
  exact ⟨started, onePermit_grants, accounting.mpr ⟨Nat.dvd_zero _, by decide⟩⟩

/-- A permit is granted and dropped, and the load stays at one. -/
theorem load_after_drop : ∃ world, ReflTransGen Step onePermit world ∧
    world.permits = [] ∧ world.shedder.getMetrics.currentLoad = 1 :=
  ⟨_, onePermit_grants.tail (@Step.drops _ [] [] _ rfl), rfl, rfl⟩

end BankingEs.Proofs.LoadAccounting
