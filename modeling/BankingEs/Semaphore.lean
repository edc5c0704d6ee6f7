import Mathlib.Order.Basic

/-! A counting semaphore: the number of permits that are free. Who holds the others is
known only to those who took them. -/

namespace BankingEs

structure Semaphore where
  available : Nat
  deriving DecidableEq

namespace Semaphore

def new (permits : Nat) : Semaphore := ⟨permits⟩

def tryAcquire (semaphore : Semaphore) : Option Semaphore :=
  match semaphore.available with
  | 0 => none
  | rest + 1 => some ⟨rest⟩

def release (semaphore : Semaphore) : Semaphore := ⟨semaphore.available + 1⟩

variable {semaphore taken : Semaphore} {limit held : Nat}

theorem tryAcquire_eq_some : semaphore.tryAcquire = some taken ↔ semaphore = taken.release := by
  obtain ⟨available⟩ := semaphore
  obtain ⟨left⟩ := taken
  cases available with
  | zero => simp [tryAcquire, release]
  | succ rest => simp [tryAcquire, release]

theorem tryAcquire_eq_none : semaphore.tryAcquire = none ↔ semaphore.available = 0 := by
  obtain ⟨available⟩ := semaphore
  cases available with
  | zero => simp [tryAcquire]
  | succ rest => simp [tryAcquire]

def Lends (limit : Nat) (semaphore : Semaphore) (held : Nat) : Prop := semaphore.available + held = limit

theorem Lends.new : Lends limit (.new limit) 0 := Nat.add_zero limit

theorem Lends.le (lends : Lends limit semaphore held) : held ≤ limit := lends ▸ Nat.le_add_left held _

theorem Lends.acquire (lends : Lends limit semaphore held) (acquired : semaphore.tryAcquire = some taken) :
    Lends limit taken (held + 1) := by
  obtain rfl := tryAcquire_eq_some.mp acquired
  unfold Lends Semaphore.release at *
  dsimp only at lends
  omega

theorem Lends.release (lends : Lends limit semaphore (held + 1)) : Lends limit semaphore.release held := by
  unfold Lends Semaphore.release at *
  dsimp only
  omega

end Semaphore
end BankingEs
