namespace FaultRecovery

variable {α : Type}

structure Spinlock (α : Type) where
  locked : Bool
  value : α
deriving DecidableEq, Repr

namespace Spinlock

def free (a : α) : Spinlock α := ⟨false, a⟩

def tryLock (m : Spinlock α) : Option (Spinlock α) :=
  if m.locked then none else some { m with locked := true }

/-- Gives up after so many attempts, so that it can be called where waiting could be forever. -/
def tryLockBounded : Nat → Spinlock α → Option (Spinlock α)
  | 0, _ => none
  | attempts + 1, m =>
      match m.tryLock with
      | some held => some held
      | none => tryLockBounded attempts m

def unlock (m : Spinlock α) : Spinlock α := { m with locked := false }

theorem tryLockBounded_succ (attempts : Nat) (m : Spinlock α) :
    tryLockBounded (attempts + 1) m = m.tryLock := by
  induction attempts with
  | zero => cases h : m.tryLock <;> simp [tryLockBounded, h]
  | succ attempts ih =>
      rw [tryLockBounded, ih]
      cases m.tryLock <;> rfl

theorem tryLock_eq_some_iff {m held : Spinlock α} :
    m.tryLock = some held ↔ m = free held.value ∧ held.locked = true := by
  cases m with
  | mk locked value =>
      cases held with
      | mk locked' value' => cases locked <;> simp [tryLock, free, eq_comm, and_comm]

theorem eq_free_of_tryLockBounded {m held : Spinlock α} {attempts : Nat}
    (h : tryLockBounded attempts m = some held) : m = free held.value := by
  cases attempts with
  | zero => cases h
  | succ attempts =>
      rw [tryLockBounded_succ] at h
      exact (tryLock_eq_some_iff.mp h).1

end Spinlock

end FaultRecovery
