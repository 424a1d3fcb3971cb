import FaultRecovery.Spinlock.Basic

namespace FaultRecovery.Spinlock

variable {α : Type}

structure Holder (α : Type) where
  mutex : Spinlock α
  holds : Bool
deriving DecidableEq, Repr

namespace Holder

def took (h : Holder α) : Option (Spinlock α) → Bool × Holder α
  | none => (false, h)
  | some held => (true, ⟨held, true⟩)

def tryLock (h : Holder α) : Bool × Holder α := h.took h.mutex.tryLock

def tryBounded (h : Holder α) (attempts : Nat) : Bool × Holder α :=
  h.took (h.mutex.tryLockBounded attempts)

def unlock (h : Holder α) : Holder α := if h.holds then ⟨h.mutex.unlock, false⟩ else h

def add [Add α] (h : Holder α) (n : α) : Option α × Holder α :=
  if h.holds then
    let sum := h.mutex.value + n
    (some sum, { h with mutex := { h.mutex with value := sum } })
  else (none, h)

end Holder

end FaultRecovery.Spinlock
