import FaultRecovery.Handle
import FaultRecovery.Region
import FaultRecovery.Slab.Basic
import FaultRecovery.Spinlock.Basic

namespace FaultRecovery

abbrev Metadata := Spinlock (Slab Region)

def Slab.named? {α : Type} (slab : Slab α) (h : Handle) : Option α := h.index?.bind slab.get?

/-- Of several regions that contain `pc`, the one in the first slot decides. -/
def Slab.landingPad? (slab : Slab Region) (pc : Address) : Option Address :=
  match slab.entries.find? fun r => r.contains pc with
  | none => none
  | some r => r.landingPad? pc

inductive Lookup where
  | recover (landing : Address)
  | unprotected
  /-- Somebody holds the metadata, maybe the thread that faulted: nothing can be said. -/
  | indeterminate
deriving DecidableEq, Repr

def Lookup.ofSearch : Option (Option Address) → Lookup
  | none => .indeterminate
  | some none => .unprotected
  | some (some landing) => .recover landing

namespace Metadata

/-- How often a fault tries the lock. It must not wait for it. -/
def attempts : Nat := 8

def resolve (m : Metadata) (pc : Address) : Lookup :=
  .ofSearch ((m.tryLockBounded attempts).map fun held => held.value.landingPad? pc)

theorem resolve_of_locked {m : Metadata} (h : m.locked = true) (pc : Address) :
    m.resolve pc = .indeterminate := by
  have ht : m.tryLock = none := by simp [Spinlock.tryLock, h]
  rw [resolve, attempts, Spinlock.tryLockBounded_succ, ht]
  rfl

theorem resolve_of_free {m : Metadata} (h : m.locked = false) (pc : Address) :
    m.resolve pc = match m.value.landingPad? pc with
      | none => .unprotected
      | some landing => .recover landing := by
  have ht : m.tryLock = some { m with locked := true } := by simp [Spinlock.tryLock, h]
  rw [resolve, attempts, Spinlock.tryLockBounded_succ, ht, Option.map_some]
  cases m.value.landingPad? pc <;> rfl

end Metadata

end FaultRecovery
