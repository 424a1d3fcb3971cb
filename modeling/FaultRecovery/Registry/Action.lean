import FaultRecovery.Slab.Step
import FaultRecovery.Registry.Record

namespace FaultRecovery

structure Session where
  metadata : Metadata
  records : List Record
deriving DecidableEq, Repr

structure Failure where
  cause : Stop
  /-- The metadata as the operation stopped, before it let go of the lock. -/
  seen : Metadata
deriving DecidableEq, Repr

abbrev Action (β : Type) := EStateM Failure Session β

namespace Action

variable {β : Type}

def write (event : Event) : Action Unit := fun s =>
  .ok () { s with records := s.records ++ [⟨event, s.metadata⟩] }

/-- Does some steps with the lock held. A rejection gives the lock back as it unwinds; a fatal cause is recorded
with the lock still held, and the lock then stays so. -/
def locked (body : Slab.Step Region β) : Action β := fun s =>
  match s.metadata.tryLock with
  | none => .error ⟨.blocked, s.metadata⟩ s
  | some held =>
      match body held.value with
      | .ok b slab => .ok b { s with metadata := ({ held with value := slab } : Metadata).unlock }
      | .error (.fatal cause) slab =>
          let seen : Metadata := { held with value := slab }
          .error ⟨.fatal cause, seen⟩ ⟨seen, s.records ++ [⟨.fatal cause, seen⟩]⟩
      | .error cause slab =>
          let seen : Metadata := { held with value := slab }
          .error ⟨cause, seen⟩ { s with metadata := seen.unlock }

def read (f : Slab Region → β) : Action β := locked fun slab => .ok (f slab) slab

/-- Reads with the lock held, where one of so many attempts gets it, and gives it back at once. -/
def tryRead (attempts : Nat) (f : Slab Region → β) : Action (Option β) := fun s =>
  match s.metadata.tryLockBounded attempts with
  | none => .ok none s
  | some held => .ok (some (f held.value)) { s with metadata := held.unlock }

theorem tryRead_eq (attempts : Nat) (f : Slab Region → β) (s : Session) :
    tryRead attempts f s = .ok ((s.metadata.tryLockBounded attempts).map fun held => f held.value) s := by
  cases h : s.metadata.tryLockBounded attempts with
  | none => simp only [tryRead, h, Option.map_none]
  | some held =>
      have hf : held.unlock = s.metadata := (Spinlock.eq_free_of_tryLockBounded h).symm
      simp only [tryRead, h, Option.map_some, hf]

theorem locked_of_ok {body : Slab.Step Region β} {slab rest : Slab Region} {records : List Record} {b : β}
    (h : body slab = .ok b rest) : locked body ⟨.free slab, records⟩ = .ok b ⟨.free rest, records⟩ := by
  simp [locked, Spinlock.free, Spinlock.tryLock, Spinlock.unlock, h]

theorem locked_of_rejected {body : Slab.Step Region β} {slab rest : Slab Region} {records : List Record}
    {cause : Rejection} (h : body slab = .error (.rejected cause) rest) :
    locked body ⟨.free slab, records⟩ = .error ⟨.rejected cause, ⟨true, rest⟩⟩ ⟨.free rest, records⟩ := by
  simp [locked, Spinlock.free, Spinlock.tryLock, Spinlock.unlock, h]

theorem locked_of_fatal {body : Slab.Step Region β} {slab rest : Slab Region} {records : List Record}
    {cause : Fatal} (h : body slab = .error (.fatal cause) rest) :
    locked body ⟨.free slab, records⟩ =
      .error ⟨.fatal cause, ⟨true, rest⟩⟩ ⟨⟨true, rest⟩, records ++ [⟨.fatal cause, ⟨true, rest⟩⟩]⟩ := by
  simp [locked, Spinlock.free, Spinlock.tryLock, h]

end Action

end FaultRecovery
