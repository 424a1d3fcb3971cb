import FaultRecovery.Spinlock.Holder

namespace FaultRecovery.Spinlock

variable {α : Type}

inductive Instr (α : Type) where
  | lock
  | tryLock
  | tryBounded (attempts : Nat)
  /-- Adds to the value, where the thread holds the lock; else does nothing. -/
  | add (n : α)
  /-- Gives the lock back, where the thread holds it; else does nothing. -/
  | unlock
deriving DecidableEq, Repr

inductive Phase (α : Type) where
  | fresh
  /-- The lock was held, and is tried again only once it is seen free. -/
  | watching
  | trying (attempts : Nat)
  /-- The value has been read, and the sum is still to be written. -/
  | adding (seen : α)
deriving DecidableEq, Repr

structure Thread (α : Type) where
  program : List (Instr α)
  phase : Phase α
  holds : Bool
deriving DecidableEq, Repr

inductive Access (α : Type) where
  | silent
  /-- A compare-exchange of the flag; it succeeds where the lock is free. -/
  | exchange (taken : Bool)
  | load (locked : Bool)
  | store
  | read (value : α)
  | added (n : α)
deriving DecidableEq, Repr

namespace Thread

def start (program : List (Instr α)) : Thread α := ⟨program, .fresh, false⟩

def done (t : Thread α) : Thread α := { t with program := t.program.tail, phase := .fresh }

def attempt (m : Spinlock α) (t missed : Thread α) : Spinlock α × Thread α × Access α :=
  match m.tryLock with
  | some held => (held, { t.done with holds := true }, .exchange true)
  | none => (m, missed, .exchange false)

def bounded (m : Spinlock α) (t : Thread α) : Nat → Spinlock α × Thread α × Access α
  | 0 => (m, t.done, .silent)
  | attempts + 1 => attempt m t { t with phase := .trying attempts }

def step [Add α] (m : Spinlock α) (t : Thread α) : Spinlock α × Thread α × Access α :=
  match t.program, t.phase with
  | [], _ => (m, t, .silent)
  | .lock :: _, .watching =>
      (m, if m.locked then t else { t with phase := .fresh }, .load m.locked)
  | .lock :: _, _ => attempt m t { t with phase := .watching }
  | .tryLock :: _, _ => attempt m t t.done
  | .tryBounded _ :: _, .trying attempts => bounded m t attempts
  | .tryBounded attempts :: _, _ => bounded m t attempts
  | .add n :: _, .adding seen => ({ m with value := seen + n }, t.done, .added n)
  | .add _ :: _, _ =>
      if t.holds then (m, { t with phase := .adding m.value }, .read m.value)
      else (m, t.done, .silent)
  | .unlock :: _, _ =>
      if t.holds then (m.unlock, { t.done with holds := false }, .store) else (m, t.done, .silent)

end Thread

/-- Each step of a thread makes at most one access to memory, and a schedule names the thread whose step comes
next, so every interleaving of the accesses is a run. -/
structure Crowd (α : Type) where
  mutex : Spinlock α
  threads : List (Thread α)
deriving DecidableEq, Repr

namespace Crowd

variable [Add α]

def step (c : Crowd α) (i : Nat) : Crowd α × Access α :=
  match c.threads[i]? with
  | none => (c, .silent)
  | some t =>
      let (m, t, access) := t.step c.mutex
      (⟨m, c.threads.set i t⟩, access)

def run (c : Crowd α) : List Nat → Crowd α × List (Nat × Access α)
  | [] => (c, [])
  | i :: schedule =>
      let (next, access) := c.step i
      let (last, trace) := next.run schedule
      (last, (i, access) :: trace)

end Crowd

def worker (times : Nat) (n : α) : Thread α :=
  .start (List.replicate times [.lock, .add n, .unlock]).flatten

/-- The holder of the lock, who gives it back, with workers who want it. -/
def Holder.crowd (h : Holder α) (workers times : Nat) (n : α) : Crowd α :=
  ⟨h.mutex, ⟨if h.holds then [.unlock] else [], .fresh, h.holds⟩ :: List.replicate workers (worker times n)⟩

/-- Workers start while the holder may still have the lock. Then everybody is given turns until all are through,
which takes a worker four for each addition where it does not have to wait. -/
def Holder.contend [Add α] (h : Holder α) (workers times : Nat) (n : α) : Holder α :=
  let everybody := List.range (workers + 1)
  let rounds := List.replicate (4 * (workers * times) + 1) (everybody ++ everybody)
  ⟨((h.crowd workers times n).run (everybody.tail ++ rounds.flatten)).1.mutex, false⟩

end FaultRecovery.Spinlock
