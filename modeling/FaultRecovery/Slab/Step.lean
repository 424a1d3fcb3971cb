import FaultRecovery.Stop
import FaultRecovery.Slab.Basic

namespace FaultRecovery.Slab

variable {α : Type}

abbrev Step (α β : Type) := EStateM Stop (Slab α) β

/-- More slots than this, of sixteen bytes each, can never be stored. -/
def storageLimit : Nat := 0x7fffffffffffffff / 16

def pop : Step α (Option Nat) := fun slab =>
  match slab.head with
  | none => .ok none slab
  | some i =>
      match slab.slots[i]? with
      | none => .error (.rejected (.outOfBounds i slab.capacity)) slab
      | some (.occupied _) => .error (.fatal (.headOccupied i)) slab
      | some (.vacant next) => .ok (some i) { slab with head := next }

def grow (capacity : Nat) : Step α Unit := fun slab =>
  if capacity ≤ slab.capacity then .error (.rejected .notGrowing) slab
  else if storageLimit < capacity then .error (.fatal (.storageExhausted slab.capacity capacity)) slab
  else .ok () (slab.extend capacity)

def occupy (i : Nat) (a : α) : Step α Unit := fun slab =>
  match slab.slots[i]? with
  | none => .error (.rejected (.outOfBounds i slab.capacity)) slab
  | some (.occupied _) => .error (.rejected .slotTaken) slab
  | some (.vacant _) => .ok () (slab.put i a)

def vacate (i : Nat) : Step α (Option α) := fun slab =>
  match slab.vacate? i with
  | none => .ok none slab
  | some (a, rest) => .ok (some a) rest

def modify (i : Nat) (f : α → α) : Step α (Option α) := fun slab =>
  match slab.modify? i f with
  | none => .ok none slab
  | some (a, rest) => .ok (some a) rest

theorem pop_of_vacant {slab : Slab α} {i : Nat} {next : Option Nat} (hh : slab.head = some i)
    (hi : slab.slots[i]? = some (.vacant next)) :
    pop slab = .ok (some i) { slab with head := next } := by
  simp only [pop, hh, hi]

theorem grow_of_lt {slab : Slab α} {n : Nat} (hlt : slab.capacity < n) (hle : n ≤ storageLimit) :
    grow n slab = .ok () (slab.extend n) := by
  rw [grow, if_neg (Nat.not_le_of_lt hlt), if_neg (Nat.not_lt_of_le hle)]

theorem occupy_of_vacant {slab : Slab α} {i : Nat} {a : α} {next : Option Nat}
    (hi : slab.slots[i]? = some (.vacant next)) : occupy i a slab = .ok () (slab.put i a) := by
  simp only [occupy, hi]

theorem modify_of_get? {slab : Slab α} {i : Nat} {a : α} (hi : slab.get? i = some a) (f : α → α) :
    modify i f slab = .ok (some (f a)) (slab.put i (f a)) := by
  simp only [modify, modify?, hi]

theorem modify_of_get?_eq_none {slab : Slab α} {i : Nat} (hi : slab.get? i = none) (f : α → α) :
    modify i f slab = .ok none slab := by
  simp only [modify, modify?, hi]

end FaultRecovery.Slab
