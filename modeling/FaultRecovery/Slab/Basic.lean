namespace FaultRecovery

variable {α : Type}

inductive Slot (α : Type) where
  | occupied (entry : α)
  | vacant (next : Option Nat)
deriving DecidableEq, Repr

namespace Slot

def content? : Slot α → Option α
  | occupied a => some a
  | vacant _ => none

def isVacant : Slot α → Bool
  | occupied _ => false
  | vacant _ => true

end Slot

/-- The array never shrinks, so the index of an entry stays what it is. The vacant slots are linked into a list
through their own `next` fields, the most recently vacated first. -/
structure Slab (α : Type) where
  slots : Array (Slot α)
  head : Option Nat
deriving DecidableEq, Repr

namespace Slab

def empty : Slab α := ⟨#[], none⟩

def capacity (slab : Slab α) : Nat := slab.slots.size

def get? (slab : Slab α) (i : Nat) : Option α := slab.slots[i]?.bind Slot.content?

def entries (slab : Slab α) : List α := slab.slots.toList.filterMap Slot.content?

/-- The number of slots that are vacant, whether or not the list of vacant slots reaches them. -/
def vacancies (slab : Slab α) : Nat := slab.slots.countP Slot.isVacant

def size (slab : Slab α) : Nat := slab.capacity - slab.vacancies

def put (slab : Slab α) (i : Nat) (a : α) : Slab α :=
  { slab with slots := slab.slots.setIfInBounds i (.occupied a) }

/-- Adds vacant slots up to `capacity`, in index order and ahead of those that were vacant before. -/
def extend (slab : Slab α) (capacity : Nat) : Slab α where
  slots := slab.slots ++ (Array.range' slab.capacity (capacity - slab.capacity)).map fun i =>
    .vacant (if i + 1 < capacity then some (i + 1) else slab.head)
  head := some slab.capacity

def vacate? (slab : Slab α) (i : Nat) : Option (α × Slab α) :=
  match slab.get? i with
  | none => none
  | some a => some (a, ⟨slab.slots.setIfInBounds i (.vacant slab.head), some i⟩)

def modify? (slab : Slab α) (i : Nat) (f : α → α) : Option (α × Slab α) :=
  match slab.get? i with
  | none => none
  | some a => some (f a, slab.put i (f a))

theorem get?_eq_some_iff {slab : Slab α} {i : Nat} {a : α} :
    slab.get? i = some a ↔ slab.slots[i]? = some (.occupied a) := by
  rw [get?]
  cases slab.slots[i]? with
  | none => simp
  | some s => cases s <;> simp [Slot.content?]

theorem capacity_put (slab : Slab α) (i : Nat) (a : α) : (slab.put i a).capacity = slab.capacity := by
  simp [put, capacity]

theorem put_put (slab : Slab α) (i : Nat) (a b : α) : (slab.put i a).put i b = slab.put i b := by
  rw [put, put, put, Array.setIfInBounds_setIfInBounds]

theorem put_eq_self {slab : Slab α} {i : Nat} {a : α} (h : slab.get? i = some a) : slab.put i a = slab := by
  obtain ⟨hi, hs⟩ := Array.getElem?_eq_some_iff.mp (get?_eq_some_iff.mp h)
  have hp : slab.slots.setIfInBounds i (.occupied a) = slab.slots := by
    simp [Array.setIfInBounds, hi, ← hs]
  rw [put, hp]

theorem capacity_extend {slab : Slab α} {n : Nat} (h : slab.capacity ≤ n) :
    (slab.extend n).capacity = n := by
  simp only [extend, capacity, Array.size_append, Array.size_map, Array.size_range'] at h ⊢
  omega

theorem slots_extend {slab : Slab α} {n i : Nat} (h : i < slab.capacity) :
    (slab.extend n).slots[i]? = slab.slots[i]? := by
  rw [extend, Array.getElem?_append_left h]

theorem get?_put {slab : Slab α} {i j : Nat} {a : α} (h : i < slab.capacity) :
    (slab.put i a).get? j = if i = j then some a else slab.get? j := by
  have hi : i < slab.slots.size := h
  rw [get?, put, Array.getElem?_setIfInBounds]
  by_cases hj : i = j
  · rw [if_pos hj, if_pos hi, if_pos hj]
    rfl
  · rw [if_neg hj, if_neg hj]
    rfl

theorem get?_extend (slab : Slab α) (n i : Nat) : (slab.extend n).get? i = slab.get? i := by
  rcases Nat.lt_or_ge i slab.capacity with h | h
  · rw [get?, slots_extend h, get?]
  · have hn : slab.slots[i]? = none := Array.getElem?_eq_none h
    rw [get?, get?, hn, extend, Array.getElem?_append_right h, Array.getElem?_map]
    cases (Array.range' slab.capacity (n - slab.capacity))[i - slab.slots.size]? <;> rfl

theorem get?_of_vacate? {slab rest : Slab α} {i j : Nat} {a : α} (h : slab.vacate? i = some (a, rest)) :
    rest.get? j = if i = j then none else slab.get? j := by
  cases hi : slab.get? i with
  | none => simp [vacate?, hi] at h
  | some b =>
      rw [vacate?, hi] at h
      obtain ⟨-, rfl⟩ := Prod.mk.inj (Option.some.inj h)
      rw [get?, Array.getElem?_setIfInBounds]
      by_cases hj : i = j
      · rw [if_pos hj, if_pos hj]
        split <;> rfl
      · rw [if_neg hj, if_neg hj]
        rfl

end Slab

end FaultRecovery
