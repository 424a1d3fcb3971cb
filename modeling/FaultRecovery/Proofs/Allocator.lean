import FaultRecovery.Proofs.Directory
import FaultRecovery.Proofs.Slab.Entries
import FaultRecovery.Proofs.Slab.Vacancies

namespace FaultRecovery

structure Allocator where
  stack : List Nat
  capacity : Nat
deriving DecidableEq, Repr

/-- What the regions have no part in: a slot is wanted, or the one under a handle is not wanted any more. -/
inductive Demand where
  | take
  | give (handle : Handle)
deriving DecidableEq, Repr

def Exchange.demand? : Exchange → Option Demand
  | ⟨.register _, .ok _⟩ => some .take
  | ⟨.release handle, _⟩ => some (.give handle)
  | _ => none

/-- The capacity that follows, as a number that does not wrap around. -/
def Config.target (c : Config) (capacity : Nat) : Nat :=
  min (max (2 * capacity) (max c.initialCapacity.toNat 1)) (min c.maxCapacity.toNat Handle.maxCapacity)

theorem Config.nextCapacity_clamped (c : Config) (capacity : Nat) :
    c.clamped.nextCapacity capacity = c.target capacity := by
  have hle : min c.maxCapacity.toNat Handle.maxCapacity ≤ UInt64.size - 1 :=
    Nat.le_trans (Nat.min_le_right _ _) (by decide)
  -- Doubling would stop at the last word only beyond the ceiling.
  rw [nextCapacity, toNat_initialCapacity_clamped, toNat_maxCapacity_clamped, target, Nat.max_min_distrib_right,
    Nat.min_assoc, Nat.min_eq_right (Nat.le_trans hle (Nat.le_max_left _ _))]

namespace Allocator

def empty : Allocator := ⟨[], 0⟩

def InUse (a : Allocator) (i : Nat) : Prop := i < a.capacity ∧ i ∉ a.stack

instance (a : Allocator) (i : Nat) : Decidable (a.InUse i) := inferInstanceAs (Decidable (_ ∧ _))

def take (c : Config) (a : Allocator) : Option Nat × Allocator :=
  match a.stack with
  | i :: is => (some i, ⟨is, a.capacity⟩)
  | [] =>
      let n := c.target a.capacity
      if a.capacity < n then (some a.capacity, ⟨List.range' (a.capacity + 1) (n - (a.capacity + 1)), n⟩)
      else (none, a)

def give (a : Allocator) (i : Nat) : Allocator := if a.InUse i then ⟨i :: a.stack, a.capacity⟩ else a

def meet (c : Config) (a : Allocator) : Demand → Allocator
  | .take => (a.take c).2
  | .give handle =>
      match handle.index? with
      | some i => a.give i
      | none => a

def follow (c : Config) (a : Allocator) (e : Exchange) : Allocator :=
  match e.demand? with
  | some d => a.meet c d
  | none => a

/-- The allocator once the demands of the past are met, of which the last comes first. -/
def after (c : Config) (past : List Exchange) : Allocator :=
  (past.filterMap Exchange.demand?).foldr (fun d a => a.meet c d) empty

theorem after_cons (c : Config) (e : Exchange) (past : List Exchange) :
    after c (e :: past) = (after c past).follow c e := by
  rw [after, List.filterMap_cons, follow]
  cases e.demand? <;> rfl

theorem take_of_cons {c : Config} {a : Allocator} {i : Nat} {is : List Nat} (h : a.stack = i :: is) :
    a.take c = (some i, ⟨is, a.capacity⟩) := by
  rw [take, h]

theorem take_of_room {c : Config} {a : Allocator} (h : a.stack = []) (hn : a.capacity < c.target a.capacity) :
    a.take c = (some a.capacity,
      ⟨List.range' (a.capacity + 1) (c.target a.capacity - (a.capacity + 1)), c.target a.capacity⟩) := by
  simp only [take, h, if_pos hn]

theorem take_of_full {c : Config} {a : Allocator} (h : a.stack = []) (hn : ¬ a.capacity < c.target a.capacity) :
    a.take c = (none, a) := by
  simp only [take, h, if_neg hn]

inductive Grants (c : Config) (a : Allocator) : Placement → Prop where
  | placed {i : Nat} {handle : Handle} {growth : Option Growth} (ht : (a.take c).1 = some i)
      (hi : handle.index? = some i) : Grants c a (.placed handle growth)
  | refused (ht : (a.take c).1 = none) : Grants c a (.refused a.capacity)

variable {α : Type} {a : Allocator} {slab : Slab α}

structure Tracks (a : Allocator) (slab : Slab α) : Prop where
  links : slab.Links a.stack
  capacity_eq : slab.capacity = a.capacity

namespace Tracks

theorem empty : Allocator.empty.Tracks (.empty : Slab α) := ⟨Slab.links_empty, rfl⟩

theorem stack_eq (h : a.Tracks slab) {is : List Nat} (hl : slab.Links is) : a.stack = is :=
  h.links.chain.unique hl.chain

theorem inUse_iff (h : a.Tracks slab) {i : Nat} : a.InUse i ↔ (slab.get? i).isSome = true := by
  rw [InUse, ← h.capacity_eq, Option.isSome_iff_exists]
  constructor
  · rintro ⟨hlt, hn⟩
    have hs : slab.slots[i]? = some slab.slots[i] := Array.getElem?_eq_getElem hlt
    cases hc : slab.slots[i] with
    | occupied entry => exact ⟨entry, Slab.get?_eq_some_iff.mpr (hs.trans (congrArg some hc))⟩
    | vacant next => exact absurd (h.links.complete i next (hs.trans (congrArg some hc))) hn
  · rintro ⟨entry, hi⟩
    refine ⟨Slab.lt_capacity_of_get? hi, ?_⟩
    intro hm
    simp [h.links.get?_eq_none hm] at hi

theorem give (h : a.Tracks slab) {rest : Slab α} {i : Nat} {entry : α}
    (hr : slab.vacate? i = some (entry, rest)) : (a.give i).Tracks rest := by
  have hi : a.InUse i := h.inUse_iff.mpr (by rw [(Slab.vacate?_eq_some_iff.mp hr).1]; rfl)
  rw [Allocator.give, if_pos hi]
  exact ⟨h.links.vacate hr, (Slab.capacity_of_vacate? hr).trans h.capacity_eq⟩

end Tracks

end Allocator

end FaultRecovery
