import FaultRecovery.Proofs.Slab.Entries
import FaultRecovery.Proofs.Slab.Vacancies

namespace FaultRecovery.Slab

variable {α : Type} {slab : Slab α} {is : List Nat} {i n : Nat} {a : α}

theorem pop_of_links (h : slab.Links (i :: is)) : pop slab = .ok (some i) { slab with head := slab.link? i } :=
  pop_of_vacant h.head_eq.1 h.head_eq.2

theorem pop_of_links_nil (h : slab.Links []) : pop slab = .ok none slab := by
  simp only [pop, h.head_eq_none]

theorem occupy_of_links (h : slab.Links (i :: is)) (a : α) :
    occupy i a { slab with head := slab.link? i } = .ok () (slab.insert i a) :=
  occupy_of_vacant h.head_eq.2

theorem vacate_of_get? (hi : slab.get? i = some a) :
    vacate i slab = .ok (some a) ⟨slab.slots.setIfInBounds i (.vacant slab.head), some i⟩ := by
  simp only [vacate, vacate?, hi]

theorem vacate_of_get?_eq_none (hi : slab.get? i = none) : vacate i slab = .ok none slab := by
  simp only [vacate, vacate?, hi]

def Sets (slab : Slab α) (i : Nat) (s : Slot α) (rest : Slab α) : Prop :=
  ∀ j, rest.slots[j]? = if i = j then some s else slab.slots[j]?

theorem sets_setIfInBounds (hi : i < slab.capacity) (s : Slot α) (head : Option Nat) :
    slab.Sets i s ⟨slab.slots.setIfInBounds i s, head⟩ := by
  intro j
  have hlt : i < slab.slots.size := hi
  rw [Array.getElem?_setIfInBounds, if_pos hlt]

structure Extends (slab : Slab α) (n : Nat) (rest : Slab α) : Prop where
  capacity_eq : rest.capacity = n
  kept : ∀ i, i < slab.capacity → rest.slots[i]? = slab.slots[i]?
  added : ∀ i, slab.capacity ≤ i → i < n → ∃ next, rest.slots[i]? = some (.vacant next)

theorem extends_extend (hn : slab.capacity < n) : slab.Extends n (slab.extend n) where
  capacity_eq := capacity_extend (Nat.le_of_lt hn)
  kept _ hi := slots_extend hi
  added _ hi hlt := ⟨_, slots_extend_of_ge hi hlt⟩

theorem Links.exists_grow (h : slab.Links is) (hn : slab.capacity < n) (hs : n ≤ storageLimit) :
    ∃ rest, grow n slab = .ok () rest ∧ slab.Extends n rest ∧
      rest.Links (List.range' slab.capacity (n - slab.capacity) ++ is) :=
  ⟨_, grow_of_lt hn hs, extends_extend hn, h.extend hn⟩

theorem Links.exists_fill (h : slab.Links (i :: is)) (a : α) :
    ∃ popped rest, pop slab = .ok (some i) popped ∧ occupy i a popped = .ok () rest ∧
      slab.Sets i (.occupied a) rest ∧ rest.Links is :=
  ⟨_, _, pop_of_links h, occupy_of_links h a, sets_setIfInBounds (h.lt_capacity List.mem_cons_self) _ _, h.insert a⟩

theorem Links.exists_vacate (h : slab.Links is) (hi : slab.get? i = some a) :
    ∃ rest, Slab.vacate i slab = .ok (some a) rest ∧ slab.Sets i (.vacant slab.head) rest ∧ rest.Links (i :: is) :=
  ⟨_, vacate_of_get? hi, sets_setIfInBounds (lt_capacity_of_get? hi) _ _, h.vacate (vacate?_eq_some_iff.mpr ⟨hi, rfl⟩)⟩

theorem Links.exists_modify (h : slab.Links is) (hi : slab.get? i = some a) (f : α → α) :
    ∃ rest, modify i f slab = .ok (some (f a)) rest ∧ slab.Sets i (.occupied (f a)) rest ∧
      rest.head = slab.head ∧ rest.Links is :=
  ⟨_, modify_of_get? hi f, sets_setIfInBounds (lt_capacity_of_get? hi) _ _, rfl, h.put hi (f a)⟩

/-- Added slots come first in the list, in index order. Of the vacant slots the first in the list is filled, a
vacated one becomes the first, and a change of an entry is not seen in the list. Where there is no vacant slot to
fill or no entry to vacate or change, the slab stays as it was. -/
theorem steps_keep_links (h : slab.Links is) :
    (∀ n, slab.capacity < n → n ≤ storageLimit → ∃ rest, grow n slab = .ok () rest ∧ slab.Extends n rest ∧
        rest.Links (List.range' slab.capacity (n - slab.capacity) ++ is)) ∧
      ((is = [] → pop slab = .ok none slab) ∧
        ∀ i js, is = i :: js → ∀ a, ∃ popped rest, pop slab = .ok (some i) popped ∧
          occupy i a popped = .ok () rest ∧ slab.Sets i (.occupied a) rest ∧ rest.Links js) ∧
      (∀ i, (slab.get? i = none → vacate i slab = .ok none slab) ∧
        ∀ a, slab.get? i = some a → ∃ rest, vacate i slab = .ok (some a) rest ∧
          slab.Sets i (.vacant slab.head) rest ∧ rest.Links (i :: is)) ∧
      ∀ i f, (slab.get? i = none → modify i f slab = .ok none slab) ∧
        ∀ a, slab.get? i = some a → ∃ rest, modify i f slab = .ok (some (f a)) rest ∧
          slab.Sets i (.occupied (f a)) rest ∧ rest.head = slab.head ∧ rest.Links is := by
  refine ⟨fun n hn hs => h.exists_grow hn hs, ⟨?_, ?_⟩, fun i => ⟨vacate_of_get?_eq_none, ?_⟩, fun i f => ⟨?_, ?_⟩⟩
  · rintro rfl
    exact pop_of_links_nil h
  · rintro i js rfl a
    exact h.exists_fill a
  · intro a hi
    exact h.exists_vacate hi
  · intro hi
    exact modify_of_get?_eq_none hi f
  · intro a hi
    exact h.exists_modify hi f

theorem steps_keep_links_of_three :
    ∃ slab : Slab Nat, slab.Links [1, 2] ∧ (∃ rest, grow 5 slab = .ok () rest ∧ rest.Links [3, 4, 1, 2]) ∧
      (∃ popped rest, pop slab = .ok (some 1) popped ∧ occupy 1 8 popped = .ok () rest ∧ rest.Links [2]) ∧
      (∃ rest, vacate 0 slab = .ok (some 7) rest ∧ rest.Links [0, 1, 2]) ∧ vacate 2 slab = .ok none slab ∧
      ∃ rest, modify 0 (· + 1) slab = .ok (some 8) rest ∧ rest.Links [1, 2] := by
  have hl : Links ⟨#[.occupied 7, .vacant (some 2), .vacant none], some 1⟩ [1, 2] := by
    refine ⟨.cons rfl (.cons rfl .nil), ?_⟩
    intro i next hi
    rcases i with _ | _ | _ | i <;> simp at hi ⊢
  obtain ⟨hgrow, ⟨-, hfill⟩, hvacate, hmodify⟩ := steps_keep_links hl
  refine ⟨_, hl, ?_, ?_, ?_, (hvacate 2).1 rfl, ?_⟩
  · obtain ⟨rest, hr, -, hrl⟩ := hgrow 5 (by decide) (by decide)
    exact ⟨rest, hr, hrl⟩
  · obtain ⟨popped, rest, hp, hr, -, hrl⟩ := hfill 1 [2] rfl 8
    exact ⟨popped, rest, hp, hr, hrl⟩
  · obtain ⟨rest, hr, -, hrl⟩ := (hvacate 0).2 7 rfl
    exact ⟨rest, hr, hrl⟩
  · obtain ⟨rest, hr, -, -, hrl⟩ := (hmodify 0 (· + 1)).2 7 rfl
    exact ⟨rest, hr, hrl⟩

end FaultRecovery.Slab
