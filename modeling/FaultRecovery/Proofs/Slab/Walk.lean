import FaultRecovery.Proofs.Slab.Vacancies
import Mathlib.Data.List.Nodup
import Mathlib.Data.List.Perm.Subperm

namespace FaultRecovery.Slab

variable {α : Type} {slab : Slab α} {link rest : Option Nat} {is js : List Nat}

/-- Followed from a link, vacant slots lead through these, in this order, and on to the link `rest`. -/
inductive Walk (slab : Slab α) : Option Nat → List Nat → Option Nat → Prop where
  | nil (link : Option Nat) : Walk slab link [] link
  | cons {i : Nat} {next rest : Option Nat} {is : List Nat} (hi : slab.slots[i]? = some (.vacant next))
      (his : Walk slab next is rest) : Walk slab (some i) (i :: is) rest

def Endless (slab : Slab α) (link : Option Nat) : Prop :=
  ∀ n, ∃ is rest, is.length = n ∧ slab.Walk link is rest

def Stuck (slab : Slab α) (link : Option Nat) : Prop :=
  ∀ i next, link = some i → slab.slots[i]? ≠ some (.vacant next)

theorem stuck_none : slab.Stuck none := by
  intro i next hi
  cases hi

theorem stuck_of_capacity_le {i : Nat} (hi : slab.capacity ≤ i) : slab.Stuck (some i) := by
  rintro _ next ⟨rfl⟩ hs
  exact Nat.not_lt_of_le hi (Array.getElem?_eq_some_iff.mp hs).1

theorem stuck_of_get? {i : Nat} {a : α} (hi : slab.get? i = some a) : slab.Stuck (some i) := by
  rintro _ next ⟨rfl⟩ hs
  rw [get?_eq_some_iff, hs] at hi
  cases hi

theorem Stuck.cases (h : slab.Stuck link) :
    link = none ∨ ∃ i, link = some i ∧ (slab.capacity ≤ i ∨ ∃ a, slab.get? i = some a) := by
  cases link with
  | none => exact .inl rfl
  | some i =>
      refine .inr ⟨i, rfl, ?_⟩
      cases hs : slab.slots[i]? with
      | none => exact .inl (Array.getElem?_eq_none_iff.mp hs)
      | some s =>
          cases s with
          | occupied a => exact .inr ⟨a, get?_eq_some_iff.mpr hs⟩
          | vacant next => exact absurd hs (h i next rfl)

namespace Walk

theorem cons_inv {i : Nat} (h : slab.Walk link (i :: is) rest) :
    ∃ next, link = some i ∧ slab.slots[i]? = some (.vacant next) ∧ slab.Walk next is rest := by
  cases h with
  | cons hi his => exact ⟨_, rfl, hi, his⟩

theorem append {mid : Option Nat} (h : slab.Walk link is mid) (h' : slab.Walk mid js rest) :
    slab.Walk link (is ++ js) rest := by
  induction h with
  | nil => exact h'
  | cons hi _ ih => exact .cons hi (ih h')

theorem split (h : slab.Walk link (is ++ js) rest) : ∃ mid, slab.Walk link is mid ∧ slab.Walk mid js rest := by
  induction is generalizing link with
  | nil => exact ⟨link, .nil link, h⟩
  | cons i is ih =>
      obtain ⟨next, rfl, hi, h⟩ := h.cons_inv
      obtain ⟨mid, hb, ha⟩ := ih h
      exact ⟨mid, .cons hi hb, ha⟩

theorem chain (h : slab.Walk link is none) : slab.Chain link is := by
  generalize hn : (none : Option Nat) = rest at h
  induction h with
  | nil =>
      subst hn
      exact .nil
  | cons hi _ ih => exact .cons hi (ih hn)

theorem mem_vacant (h : slab.Walk link is rest) {i : Nat} (hm : i ∈ is) : i ∈ slab.vacant := by
  induction h with
  | nil => cases hm
  | cons hi _ ih =>
      rcases List.mem_cons.mp hm with rfl | hm
      · exact mem_vacant_iff.mpr ⟨_, hi⟩
      · exact ih hm

theorem subperm_vacant (h : slab.Walk link is rest) (hd : is.Nodup) : is.Subperm slab.vacant :=
  hd.subperm fun _ hm => h.mem_vacant hm

theorem length_le (h : slab.Walk link is rest) (hd : is.Nodup) : is.length ≤ slab.vacancies := by
  rw [← length_vacant]
  exact (h.subperm_vacant hd).length_le

theorem count_eq_one (h : slab.Walk link is rest) (hd : is.Nodup) (hl : is.length = slab.vacancies) {i : Nat}
    {next : Option Nat} (hi : slab.slots[i]? = some (.vacant next)) : is.count i = 1 := by
  have hle : slab.vacant.length ≤ is.length := Nat.le_of_eq (slab.length_vacant.trans hl.symm)
  have hp : is.Perm slab.vacant := (h.subperm_vacant hd).perm_of_length_le hle
  exact List.count_eq_one_of_mem hd (hp.mem_iff.mpr (mem_vacant_iff.mpr ⟨next, hi⟩))

end Walk

namespace Endless

theorem cons {i : Nat} {next : Option Nat} (hi : slab.slots[i]? = some (.vacant next)) (h : slab.Endless next) :
    slab.Endless (some i) := by
  intro n
  cases n with
  | zero => exact ⟨[], some i, rfl, .nil _⟩
  | succ n =>
      obtain ⟨is, rest, hn, hw⟩ := h n
      exact ⟨i :: is, rest, congrArg (· + 1) hn, .cons hi hw⟩

theorem tail {i : Nat} {next : Option Nat} (h : slab.Endless (some i))
    (hi : slab.slots[i]? = some (.vacant next)) : slab.Endless next := by
  intro n
  obtain ⟨is, rest, hn, hw⟩ := h (n + 1)
  obtain ⟨j, js, rfl⟩ := List.exists_cons_of_length_eq_add_one hn
  obtain ⟨next', hj, hs, hw⟩ := hw.cons_inv
  obtain rfl := Option.some.inj hj
  obtain rfl := Slot.vacant.inj (Option.some.inj (hi.symm.trans hs))
  exact ⟨js, rest, Nat.succ.inj hn, hw⟩

theorem of_loop {i : Nat} (h : slab.Walk (some i) (i :: is) (some i)) : slab.Endless (some i) := by
  intro n
  induction n using Nat.strongRecOn with
  | ind n ih =>
      rcases Nat.lt_or_ge n (i :: is).length with hlt | hge
      · rw [← List.take_append_drop n (i :: is)] at h
        obtain ⟨mid, hw, -⟩ := h.split
        exact ⟨_, mid, List.length_take_of_le (Nat.le_of_lt hlt), hw⟩
      · obtain ⟨js, rest, hn, hw⟩ := ih (n - (i :: is).length) (Nat.sub_lt_of_pos_le (Nat.zero_lt_succ _) hge)
        refine ⟨_, rest, ?_, h.append hw⟩
        rw [List.length_append, hn]
        exact Nat.add_sub_cancel' hge

end Endless

namespace Walk

theorem endless_of_not_nodup (h : slab.Walk link is rest) (hd : ¬ is.Nodup) : slab.Endless link := by
  induction h with
  | nil => exact absurd List.nodup_nil hd
  | @cons i next rest is hi hw ih =>
      by_cases hm : i ∈ is
      · -- Up to where `i` is met again the walk is a loop.
        obtain ⟨before, after, rfl⟩ := List.append_of_mem hm
        obtain ⟨mid, hb, ha⟩ := hw.split
        obtain ⟨-, rfl, -, -⟩ := ha.cons_inv
        exact .of_loop (.cons hi hb)
      · exact (ih fun hn => hd (List.nodup_cons.mpr ⟨hm, hn⟩)).cons hi

theorem not_endless (h : slab.Walk link is rest) (hs : slab.Stuck rest) : ¬ slab.Endless link := by
  induction h with
  | nil link =>
      intro he
      obtain ⟨is, rest, hn, hw⟩ := he 1
      obtain ⟨i, rfl⟩ := List.length_eq_one_iff.mp hn
      obtain ⟨next, rfl, hi, -⟩ := hw.cons_inv
      exact hs i next rfl hi
  | cons hi _ ih =>
      intro he
      exact ih hs (he.tail hi)

theorem nodup_of_stuck (h : slab.Walk link is rest) (hs : slab.Stuck rest) : is.Nodup := by
  apply Classical.byContradiction
  intro hd
  exact h.not_endless hs (h.endless_of_not_nodup hd)

end Walk

theorem endless_iff : slab.Endless link ↔ ∃ is rest, slab.Walk link is rest ∧ ¬ is.Nodup := by
  constructor
  · intro h
    -- One slot more than are vacant, so one is met twice.
    obtain ⟨is, rest, hn, hw⟩ := h (slab.vacancies + 1)
    refine ⟨is, rest, hw, ?_⟩
    intro hd
    have hle := hw.length_le hd
    omega
  · rintro ⟨is, rest, hw, hd⟩
    exact hw.endless_of_not_nodup hd

theorem walk_stuck_or_vacant (slab : Slab α) (n : Nat) (link : Option Nat) :
    (∃ is rest, slab.Walk link is rest ∧ slab.Stuck rest) ∨
      ∃ is rest, is.length = n ∧ slab.Walk link is rest := by
  induction n generalizing link with
  | zero => exact .inr ⟨[], link, rfl, .nil link⟩
  | succ n ih =>
      by_cases hs : slab.Stuck link
      · exact .inl ⟨[], link, .nil link, hs⟩
      · simp only [Stuck, not_forall, not_not] at hs
        obtain ⟨i, next, rfl, hi⟩ := hs
        obtain ⟨is, rest, hw, hr⟩ | ⟨is, rest, hn, hw⟩ := ih next
        · exact .inl ⟨i :: is, rest, .cons hi hw, hr⟩
        · exact .inr ⟨i :: is, rest, congrArg (· + 1) hn, .cons hi hw⟩

theorem walk_stuck_or_endless (slab : Slab α) (link : Option Nat) :
    (∃ is rest, slab.Walk link is rest ∧ slab.Stuck rest) ∨ slab.Endless link := by
  by_cases hs : ∃ is rest, slab.Walk link is rest ∧ slab.Stuck rest
  · exact .inl hs
  · refine .inr ?_
    intro n
    exact (slab.walk_stuck_or_vacant n link).resolve_left hs

theorem Walk.trail_add (h : slab.Walk link is rest) (fuel : Nat) :
    slab.trail (is.length + fuel) link = (slab.trail fuel rest).map (is ++ ·) := by
  induction h with
  | nil link =>
      rw [List.length_nil, Nat.zero_add]
      cases slab.trail fuel link <;> rfl
  | @cons i next rest is hi _ ih =>
      rw [List.length_cons, Nat.add_right_comm, trail]
      simp only [hi, ih]
      cases slab.trail fuel rest <;> rfl

theorem Walk.trail_capacity (h : slab.Walk link is rest) (hs : slab.Stuck rest) :
    slab.trail slab.capacity link = (slab.trail (slab.capacity - is.length) rest).map (is ++ ·) := by
  have hle : is.length ≤ slab.capacity :=
    Nat.le_trans (h.length_le (h.nodup_of_stuck hs)) slab.vacancies_le_capacity
  rw [← h.trail_add, Nat.add_sub_cancel' hle]

theorem trail_of_capacity_le {fuel i : Nat} (hi : slab.capacity ≤ i) :
    slab.trail fuel (some i) = .error (.linkOutOfBounds i slab.capacity) := by
  have hs : slab.slots[i]? = none := Array.getElem?_eq_none hi
  rw [trail]
  simp only [hs]

theorem trail_of_get? {fuel i : Nat} {a : α} (hi : slab.get? i = some a) :
    slab.trail fuel (some i) = .error (.linkToOccupied i) := by
  rw [get?_eq_some_iff] at hi
  rw [trail]
  simp only [hi]

theorem Endless.trail_eq (h : slab.Endless link) (fuel : Nat) : slab.trail fuel link = .error .cycle := by
  obtain ⟨is, rest, hn, hw⟩ := h (fuel + 1)
  obtain ⟨js, i, rfl⟩ : ∃ js i, is = js ++ [i] := by
    refine ⟨is.dropLast, is.getLast (List.ne_nil_of_length_eq_add_one hn), ?_⟩
    rw [List.dropLast_concat_getLast]
  obtain ⟨mid, hb, ha⟩ := hw.split
  obtain ⟨next, rfl, hi, -⟩ := ha.cons_inv
  have hl : js.length + 0 = fuel := by simpa using hn
  rw [← hl, hb.trail_add, trail]
  simp only [hi]
  rfl

end FaultRecovery.Slab
