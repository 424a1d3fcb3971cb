import FaultRecovery.Slab.FreeList
import FaultRecovery.Slab.Step

namespace FaultRecovery.Slab

variable {α : Type}

theorem Chain.cons_inv {slab : Slab α} {link : Option Nat} {i : Nat} {is : List Nat}
    (h : slab.Chain link (i :: is)) :
    ∃ next, link = some i ∧ slab.slots[i]? = some (.vacant next) ∧ slab.Chain next is := by
  cases h with
  | cons hi his => exact ⟨_, rfl, hi, his⟩

theorem Chain.vacant_of_mem {slab : Slab α} {link : Option Nat} {is : List Nat} (h : slab.Chain link is)
    {i : Nat} (hm : i ∈ is) : ∃ next, slab.slots[i]? = some (.vacant next) := by
  induction h with
  | nil => simp at hm
  | cons hi _ ih =>
      rcases List.mem_cons.mp hm with rfl | hm
      · exact ⟨_, hi⟩
      · exact ih hm

theorem Chain.of_mem {slab : Slab α} {link : Option Nat} {is : List Nat} (h : slab.Chain link is)
    {i : Nat} (hm : i ∈ is) : ∃ js, slab.Chain (some i) js ∧ js.length ≤ is.length := by
  induction h with
  | nil => simp at hm
  | cons hi his ih =>
      rcases List.mem_cons.mp hm with rfl | hm
      · exact ⟨_, .cons hi his, Nat.le_refl _⟩
      · obtain ⟨js, hj, hl⟩ := ih hm
        exact ⟨js, hj, Nat.le_succ_of_le hl⟩

theorem Chain.nodup {slab : Slab α} {link : Option Nat} {is : List Nat} (h : slab.Chain link is) :
    is.Nodup := by
  induction h with
  | nil => exact List.nodup_nil
  | cons hi his ih =>
      refine List.nodup_cons.mpr ⟨?_, ih⟩
      intro hm
      -- A slot met twice would be followed by lists of two lengths.
      obtain ⟨js, hj, hl⟩ := his.of_mem hm
      rw [(Chain.cons hi his).unique hj |>.symm, List.length_cons] at hl
      omega

theorem Chain.congr {slab rest : Slab α} {link : Option Nat} {is : List Nat} (h : slab.Chain link is)
    (hs : ∀ i ∈ is, rest.slots[i]? = slab.slots[i]?) : rest.Chain link is := by
  induction h with
  | nil => exact .nil
  | cons hi _ ih =>
      apply Chain.cons ((hs _ List.mem_cons_self).trans hi)
      apply ih
      intro j hj
      exact hs j (List.mem_cons_of_mem _ hj)

theorem slots_put (slab : Slab α) (i j : Nat) (a : α) :
    (slab.put i a).slots[j]? = if i = j ∧ i < slab.capacity then some (.occupied a) else slab.slots[j]? := by
  rw [put, Array.getElem?_setIfInBounds, capacity]
  by_cases hj : i = j
  · subst hj
    by_cases hi : i < slab.slots.size <;> simp [hi]
  · simp [hj]

theorem slots_put_of_ne {slab : Slab α} {i j : Nat} {a : α} (h : i ≠ j) :
    (slab.put i a).slots[j]? = slab.slots[j]? := by
  rw [slots_put, if_neg fun hc => h hc.1]

theorem slots_extend_of_ge {slab : Slab α} {n i : Nat} (h : slab.capacity ≤ i) (hn : i < n) :
    (slab.extend n).slots[i]? = some (.vacant (if i + 1 < n then some (i + 1) else slab.head)) := by
  have hi : slab.capacity + (i - slab.slots.size) = i := Nat.add_sub_cancel' h
  have hl : i - slab.slots.size < n - slab.capacity := by
    rw [capacity] at h ⊢
    omega
  rw [extend, Array.getElem?_append_right h, Array.getElem?_map, Array.getElem?_range', if_pos hl,
    Nat.one_mul, hi]
  rfl

theorem slots_clear_of_ne {slab : Slab α} {i j : Nat} {next head : Option Nat} (h : i ≠ j) :
    (⟨slab.slots.setIfInBounds i (.vacant next), head⟩ : Slab α).slots[j]? = slab.slots[j]? :=
  Array.getElem?_setIfInBounds_ne h

def vacant (slab : Slab α) : List Nat :=
  (List.range slab.capacity).filter fun i => slab.slots[i]?.any Slot.isVacant

theorem mem_vacant_iff {slab : Slab α} {i : Nat} :
    i ∈ slab.vacant ↔ ∃ next, slab.slots[i]? = some (.vacant next) := by
  rw [vacant, List.mem_filter, List.mem_range, capacity]
  cases h : slab.slots[i]? with
  | none => simp
  | some s =>
      have hi := (Array.getElem?_eq_some_iff.mp h).1
      cases s <;> simp [Slot.isVacant, hi]

theorem countP_isVacant (xs : List (Slot α)) :
    (List.range xs.length).countP (fun i => xs[i]?.any Slot.isVacant) = xs.countP Slot.isVacant := by
  induction xs with
  | nil => rfl
  | cons s xs ih =>
      rw [List.length_cons, List.range_succ_eq_map, List.countP_cons, List.countP_map, List.countP_cons, ← ih]
      rfl

theorem length_vacant (slab : Slab α) : slab.vacant.length = slab.vacancies := by
  have h := countP_isVacant slab.slots.toList
  simp only [Array.countP_toList, Array.length_toList, Array.getElem?_toList] at h
  rw [vacant, ← List.countP_eq_length_filter]
  exact h

theorem vacancies_le_capacity (slab : Slab α) : slab.vacancies ≤ slab.capacity := Array.countP_le_size

theorem length_entries_add_vacancies (slab : Slab α) :
    slab.entries.length + slab.vacancies = slab.capacity := by
  have hp : (fun s : Slot α => decide (¬ s.isVacant = true)) = fun s => s.content?.isSome := by
    funext s
    cases s <;> rfl
  have h := List.length_eq_countP_add_countP Slot.isVacant (l := slab.slots.toList)
  rw [hp, Array.countP_toList, Array.length_toList] at h
  rw [entries, List.length_filterMap_eq_countP, vacancies, capacity, h, Nat.add_comm]

theorem size_eq_length_entries (slab : Slab α) : slab.size = slab.entries.length := by
  rw [size, ← slab.length_entries_add_vacancies, Nat.add_sub_cancel]

namespace Links

variable {slab : Slab α} {is : List Nat}

theorem nodup (h : slab.Links is) : is.Nodup := h.chain.nodup

theorem mem_iff (h : slab.Links is) {i : Nat} : i ∈ is ↔ ∃ next, slab.slots[i]? = some (.vacant next) :=
  ⟨h.chain.vacant_of_mem, fun ⟨next, hi⟩ => h.complete i next hi⟩

theorem perm_vacant (h : slab.Links is) : is.Perm slab.vacant := by
  apply (List.perm_ext_iff_of_nodup h.nodup (List.nodup_range.filter _)).mpr
  intro i
  rw [h.mem_iff, ← mem_vacant_iff]
  rfl

theorem length_eq (h : slab.Links is) : is.length = slab.vacancies :=
  h.perm_vacant.length_eq.trans slab.length_vacant

theorem length_entries (h : slab.Links is) : slab.entries.length + is.length = slab.capacity := by
  rw [h.length_eq]
  exact slab.length_entries_add_vacancies

theorem lt_capacity (h : slab.Links is) {i : Nat} (hi : i ∈ is) : i < slab.capacity := by
  obtain ⟨next, hn⟩ := h.mem_iff.mp hi
  exact (Array.getElem?_eq_some_iff.mp hn).1

theorem get?_eq_none (h : slab.Links is) {i : Nat} (hi : i ∈ is) : slab.get? i = none := by
  obtain ⟨next, hn⟩ := h.mem_iff.mp hi
  rw [get?, hn]
  rfl

theorem checkLinks_eq (h : slab.Links is) : slab.checkLinks = .ok () := by
  have hl : is.length ≤ slab.capacity := h.length_eq ▸ slab.vacancies_le_capacity
  simp only [checkLinks, h.chain.trail_eq_ok hl, h.length_eq, if_true]

end Links

theorem links_empty : (empty : Slab α).Links [] := ⟨.nil, fun i next h => by simp [empty] at h⟩

def link? (slab : Slab α) (i : Nat) : Option Nat :=
  match slab.slots[i]? with
  | some (.vacant next) => next
  | some (.occupied _) => none
  | none => none

/-- Unlinks slot `i`, which is to be the first vacant one, and fills it. -/
def insert (slab : Slab α) (i : Nat) (a : α) : Slab α := { slab.put i a with head := slab.link? i }

theorem capacity_insert (slab : Slab α) (i : Nat) (a : α) :
    (slab.insert i a).capacity = slab.capacity := slab.capacity_put i a

theorem get?_insert {slab : Slab α} {i j : Nat} {a : α} (h : i < slab.capacity) :
    (slab.insert i a).get? j = if i = j then some a else slab.get? j := get?_put h

theorem link?_eq {slab : Slab α} {i : Nat} {next : Option Nat} (h : slab.slots[i]? = some (.vacant next)) :
    slab.link? i = next := by
  rw [link?, h]

theorem Links.head_eq {slab : Slab α} {i : Nat} {is : List Nat} (h : slab.Links (i :: is)) :
    slab.head = some i ∧ slab.slots[i]? = some (.vacant (slab.link? i)) := by
  obtain ⟨next, hh, hi, -⟩ := h.chain.cons_inv
  exact ⟨hh, by rw [hi, link?_eq hi]⟩

theorem Links.head_eq_none {slab : Slab α} (h : slab.Links []) : slab.head = none := by
  have hc := h.chain
  generalize slab.head = link at hc
  cases hc
  rfl

theorem Links.insert {slab : Slab α} {i : Nat} {is : List Nat} (h : slab.Links (i :: is)) (a : α) :
    (slab.insert i a).Links is := by
  obtain ⟨next, -, hi, hc⟩ := h.chain.cons_inv
  have hni : i ∉ is := (List.nodup_cons.mp h.nodup).1
  constructor
  · change (slab.insert i a).Chain (slab.link? i) is
    rw [link?_eq hi]
    exact hc.congr fun j hj => slots_put_of_ne fun he => hni (he ▸ hj)
  · intro j next hj
    change (slab.put i a).slots[j]? = _ at hj
    rw [slots_put] at hj
    split at hj
    · simp at hj
    · rename_i hne
      have hm := h.complete j next hj
      rcases List.mem_cons.mp hm with rfl | hm
      · exact absurd ⟨rfl, h.lt_capacity List.mem_cons_self⟩ hne
      · exact hm

theorem Links.length_entries_insert {slab : Slab α} {i : Nat} {is : List Nat} (h : slab.Links (i :: is)) (a : α) :
    (slab.insert i a).entries.length = slab.entries.length + 1 := by
  have hs := h.length_entries
  have hi := (h.insert a).length_entries
  rw [capacity_insert] at hi
  rw [List.length_cons] at hs
  omega

theorem Links.put {slab : Slab α} {i : Nat} {is : List Nat} {a : α} (h : slab.Links is)
    (hi : slab.get? i = some a) (b : α) : (slab.put i b).Links is := by
  have hni : i ∉ is := fun hm => by simp [h.get?_eq_none hm] at hi
  constructor
  · exact h.chain.congr fun j hj => slots_put_of_ne fun he => hni (he ▸ hj)
  · intro j next hj
    rw [slots_put] at hj
    split at hj
    · simp at hj
    · exact h.complete j next hj

theorem vacate?_eq_some_iff {slab rest : Slab α} {i : Nat} {a : α} :
    slab.vacate? i = some (a, rest) ↔
      slab.get? i = some a ∧ rest = ⟨slab.slots.setIfInBounds i (.vacant slab.head), some i⟩ := by
  cases hi : slab.get? i with
  | none => simp [vacate?, hi]
  | some b => simp [vacate?, hi, eq_comm]

theorem capacity_of_vacate? {slab rest : Slab α} {i : Nat} {a : α} (h : slab.vacate? i = some (a, rest)) :
    rest.capacity = slab.capacity := by
  obtain ⟨-, rfl⟩ := vacate?_eq_some_iff.mp h
  exact Array.size_setIfInBounds

theorem Links.vacate {slab rest : Slab α} {i : Nat} {is : List Nat} {a : α} (h : slab.Links is)
    (hi : slab.vacate? i = some (a, rest)) : rest.Links (i :: is) := by
  obtain ⟨ha, rfl⟩ := vacate?_eq_some_iff.mp hi
  have hni : i ∉ is := fun hm => by simp [h.get?_eq_none hm] at ha
  have hlt : i < slab.slots.size := (Array.getElem?_eq_some_iff.mp (get?_eq_some_iff.mp ha)).1
  constructor
  · refine .cons (Array.getElem?_setIfInBounds_self_of_lt hlt) ?_
    exact h.chain.congr fun j hj => slots_clear_of_ne fun he => hni (he ▸ hj)
  · intro j next hj
    by_cases he : i = j
    · exact he ▸ List.mem_cons_self
    · rw [slots_clear_of_ne he] at hj
      exact List.mem_cons_of_mem _ (h.complete j next hj)

theorem Chain.extend {slab : Slab α} {is : List Nat} (h : slab.Chain slab.head is)
    (hs : ∀ j ∈ is, j < slab.capacity) {n i m : Nat} (hi : slab.capacity ≤ i) (hm : i + m = n) :
    (slab.extend n).Chain (if i < n then some i else slab.head) (List.range' i m ++ is) := by
  induction m generalizing i with
  | zero =>
      rw [if_neg (by omega)]
      exact h.congr fun j hj => slots_extend (hs j hj)
  | succ m ih =>
      rw [if_pos (by omega), List.range'_succ, List.cons_append]
      exact .cons (slots_extend_of_ge hi (by omega)) (ih (by omega) (by omega))

theorem Links.extend {slab : Slab α} {is : List Nat} (h : slab.Links is) {n : Nat}
    (hn : slab.capacity < n) :
    (slab.extend n).Links (List.range' slab.capacity (n - slab.capacity) ++ is) := by
  constructor
  · have hc := h.chain.extend (fun j hj => h.lt_capacity hj) (Nat.le_refl slab.capacity)
      (Nat.add_sub_cancel' (Nat.le_of_lt hn))
    rwa [if_pos hn] at hc
  · intro j next hj
    rcases Nat.lt_or_ge j slab.capacity with hlt | hge
    · rw [slots_extend hlt] at hj
      exact List.mem_append_right _ (h.complete j next hj)
    · have hlt : j < (slab.extend n).capacity := (Array.getElem?_eq_some_iff.mp hj).1
      rw [capacity_extend (Nat.le_of_lt hn)] at hlt
      refine List.mem_append_left _ (List.mem_range'_1.mpr ⟨hge, ?_⟩)
      omega

theorem Links.length_entries_extend {slab : Slab α} {is : List Nat} (h : slab.Links is) {n : Nat}
    (hn : slab.capacity < n) : (slab.extend n).entries.length = slab.entries.length := by
  have hs := h.length_entries
  have hx := (h.extend hn).length_entries
  rw [capacity_extend (Nat.le_of_lt hn), List.length_append, List.length_range'] at hx
  omega

theorem Links.extend_of_nil {slab : Slab α} (h : slab.Links []) {n : Nat} (hn : slab.capacity < n) :
    (slab.extend n).Links
      (slab.capacity :: List.range' (slab.capacity + 1) (n - (slab.capacity + 1))) := by
  have hx := h.extend hn
  have hm : n - slab.capacity = n - (slab.capacity + 1) + 1 := by omega
  rwa [hm, List.range'_succ, List.append_nil] at hx

end FaultRecovery.Slab
