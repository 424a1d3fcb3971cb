import FaultRecovery.Consistency

namespace FaultRecovery.Slab

variable {α : Type}

/-- Of the entries with the property, which may look at the slot too, `a` sits in the first slot. -/
structure First (slab : Slab α) (p : Nat → α → Prop) (i : Nat) (a : α) : Prop where
  entry : slab.get? i = some a
  holds : p i a
  before : ∀ j b, j < i → slab.get? j = some b → ¬ p j b

theorem First.unique {slab : Slab α} {p : Nat → α → Prop} {i j : Nat} {a b : α}
    (hi : slab.First p i a) (hj : slab.First p j b) : i = j ∧ a = b := by
  have hij : i = j := by
    rcases Nat.lt_trichotomy i j with h | h | h
    · exact absurd hi.holds (hj.before i a h hi.entry)
    · exact h
    · exact absurd hj.holds (hi.before j b h hj.entry)
  subst hij
  exact ⟨rfl, Option.some.inj (hi.entry.symm.trans hj.entry)⟩

theorem exists_first_iff {slab : Slab α} {p : Nat → α → Prop} :
    (∃ i a, slab.First p i a) ↔ ∃ i a, slab.get? i = some a ∧ p i a := by
  constructor
  · rintro ⟨i, a, h⟩
    exact ⟨i, a, h.entry, h.holds⟩
  · rintro ⟨i, a, hi, ha⟩
    induction i using Nat.strongRecOn generalizing a with
    | ind i ih =>
        by_cases h : ∃ j b, j < i ∧ slab.get? j = some b ∧ p j b
        · obtain ⟨j, b, hj, hb, hp⟩ := h
          exact ih j hj b hb hp
        · refine ⟨i, a, hi, ha, ?_⟩
          intro j b hj hb hp
          exact h ⟨j, b, hj, hb, hp⟩

theorem First.congr {slab rest : Slab α} {p : Nat → α → Prop} {i : Nat} {a : α} (h : slab.First p i a)
    (hp : ∀ j b, p j b → (rest.get? j = some b ↔ slab.get? j = some b)) : rest.First p i a := by
  refine ⟨(hp i a h.holds).mpr h.entry, h.holds, ?_⟩
  intro j b hj hb hn
  exact h.before j b hj ((hp j b hn).mp hb) hn

theorem lt_capacity_of_get? {slab : Slab α} {i : Nat} {a : α} (h : slab.get? i = some a) :
    i < slab.capacity :=
  (Array.getElem?_eq_some_iff.mp (get?_eq_some_iff.mp h)).1

theorem get?_put_of_get? {slab : Slab α} {i : Nat} {a : α} (h : slab.get? i = some a) (b : α) (j : Nat) :
    (slab.put i b).get? j = if i = j then some b else slab.get? j :=
  get?_put (lt_capacity_of_get? h)

theorem forall_get?_put_iff {slab : Slab α} {i : Nat} {a : α} (h : slab.get? i = some a) (b : α) {p : α → Prop} :
    (∀ j e, (slab.put i b).get? j = some e → p e) ↔ p b ∧ ∀ j e, j ≠ i → slab.get? j = some e → p e := by
  simp only [get?_put_of_get? h]
  constructor
  · intro hp
    exact ⟨hp i b (if_pos rfl), fun j e hj he => hp j e ((if_neg (Ne.symm hj)).trans he)⟩
  · rintro ⟨hb, ho⟩ j e he
    by_cases hj : i = j
    · rw [if_pos hj] at he
      obtain rfl := Option.some.inj he
      exact hb
    · exact ho j e (Ne.symm hj) ((if_neg hj).symm.trans he)

theorem mem_entries_iff {slab : Slab α} {a : α} : a ∈ slab.entries ↔ ∃ i, slab.get? i = some a := by
  rw [entries, List.mem_filterMap]
  constructor
  · rintro ⟨s, hs, ha⟩
    obtain ⟨i, hi⟩ := List.mem_iff_getElem?.mp hs
    exact ⟨i, by rw [get?, ← Array.getElem?_toList, hi]; exact ha⟩
  · rintro ⟨i, hi⟩
    rw [get?_eq_some_iff, ← Array.getElem?_toList] at hi
    exact ⟨.occupied a, List.mem_of_getElem? hi, rfl⟩

theorem find?_entries_eq_none_iff {slab : Slab α} {p : α → Bool} :
    slab.entries.find? p = none ↔ ∀ i a, slab.get? i = some a → p a = false := by
  simp only [List.find?_eq_none, mem_entries_iff, Bool.not_eq_true]
  constructor
  · intro h i a ha
    exact h a ⟨i, ha⟩
  · rintro h a ⟨i, ha⟩
    exact h i a ha

theorem find?_entries_eq_some_iff {slab : Slab α} {p : α → Bool} {a : α} :
    slab.entries.find? p = some a ↔ ∃ i, slab.First (fun _ b => p b = true) i a := by
  rw [entries, List.find?_filterMap, Option.bind_eq_some_iff]
  constructor
  · rintro ⟨s, hs, ha⟩
    obtain ⟨hp, i, hi, rfl, hb⟩ := List.find?_eq_some_iff_getElem.mp hs
    have hget (j : Nat) (hj : j < slab.slots.toList.length) :
        slab.get? j = slab.slots.toList[j].content? := by
      rw [get?, ← Array.getElem?_toList, List.getElem?_eq_getElem hj]
      rfl
    refine ⟨i, by rw [hget i hi, ha], by simpa only [ha, Option.any_some] using hp, ?_⟩
    intro j b hj hb'
    have hn := hb j hj
    rw [hget j (Nat.lt_trans hj hi)] at hb'
    simpa only [hb', Option.any_some, Bool.not_eq_true', Bool.not_eq_true] using hn
  · rintro ⟨i, hi⟩
    obtain ⟨hlt, hs⟩ := List.getElem?_eq_some_iff.mp
      (Array.getElem?_toList.trans (get?_eq_some_iff.mp hi.entry))
    refine ⟨.occupied a, List.find?_eq_some_iff_getElem.mpr ⟨hi.holds, i, hlt, hs, fun j hj => ?_⟩, rfl⟩
    cases hc : slab.slots.toList[j].content? with
    | none => rfl
    | some b =>
        have hb : slab.get? j = some b := by
          rw [get?, ← Array.getElem?_toList, List.getElem?_eq_getElem (Nat.lt_trans hj hlt)]
          exact hc
        simpa using hi.before j b hj hb

theorem find?_entries_congr {slab rest : Slab α} {p : α → Bool}
    (h : ∀ i a, p a = true → (rest.get? i = some a ↔ slab.get? i = some a)) :
    rest.entries.find? p = slab.entries.find? p := by
  ext a
  rw [find?_entries_eq_some_iff, find?_entries_eq_some_iff]
  apply exists_congr
  intro i
  constructor
  · intro hi
    exact hi.congr fun j b hb => (h j b hb).symm
  · intro hi
    exact hi.congr h

/-- The slab with a vacant slot `i`, which the list of vacant slots need not reach. -/
def clear (slab : Slab α) (i : Nat) (next : Option Nat) : Slab α :=
  { slab with slots := slab.slots.setIfInBounds i (.vacant next) }

theorem get?_clear (slab : Slab α) (i j : Nat) (next : Option Nat) :
    (slab.clear i next).get? j = if i = j then none else slab.get? j := by
  rw [get?, clear, Array.getElem?_setIfInBounds]
  by_cases hj : i = j
  · rw [if_pos hj, if_pos hj]
    split <;> rfl
  · rw [if_neg hj, if_neg hj]
    rfl

theorem filterMap_zipIdx (xs : List (Slot α)) (k : Nat) :
    (xs.zipIdx k).filterMap (fun s => s.1.content?) = xs.filterMap Slot.content? := by
  induction xs generalizing k with
  | nil => rfl
  | cons s xs ih => rw [List.zipIdx_cons, List.filterMap_cons, ih, List.filterMap_cons]

theorem filterMap_zipIdx_ne (xs : List (Slot α)) (i k : Nat) (next : Option Nat) :
    ((xs.zipIdx k).filter fun s => s.2 != k + i).filterMap (fun s => s.1.content?) =
      (xs.set i (.vacant next)).filterMap Slot.content? := by
  induction xs generalizing i k with
  | nil => rfl
  | cons s xs ih =>
      cases i with
      | zero =>
          have hk : ((xs.zipIdx (k + 1)).filter fun s => s.2 != k) = xs.zipIdx (k + 1) := by
            rw [List.filter_eq_self]
            intro t ht
            have hle := List.le_snd_of_mem_zipIdx ht
            rw [bne_iff_ne]
            omega
          rw [Nat.add_zero, List.zipIdx_cons, List.filter_cons_of_neg (by simp), hk, filterMap_zipIdx]
          rfl
      | succ i =>
          have h := ih i (k + 1)
          rw [Nat.add_assoc, Nat.add_comm 1 i] at h
          cases hs : s.content? <;> simpa [List.zipIdx_cons, hs] using h

theorem others_eq_entries_clear (slab : Slab α) (i : Nat) (next : Option Nat) :
    slab.others i = (slab.clear i next).entries := by
  have h := filterMap_zipIdx_ne slab.slots.toList i 0 next
  rw [Nat.zero_add] at h
  rw [others, h, entries, clear, Array.toList_setIfInBounds]

theorem find?_others_eq_some_iff {slab : Slab α} {p : α → Bool} {i : Nat} {a : α} :
    (slab.others i).find? p = some a ↔ ∃ j, slab.First (fun k b => k ≠ i ∧ p b = true) j a := by
  rw [others_eq_entries_clear slab i none, find?_entries_eq_some_iff]
  apply exists_congr
  intro j
  constructor
  · intro h
    have hj := h.entry
    rw [get?_clear] at hj
    by_cases hij : i = j
    · simp [hij] at hj
    · rw [if_neg hij] at hj
      refine ⟨hj, ⟨Ne.symm hij, h.holds⟩, ?_⟩
      intro k b hk hb hp
      exact h.before k b hk (by rw [get?_clear, if_neg (Ne.symm hp.1), hb]) hp.2
  · intro h
    refine ⟨by rw [get?_clear, if_neg (Ne.symm h.holds.1), h.entry], h.holds.2, ?_⟩
    intro k b hk hb hp
    rw [get?_clear] at hb
    by_cases hik : i = k
    · simp [hik] at hb
    · rw [if_neg hik] at hb
      exact h.before k b hk hb ⟨Ne.symm hik, hp⟩

theorem find?_others_eq_none_iff {slab : Slab α} {p : α → Bool} {i : Nat} :
    (slab.others i).find? p = none ↔ ∀ j a, j ≠ i → slab.get? j = some a → p a = false := by
  rw [others_eq_entries_clear slab i none, find?_entries_eq_none_iff]
  constructor
  · intro h j a hj ha
    apply h j a
    rw [get?_clear, if_neg (Ne.symm hj), ha]
  · intro h j a ha
    rw [get?_clear] at ha
    by_cases hij : i = j
    · simp [hij] at ha
    · rw [if_neg hij] at ha
      exact h j a (Ne.symm hij) ha

end FaultRecovery.Slab
