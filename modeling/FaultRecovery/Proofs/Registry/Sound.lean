import FaultRecovery.Proofs.Consistency
import FaultRecovery.Registry.Metadata
import FaultRecovery.Registry.Config

namespace FaultRecovery

namespace Slab

theorem named?_eq_some_iff {α : Type} {slab : Slab α} {handle : Handle} {a : α} :
    slab.named? handle = some a ↔ ∃ i, handle.index? = some i ∧ slab.get? i = some a :=
  Option.bind_eq_some_iff

def Apart (slab : Slab Region) : Prop :=
  ∀ i j r s, i ≠ j → slab.get? i = some r → slab.get? j = some s → r.overlaps s = false

structure Admits (slab : Slab Region) (r : Region) : Prop where
  apart : ∀ i e, slab.get? i = some e → e.overlaps r = false
  fits : r.Fits

theorem Apart.update {slab rest : Slab Region} {i : Nat} {r : Region} (h : slab.Apart)
    (hg : ∀ j, rest.get? j = if i = j then some r else slab.get? j)
    (hr : ∀ j e, j ≠ i → slab.get? j = some e → r.overlaps e = false) : rest.Apart := by
  intro j k s t hjk hs ht
  rw [hg] at hs ht
  by_cases hj : i = j
  · rw [if_pos hj] at hs
    rw [if_neg fun hk => hjk (hj.symm.trans hk)] at ht
    obtain rfl := Option.some.inj hs
    exact hr k t (fun hk => hjk (hj.symm.trans hk.symm)) ht
  · rw [if_neg hj] at hs
    by_cases hk : i = k
    · rw [if_pos hk] at ht
      obtain rfl := Option.some.inj ht
      rw [Region.overlaps_comm]
      exact hr j s (Ne.symm hj) hs
    · rw [if_neg hk] at ht
      exact h j k s t hjk hs ht

theorem Apart.mono {slab rest : Slab Region} (h : slab.Apart)
    (hg : ∀ i r, rest.get? i = some r → slab.get? i = some r) : rest.Apart := by
  intro i j r s hij hr hs
  apply h i j r s hij
  · exact hg i r hr
  · exact hg j s hs

end Slab

/-- The slab of a registry with the configuration `c`, as every request finds it. -/
structure Sound (c : Config) (slab : Slab Region) : Prop where
  ceiling : c.maxCapacity.toNat ≤ Handle.maxCapacity
  linked : ∃ is, slab.Links is
  bounded : slab.capacity ≤ c.maxCapacity.toNat
  fits : c.verify = true → ∀ i r, slab.get? i = some r → r.Fits
  apart : c.verify = true → slab.Apart

namespace Sound

variable {c : Config} {slab rest : Slab Region}

theorem empty (c : Config) : Sound c.clamped .empty where
  ceiling := by
    rw [c.toNat_maxCapacity_clamped]
    exact Nat.min_le_right _ _
  linked := ⟨[], Slab.links_empty⟩
  bounded := Nat.zero_le _
  fits _ i r h := by simp [Slab.get?, Slab.empty] at h
  apart _ i j r s _ h := by simp [Slab.get?, Slab.empty] at h

theorem check_eq_ok (h : Sound c slab) (hv : c.verify = true) : slab.check = .ok () := by
  obtain ⟨is, hl⟩ := h.linked
  exact (Slab.check_eq_ok_iff hl).mpr (h.fits hv)

theorem capacity_le (h : Sound c slab) : slab.capacity ≤ Handle.maxCapacity :=
  Nat.le_trans h.bounded h.ceiling

theorem exists_handle (h : Sound c slab) {i : Nat} (hi : i < slab.capacity) :
    ∃ handle, Handle.ofIndex? i = some handle := by
  have hle : i ≤ Handle.maxCapacity := Nat.le_of_lt (Nat.lt_of_lt_of_le hi h.capacity_le)
  exact ⟨_, by rw [Handle.ofIndex?, if_pos hle]⟩

theorem exists_named (h : Sound c slab) {i : Nat} {r : Region} (hi : slab.get? i = some r) :
    ∃ handle, handle.index? = some i ∧ slab.named? handle = some r := by
  obtain ⟨handle, ho⟩ := h.exists_handle (Slab.lt_capacity_of_get? hi)
  have hn := Handle.index?_of_ofIndex? ho
  exact ⟨handle, hn, Slab.named?_eq_some_iff.mpr ⟨i, hn, hi⟩⟩

theorem update (h : Sound c slab) (hl : ∃ is, rest.Links is) (hc : rest.capacity = slab.capacity)
    {i : Nat} {r : Region} (hg : ∀ j, rest.get? j = if i = j then some r else slab.get? j)
    (hr : c.verify = true → r.Fits ∧ ∀ j e, j ≠ i → slab.get? j = some e → r.overlaps e = false) :
    Sound c rest where
  ceiling := h.ceiling
  linked := hl
  bounded := hc ▸ h.bounded
  fits hv j s hs := by
    rw [hg] at hs
    split at hs
    · obtain rfl := Option.some.inj hs
      exact (hr hv).1
    · exact h.fits hv j s hs
  apart hv := (h.apart hv).update hg (hr hv).2

theorem insert (h : Sound c slab) {i : Nat} {is : List Nat} (hl : slab.Links (i :: is)) {r : Region}
    (hr : c.verify = true → slab.Admits r) : Sound c (slab.insert i r) := by
  have hi : i < slab.capacity := hl.lt_capacity List.mem_cons_self
  apply h.update ⟨is, hl.insert r⟩ (slab.capacity_insert i r) fun j => Slab.get?_insert hi
  intro hv
  refine ⟨(hr hv).fits, ?_⟩
  intro j e _ he
  rw [Region.overlaps_comm]
  exact (hr hv).apart j e he

theorem put (h : Sound c slab) {i : Nat} {r s : Region} (hi : slab.get? i = some r)
    (hr : c.verify = true → s.Fits ∧ ∀ j e, j ≠ i → slab.get? j = some e → s.overlaps e = false) :
    Sound c (slab.put i s) := by
  obtain ⟨is, hl⟩ := h.linked
  exact h.update ⟨is, hl.put hi s⟩ (slab.capacity_put i s)
    (Slab.get?_put_of_get? hi s) hr

theorem mono (h : Sound c slab) (hl : ∃ is, rest.Links is) (hc : rest.capacity ≤ c.maxCapacity.toNat)
    (hg : ∀ i r, rest.get? i = some r → slab.get? i = some r) : Sound c rest where
  ceiling := h.ceiling
  linked := hl
  bounded := hc
  fits hv i r hr := h.fits hv i r (hg i r hr)
  apart hv := (h.apart hv).mono hg

theorem vacate (h : Sound c slab) {i : Nat} {r : Region} (hi : slab.vacate? i = some (r, rest)) :
    Sound c rest := by
  obtain ⟨is, hl⟩ := h.linked
  apply h.mono ⟨i :: is, hl.vacate hi⟩ (Slab.capacity_of_vacate? hi ▸ h.bounded)
  intro j s hs
  rw [Slab.get?_of_vacate? hi] at hs
  split at hs
  · simp at hs
  · exact hs

theorem extend (h : Sound c slab) {n : Nat} (hn : slab.capacity < n) (hm : n ≤ c.maxCapacity.toNat) :
    Sound c (slab.extend n) := by
  obtain ⟨is, hl⟩ := h.linked
  apply h.mono ⟨_, hl.extend hn⟩ (by rwa [Slab.capacity_extend (Nat.le_of_lt hn)])
  intro j s hs
  rwa [Slab.get?_extend] at hs

end Sound

end FaultRecovery
