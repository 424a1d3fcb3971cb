import FaultRecovery.Region

namespace FaultRecovery

theorem Address.eq_last_iff {a : Address} : a = last ↔ UInt64.size - 1 ≤ a.toNat := by
  have ha := a.toNat_lt_size
  have hl : last.toNat = UInt64.size - 1 := rfl
  rw [← UInt64.toNat_inj, hl]
  omega

theorem Address.toNat_lt_of_ne_last {a : Address} (h : a ≠ last) : a.toNat < UInt64.size - 1 :=
  Nat.lt_of_not_le (mt eq_last_iff.mpr h)

namespace Region

def FirstAt (r : Region) (s : Site) : Prop :=
  ∃ before after, r.sites = before ++ s :: after ∧ ∀ t ∈ before, t.fault ≠ s.fault

/-- The region has a site that faults at `pc`, and the first such site lands at `a`. -/
def Continues (r : Region) (pc a : Address) : Prop :=
  ∃ s, r.FirstAt s ∧ pc.toNat = r.base.toNat + s.fault.toNat ∧ a.toNat = r.base.toNat + s.landing.toNat

theorem siteAt?_eq_some_iff_firstAt {r : Region} {pc : Address} {s : Site} :
    r.siteAt? pc = some s ↔ r.FirstAt s ∧ pc.toNat = r.base.toNat + s.fault.toNat := by
  rw [siteAt?_eq_some_iff, List.find?_eq_some_iff_append, FirstAt]
  constructor
  · rintro ⟨hs, before, after, he, hb⟩
    rw [beq_iff_eq] at hs
    refine ⟨⟨before, after, he, ?_⟩, hs.symm⟩
    intro t ht hf
    have hn := hb t ht
    rw [hf, hs, beq_self_eq_true] at hn
    exact Bool.noConfusion hn
  · rintro ⟨⟨before, after, he, hb⟩, hs⟩
    refine ⟨beq_iff_eq.mpr hs.symm, before, after, he, ?_⟩
    intro t ht
    have hne : t.fault.toNat ≠ s.fault.toNat := fun hf => hb t ht (UInt32.toNat_inj.mp hf)
    rw [Bool.not_eq_true', beq_eq_false_iff_ne]
    omega

theorem landingPad?_eq_some_iff_continues {r : Region} {pc a : Address} :
    r.landingPad? pc = some a ↔ r.Continues pc a := by
  simp only [landingPad?_eq_some_iff, siteAt?_eq_some_iff_firstAt, Continues, and_assoc]

theorem FirstAt.mem {r : Region} {s : Site} (h : r.FirstAt s) : s ∈ r.sites := by
  obtain ⟨before, after, he, -⟩ := h
  rw [he]
  exact List.mem_append_right _ List.mem_cons_self

theorem overlaps_iff {r s : Region} :
    r.overlaps s = true ↔
      r.base.toNat < min (s.base.toNat + s.size.toNat) (UInt64.size - 1) ∧
        s.base.toNat < min (r.base.toNat + r.size.toNat) (UInt64.size - 1) := by
  simp only [overlaps, Span.meets, span, Bool.and_eq_true, decide_eq_true_eq, UInt64.lt_iff_toNat_lt,
    Address.toNat_addClamped]

/-- Spans stop at the last address, so there alone two regions can meet without overlapping. -/
theorem overlaps_of_contains {r s : Region} {a : Address} (hr : r.contains a = true)
    (hs : s.contains a = true) (ha : a.toNat < UInt64.size - 1) : r.overlaps s = true := by
  rw [contains_iff] at hr hs
  rw [overlaps_iff]
  omega

theorem eq_last_of_contains {r s : Region} {a : Address} (h : r.overlaps s = false)
    (hr : r.contains a = true) (hs : s.contains a = true) :
    a = .last ∧ (r.base = .last ∨ s.base = .last) := by
  have ha : a = .last := by
    rw [Address.eq_last_iff, ← Nat.not_lt]
    intro hlt
    exact Bool.noConfusion (h.symm.trans (overlaps_of_contains hr hs hlt))
  refine ⟨ha, ?_⟩
  -- Both spans are clamped to the last address, so only a start at that address keeps them from meeting.
  have hn : ¬ r.overlaps s = true := Bool.not_eq_true _ ▸ h
  rw [overlaps_iff] at hn
  rw [contains_iff] at hr hs
  rw [Address.eq_last_iff] at ha
  rw [Address.eq_last_iff, Address.eq_last_iff]
  omega

theorem exists_contains_of_overlaps {r s : Region} (h : r.overlaps s = true) (hr : 0 < r.size.toNat)
    (hs : 0 < s.size.toNat) : ∃ a, a ≠ .last ∧ r.contains a = true ∧ s.contains a = true := by
  rw [overlaps_iff] at h
  simp only [contains_iff, ne_eq, Address.eq_last_iff]
  -- The one that starts later starts inside the other, and spans stop before the last address.
  rcases Nat.le_total r.base.toNat s.base.toNat with hle | hle
  · exact ⟨s.base, by omega, by omega, by omega⟩
  · exact ⟨r.base, by omega, by omega, by omega⟩

theorem overlaps_of_same_base {r s : Region} (hb : r.base = s.base) (hr : 0 < r.size.toNat) (hs : 0 < s.size.toNat)
    (hl : s.base ≠ .last) : r.overlaps s = true := by
  have hlt := Address.toNat_lt_of_ne_last hl
  rw [overlaps_iff, hb]
  omega

theorem overlaps_iff_of_empty {r s : Region} (hr : r.size = 0) :
    r.overlaps s = true ↔ s.base.toNat < r.base.toNat ∧
      r.base.toNat < min (s.base.toNat + s.size.toNat) (UInt64.size - 1) := by
  have hz : r.size.toNat = 0 := by rw [hr]; rfl
  have hb := r.base.toNat_lt_size
  rw [overlaps_iff]
  omega

/-- Regions that are not empty overlap where they share an address, of which the last one does not count. An empty
region overlaps those that it lies strictly inside of, and no other empty one. -/
theorem overlaps_as_sets_of_addresses (r s : Region) :
    r.overlaps s = s.overlaps r ∧
      (0 < r.size.toNat → 0 < s.size.toNat →
        (r.overlaps s = true ↔ ∃ a, a ≠ .last ∧ r.contains a = true ∧ s.contains a = true)) ∧
      (r.size = 0 → (r.overlaps s = true ↔ s.base.toNat < r.base.toNat ∧
        r.base.toNat < min (s.base.toNat + s.size.toNat) (UInt64.size - 1))) ∧
      (r.size = 0 → s.size = 0 → r.overlaps s = false) := by
  refine ⟨overlaps_comm r s, ?_, overlaps_iff_of_empty, ?_⟩
  · intro hr hs
    constructor
    · intro h
      exact exists_contains_of_overlaps h hr hs
    · rintro ⟨a, ha, hra, hsa⟩
      exact overlaps_of_contains hra hsa (Address.toNat_lt_of_ne_last ha)
  · intro hr hs
    rw [Bool.eq_false_iff, Ne, overlaps_iff_of_empty hr, hs]
    rintro ⟨hlt, hgt⟩
    have hz : (0 : Address).toNat = 0 := rfl
    omega

theorem overlaps_beside_last_address :
    ∃ r s : Region, r.contains .last = true ∧ s.contains .last = true ∧
      (¬ ∃ a, a ≠ .last ∧ r.contains a = true ∧ s.contains a = true) ∧
      Region.overlaps ⟨0xfffffffffffffff8, 0, []⟩ r = true := by
  refine ⟨⟨0xfffffffffffffff0, 0x20, []⟩, ⟨0xffffffffffffffff, 0x20, []⟩, by decide, by decide, ?_, ?_⟩
  · rw [← (overlaps_as_sets_of_addresses _ _).2.1 (by decide) (by decide)]
    decide
  · exact ((overlaps_as_sets_of_addresses _ _).2.2.1 rfl).mpr (by decide)

end Region

end FaultRecovery
