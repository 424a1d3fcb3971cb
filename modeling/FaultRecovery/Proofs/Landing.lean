import FaultRecovery.Proofs.Consistency
import FaultRecovery.Proofs.Region

namespace FaultRecovery.Region

variable {r : Region} {pc a : Address}

theorem Continues.contains (h : r.Continues pc a) (hf : r.Fits) :
    r.contains pc = true ∧ r.contains a = true ∧ pc.toNat < a.toNat := by
  obtain ⟨s, hs, hpc, ha⟩ := h
  have hfit := Site.fits_iff.mp (hf s hs.mem)
  rw [contains_iff, contains_iff]
  omega

theorem map_landingPad?_eq_some_iff {n : Nat} :
    (r.landingPad? pc).map UInt64.toNat = some n ↔ ∃ s, r.FirstAt s ∧
      pc.toNat = r.base.toNat + s.fault.toNat ∧ n = r.base.toNat + s.landing.toNat ∧ n < UInt64.size := by
  simp only [Option.map_eq_some_iff, landingPad?_eq_some_iff_continues, Continues]
  constructor
  · rintro ⟨a, ⟨s, hs, hpc, ha⟩, rfl⟩
    exact ⟨s, hs, hpc, ha, a.toNat_lt_size⟩
  · rintro ⟨s, hs, hpc, hn, hlt⟩
    have ha : (UInt64.ofNat n).toNat = n := UInt64.toNat_ofNat_of_lt' hlt
    exact ⟨UInt64.ofNat n, ⟨s, hs, hpc, ha.trans hn⟩, ha⟩

theorem landingPad?_eq_none_iff :
    r.landingPad? pc = none ↔ ∀ s, r.FirstAt s → pc.toNat = r.base.toNat + s.fault.toNat →
      UInt64.size ≤ r.base.toNat + s.landing.toNat := by
  constructor
  · intro hn s hs hpc
    apply Nat.le_of_not_lt
    intro hlt
    have hsome := map_landingPad?_eq_some_iff.mpr ⟨s, hs, hpc, rfl, hlt⟩
    simp [hn] at hsome
  · intro h
    cases hp : r.landingPad? pc with
    | none => rfl
    | some a =>
        obtain ⟨s, hs, hpc, ha, hlt⟩ := map_landingPad?_eq_some_iff.mp (congrArg (Option.map UInt64.toNat) hp)
        rw [ha] at hlt
        exact absurd (h s hs hpc) (Nat.not_le_of_lt hlt)

theorem landingPad?_congr {s : Site} {before after later : List Site} (hs : r.sites = before ++ s :: after)
    (hpc : pc.toNat = r.base.toNat + s.fault.toNat) :
    landingPad? { r with sites := before ++ s :: later } pc = r.landingPad? pc := by
  have hp : (r.base.toNat + s.fault.toNat == pc.toNat) = true := beq_iff_eq.mpr hpc.symm
  have he : siteAt? { r with sites := before ++ s :: later } pc = r.siteAt? pc := by
    ext t
    simp only [siteAt?_eq_some_iff, hs, List.find?_append, List.find?_cons, hp]
  simp only [landingPad?, he]

/-- The first site at `pc` decides, whether it lands inside the address space or past it. No distance is cut off
to the width of an offset, and in a region that its sites fit recovery stays inside and moves forward. -/
theorem landings_by_first_site (r : Region) (pc : Address) :
    (∀ n : Nat, (r.landingPad? pc).map UInt64.toNat = some n ↔ ∃ s, r.FirstAt s ∧
        pc.toNat = r.base.toNat + s.fault.toNat ∧ n = r.base.toNat + s.landing.toNat ∧ n < UInt64.size) ∧
      (r.base.toNat + UInt32.size ≤ pc.toNat → r.landingPad? pc = none) ∧
      (∀ before s after later, r.sites = before ++ s :: after → pc.toNat = r.base.toNat + s.fault.toNat →
        landingPad? { r with sites := before ++ s :: later } pc = r.landingPad? pc) ∧
      (∀ s, r.FirstAt s → pc.toNat = r.base.toNat + s.fault.toNat →
        UInt64.size ≤ r.base.toNat + s.landing.toNat → r.landingPad? pc = none) ∧
      (r.Fits → ∀ a, r.landingPad? pc = some a →
        r.contains pc = true ∧ r.contains a = true ∧ pc.toNat < a.toNat) := by
  refine ⟨fun n => map_landingPad?_eq_some_iff, ?_, fun _ _ _ _ => landingPad?_congr, ?_, ?_⟩
  · intro hd
    apply landingPad?_eq_none_iff.mpr
    intro s _ hpc
    have hf := s.fault.toNat_lt_size
    omega
  · intro s hs hpc hl
    apply landingPad?_eq_none_iff.mpr
    intro t ht hpc'
    obtain rfl : s = t := by
      have he := siteAt?_eq_some_iff_firstAt.mpr ⟨hs, hpc⟩
      exact Option.some.inj (he.symm.trans (siteAt?_eq_some_iff_firstAt.mpr ⟨ht, hpc'⟩))
    exact hl
  · intro hf a ha
    exact (landingPad?_eq_some_iff_continues.mp ha).contains hf

/-- The region runs past the last address. A later site would land inside, and the first one does not. Another
site lands before the last address, and addresses that differ by the width of an offset are told apart. -/
theorem landings_of_region_past_end :
    ∃ r : Region, r.Fits ∧ r.landingPad? 0xfffffffffffffff4 = none ∧
      (r.landingPad? 0xfffffffffffffff2).map UInt64.toNat = some 0xfffffffffffffff6 ∧
      r.contains 0xfffffffffffffff2 = true ∧
      landingPad? ⟨0x1000, 0x100, [⟨0x10, 0x80⟩]⟩ 0x100001010 = none ∧
      landingPad? ⟨0xfffffffffffffff0, 0x20, [⟨4, 0x10⟩, ⟨4, 0x18⟩]⟩ 0xfffffffffffffff4 =
        r.landingPad? 0xfffffffffffffff4 := by
  have hf : Fits ⟨0xfffffffffffffff0, 0x20, [⟨4, 0x10⟩, ⟨2, 6⟩, ⟨4, 8⟩]⟩ := by
    rw [← misfit?_eq_none_iff]
    decide
  obtain ⟨-, -, hlater, hpast, -⟩ := landings_by_first_site
    ⟨0xfffffffffffffff0, 0x20, [⟨4, 0x10⟩, ⟨2, 6⟩, ⟨4, 8⟩]⟩ 0xfffffffffffffff4
  obtain ⟨hlands, -, -, -, hinside⟩ := landings_by_first_site
    ⟨0xfffffffffffffff0, 0x20, [⟨4, 0x10⟩, ⟨2, 6⟩, ⟨4, 8⟩]⟩ 0xfffffffffffffff2
  refine ⟨_, hf, ?_, ?_, ?_, ?_, ?_⟩
  · exact hpast ⟨4, 0x10⟩ ⟨[], _, rfl, by simp⟩ (by decide) (by decide)
  · exact (hlands _).mpr ⟨⟨2, 6⟩, ⟨[⟨4, 0x10⟩], _, rfl, by decide⟩, by decide, by decide, by decide⟩
  · exact (hinside hf 0xfffffffffffffff6 (by decide)).1
  · exact (landings_by_first_site _ _).2.1 (by decide)
  · exact hlater [] ⟨4, 0x10⟩ [⟨2, 6⟩, ⟨4, 8⟩] [⟨4, 0x18⟩] rfl (by decide)

end FaultRecovery.Region
