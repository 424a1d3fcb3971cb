import FaultRecovery.Proofs.Region
import FaultRecovery.Proofs.Registry.Directory

namespace FaultRecovery.Registry

variable {c : Config} {registry : Registry} {handle k : Handle} {r s : Region}

theorem Reachable.overlaps_eq_false (hv : c.verify = true) (h : Reachable c registry) (hne : handle ≠ k)
    (hr : registry.directory handle = some r) (hs : registry.directory k = some s) :
    r.overlaps s = false := by
  obtain ⟨i, hi, hri⟩ := Slab.named?_eq_some_iff.mp hr
  obtain ⟨j, hj, hsj⟩ := Slab.named?_eq_some_iff.mp hs
  exact h.sound.1.apart hv i j r s ((Handle.ne_iff_of_index? hi hj).mp hne) hri hsj

theorem Reachable.fits (hv : c.verify = true) (h : Reachable c registry) (hr : registry.Live r) : r.Fits := by
  obtain ⟨i, hi⟩ := (live_iff h).mp hr
  exact h.sound.1.fits hv i r hi

/-- What verification checks of single requests holds of all regions at all times. -/
theorem regions_stay_apart (hv : c.verify = true) (h : Reachable c registry) :
    (∀ handle k r s, handle ≠ k → registry.directory handle = some r → registry.directory k = some s →
        r.overlaps s = false ∧ s.overlaps r = false) ∧
      (∀ r, registry.Live r → ∀ s ∈ r.sites,
        s.fault.toNat < s.landing.toNat ∧ s.landing.toNat < r.size.toNat) ∧
      (registry.perform .audit).outcome = .ok (.verdict none) := by
  refine ⟨?_, ?_, ?_⟩
  · intro handle k r s hne hr hs
    have ho := h.overlaps_eq_false hv hne hr hs
    exact ⟨ho, Region.overlaps_comm r s ▸ ho⟩
  · intro r hr s hs
    exact Site.fits_iff.mp (h.fits hv hr s hs)
  · rw [h.outcome_audit, Slab.misfit?_eq_none_iff.mpr (h.sound.1.fits hv)]

theorem regions_stay_apart_after_rejections :
    ∃ registry r s, Reachable ⟨true, 1, 4⟩ registry ∧ registry.directory ⟨0⟩ = some r ∧
      registry.directory ⟨1⟩ = some s ∧ s.base + s.size = r.base ∧ r.overlaps s = false ∧
      (registry.perform .audit).outcome = .ok (.verdict none) := by
  have h := (Reachable.new (c := ⟨true, 1, 4⟩)).performAll
    [.register ⟨0x1000, 0x20, [⟨0, 8⟩]⟩, .register ⟨0x1010, 0x20, [⟨0, 8⟩]⟩, .register ⟨0x2000, 0x10, [⟨4, 8⟩]⟩,
      .relocate ⟨1⟩ 0x1008, .release ⟨0⟩, .register ⟨0x3000, 0x20, [⟨8, 12⟩]⟩, .relocate ⟨1⟩ 0x2ff0]
    (by decide +kernel)
  obtain ⟨hd, -, ha⟩ := regions_stay_apart rfl h
  refine ⟨_, ⟨0x3000, 0x20, [⟨8, 12⟩]⟩, ⟨0x2ff0, 0x10, [⟨4, 8⟩]⟩, h, ?hr, ?hs, by decide,
    (hd _ _ _ _ (by decide) ?hr ?hs).1, ha⟩
  · decide +kernel
  · decide +kernel

/-- No address but the last is in two regions, and that one only where a region starts there. -/
theorem shared_address_is_last (hv : c.verify = true) (h : Reachable c registry) (hne : handle ≠ k)
    (hr : registry.directory handle = some r) (hs : registry.directory k = some s) {a : Address}
    (ha : r.contains a = true) (hb : s.contains a = true) :
    a = .last ∧ (r.base = .last ∨ s.base = .last) :=
  Region.eq_last_of_contains (h.overlaps_eq_false hv hne hr hs) ha hb

theorem regions_share_last_address :
    ∃ registry r s, Reachable ⟨true, 4, 4⟩ registry ∧ registry.directory ⟨0⟩ = some r ∧
      registry.directory ⟨1⟩ = some s ∧ r.contains .last = true ∧ s.contains .last = true := by
  have h := (Reachable.new (c := ⟨true, 4, 4⟩)).performAll
    [.register ⟨0xfffffffffffffff0, 0x10, []⟩, .register ⟨0xffffffffffffffff, 1, []⟩] (by decide +kernel)
  exact ⟨_, ⟨0xfffffffffffffff0, 0x10, []⟩, ⟨0xffffffffffffffff, 1, []⟩, h, by decide +kernel, by decide +kernel,
    by decide, by decide⟩

/-- A shared address is met where a region that ends with the last address moves on top of another's end. -/
theorem shared_address_after_move :
    ∃ registry r s, Reachable ⟨true, 1, 8⟩ registry ∧ registry.directory ⟨0⟩ = some r ∧
      registry.directory ⟨1⟩ = some s ∧ r.contains 0xffffffffffffffff = true ∧
      s.contains 0xffffffffffffffff = true ∧ (r.base = .last ∨ s.base = .last) := by
  have h := (Reachable.new (c := ⟨true, 1, 8⟩)).performAll
    [.register ⟨0xffffffffffffff00, 0x200, []⟩, .register ⟨0x1000, 0x10, [⟨0, 4⟩]⟩, .relocate ⟨1⟩ 0xffffffffffffffff]
    (by decide +kernel)
  refine ⟨_, ⟨0xffffffffffffff00, 0x200, []⟩, ⟨0xffffffffffffffff, 0x10, [⟨0, 4⟩]⟩, h, ?hr, ?hs, ?ha, ?hb,
    (shared_address_is_last rfl h (by decide) ?hr ?hs ?ha ?hb).2⟩
  · decide +kernel
  · decide +kernel
  · decide
  · decide

end FaultRecovery.Registry
