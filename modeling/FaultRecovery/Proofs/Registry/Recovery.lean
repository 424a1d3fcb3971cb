import FaultRecovery.Proofs.Landing
import FaultRecovery.Proofs.Registry.Execution

namespace FaultRecovery

variable {c : Config} {slab : Slab Region} {registry : Registry}

theorem Sound.landingPad?_eq_some_iff (h : Sound c slab) (hv : c.verify = true) {pc a : Address} :
    slab.landingPad? pc = some a ↔ ∃ i r, slab.get? i = some r ∧ r.Continues pc a := by
  constructor
  · intro ha
    rw [Slab.landingPad?] at ha
    cases hf : slab.entries.find? fun r => r.contains pc with
    | none => simp [hf] at ha
    | some r =>
        simp only [hf] at ha
        obtain ⟨i, hi⟩ := Slab.find?_entries_eq_some_iff.mp hf
        exact ⟨i, r, hi.entry, Region.landingPad?_eq_some_iff_continues.mp ha⟩
  · rintro ⟨i, r, hi, hr⟩
    obtain ⟨hc, -, hlt⟩ := hr.contains (h.fits hv i r hi)
    have ha := a.toNat_lt
    cases hf : slab.entries.find? fun r => r.contains pc with
    | none =>
        have hn := Slab.find?_entries_eq_none_iff.mp hf i r hi
        simp [hc] at hn
    | some s =>
        obtain ⟨j, hj⟩ := Slab.find?_entries_eq_some_iff.mp hf
        -- Below the landing pad there is an address left, so both regions would overlap at `pc`.
        have ho := Region.overlaps_of_contains hc hj.holds (by rw [UInt64.size]; omega)
        by_cases hij : i = j
        · subst hij
          obtain rfl := Option.some.inj (hi.symm.trans hj.entry)
          rw [Slab.landingPad?, hf]
          exact Region.landingPad?_eq_some_iff_continues.mpr hr
        · simp [h.apart hv i j r s hij hi hj.entry] at ho

namespace Registry

theorem resolve_eq_of_reachable (h : Reachable c registry) (pc : Address) :
    registry.metadata.resolve pc = match registry.metadata.value.landingPad? pc with
      | none => .unprotected
      | some landing => .recover landing := by
  refine Metadata.resolve_of_free ?_ pc
  rw [h.sound.2]
  rfl

theorem Reachable.resolve_ne_indeterminate (h : Reachable c registry) {pc : Address} :
    registry.metadata.resolve pc ≠ .indeterminate := by
  rw [resolve_eq_of_reachable h]
  cases registry.metadata.value.landingPad? pc <;> simp

theorem resolve_eq_recover_iff (hv : c.verify = true) (h : Reachable c registry) {pc a : Address} :
    registry.metadata.resolve pc = .recover a ↔ ∃ r, registry.Live r ∧ r.Continues pc a := by
  have hl : (∃ r, registry.Live r ∧ r.Continues pc a) ↔ registry.metadata.value.landingPad? pc = some a := by
    simp only [h.sound.1.landingPad?_eq_some_iff hv, live_iff h, exists_comm (α := Nat), exists_and_right]
  rw [hl, resolve_eq_of_reachable h]
  cases registry.metadata.value.landingPad? pc <;> simp

theorem resolve_eq_unprotected_iff (hv : c.verify = true) (h : Reachable c registry) {pc : Address} :
    registry.metadata.resolve pc = .unprotected ↔ ∀ a r, registry.Live r → ¬ r.Continues pc a := by
  constructor
  · intro hu a r hr hc
    have hx := (resolve_eq_recover_iff hv h).mpr ⟨r, hr, hc⟩
    simp [hu] at hx
  · intro hn
    cases hx : registry.metadata.resolve pc with
    | unprotected => rfl
    | recover a =>
        obtain ⟨r, hr, hc⟩ := (resolve_eq_recover_iff hv h).mp hx
        exact absurd hc (hn a r hr)
    | indeterminate => exact absurd hx h.resolve_ne_indeterminate

/-- A fault continues at a landing pad of a live region or nowhere. Neither the slots of the regions nor what
led to them makes a difference. -/
theorem resolve_by_live_regions (hv : c.verify = true) (h : Reachable c registry) (pc : Address) :
    (∀ a, registry.metadata.resolve pc = .recover a ↔ ∃ r, registry.Live r ∧ r.Continues pc a) ∧
      (registry.metadata.resolve pc = .unprotected ↔ ∀ a r, registry.Live r → ¬ r.Continues pc a) ∧
      ∀ {c' : Config} {other : Registry}, c'.verify = true → Reachable c' other →
        (∀ r, other.Live r ↔ registry.Live r) → other.metadata.resolve pc = registry.metadata.resolve pc := by
  refine ⟨fun a => resolve_eq_recover_iff hv h, resolve_eq_unprotected_iff hv h, ?_⟩
  intro c' other hv' h' hr
  cases hx : registry.metadata.resolve pc with
  | recover a =>
      obtain ⟨r, hl, hc⟩ := (resolve_eq_recover_iff hv h).mp hx
      exact (resolve_eq_recover_iff hv' h').mpr ⟨r, (hr r).mpr hl, hc⟩
  | unprotected =>
      have hn := (resolve_eq_unprotected_iff hv h).mp hx
      exact (resolve_eq_unprotected_iff hv' h').mpr fun a r hl => hn a r ((hr r).mp hl)
  | indeterminate =>
      rw [resolve_eq_of_reachable h] at hx
      split at hx <;> simp at hx

theorem resolve_at_last_addresses :
    ∃ registry, Reachable ⟨true, 1, 3⟩ registry ∧
      registry.metadata.resolve 0xfffffffffffffff0 = .recover 0xfffffffffffffff8 := by
  have h := Reachable.perform (.perform (.perform (Reachable.new (c := ⟨true, 1, 3⟩))
    (.register ⟨0x1000, 0x20, []⟩) (by decide +kernel))
    (.register ⟨0x2000, 0x20, [⟨0, 8⟩, ⟨0, 9⟩]⟩) (by decide +kernel))
    (.relocate ⟨1⟩ 0xfffffffffffffff0) (by decide +kernel)
  refine ⟨_, h, ((resolve_by_live_regions rfl h _).1 _).mpr ⟨⟨0xfffffffffffffff0, 0x20, [⟨0, 8⟩, ⟨0, 9⟩]⟩, ?_, ?_⟩⟩
  · exact ⟨⟨1⟩, by decide +kernel⟩
  · exact ⟨⟨0, 8⟩, ⟨[], _, rfl, by simp⟩, by decide, by decide⟩

end Registry

end FaultRecovery
