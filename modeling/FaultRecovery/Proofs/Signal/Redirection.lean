import FaultRecovery.Proofs.Registry.Recovery
import FaultRecovery.Proofs.Registry.Separation
import FaultRecovery.Signal.Dispatcher

namespace FaultRecovery

def Metadata.respond (m : Metadata) (f : Fault) : Response :=
  match f.pc? with
  | none => f.decline
  | some pc => f.follow (m.resolve pc)

/-- The fault is at an address from which execution continues at `target`, and the register can hold both. -/
def Metadata.Redirects (m : Metadata) (f : Fault) (target : Address) : Prop :=
  0 ≤ f.rip.toInt ∧ m.resolve f.rip.toUInt64 = .recover target ∧ target.toNat < 0x8000000000000000

variable {m : Metadata} {f : Fault} {target : Address}

theorem Metadata.Redirects.respond_eq (h : m.Redirects f target) : m.respond f = ⟨true, target.toInt64⟩ := by
  obtain ⟨hr, ht, hlt⟩ := h
  rw [respond, Fault.pc?_eq, if_pos hr]
  simp only [ht, Fault.follow]
  rw [Fault.redirect_eq, if_pos hlt]

theorem Metadata.respond_eq_decline (h : ∀ target, ¬ m.Redirects f target) : m.respond f = f.decline := by
  rw [respond, Fault.pc?_eq]
  by_cases hr : 0 ≤ f.rip.toInt
  · rw [if_pos hr]
    cases ht : m.resolve f.rip.toUInt64 with
    | recover target =>
        simp only [ht, Fault.follow]
        rw [Fault.redirect_eq, if_neg fun hlt => h target ⟨hr, ht, hlt⟩]
    | unprotected | indeterminate => simp only [ht, Fault.follow]
  · rw [if_neg hr]

theorem Metadata.respond_recovered_iff : (m.respond f).recovered = true ↔ ∃ target, m.Redirects f target := by
  constructor
  · intro hr
    apply Classical.byContradiction
    intro hn
    rw [respond_eq_decline (not_exists.mp hn)] at hr
    exact Bool.noConfusion hr
  · rintro ⟨target, h⟩
    rw [h.respond_eq]

theorem Metadata.respond_of_locked (hl : m.locked = true) : m.respond f = f.decline := by
  apply respond_eq_decline
  rintro target ⟨-, ht, -⟩
  rw [resolve_of_locked hl] at ht
  cases ht

namespace Registry

theorem respond_eq (f : Fault) (s : Session) : respond f s = .ok (s.metadata.respond f) s := by
  rw [respond, Metadata.respond]
  cases f.pc? with
  | none => rfl
  | some pc => exact map_of_ok (resolve_eq pc s)

theorem run_respond (registry : Registry) (f : Fault) :
    registry.run (respond f) = ⟨.ok (registry.metadata.respond f), [], registry⟩ := by
  rw [run, respond_eq]

variable {c : Config} {registry : Registry}

theorem Reachable.not_redirects_cases (h : Reachable c registry)
    (hn : ∀ target, ¬ registry.metadata.Redirects f target) :
    f.rip.toInt < 0 ∨ registry.metadata.resolve f.rip.toUInt64 = .unprotected ∨ ∃ target,
      registry.metadata.resolve f.rip.toUInt64 = .recover target ∧ 0x8000000000000000 ≤ target.toNat := by
  by_cases hp : f.rip.toInt < 0
  · exact .inl hp
  · rw [resolve_eq_of_reachable h]
    cases ht : registry.metadata.value.landingPad? f.rip.toUInt64 with
    | none => exact .inr (.inl rfl)
    | some target =>
        refine .inr (.inr ⟨target, rfl, ?_⟩)
        rw [← Nat.not_lt]
        intro hlt
        apply hn target
        refine ⟨Int.not_lt.mp hp, ?_, hlt⟩
        rw [resolve_eq_of_reachable h, ht]

/-- Execution at `before` goes on at `after`, by the site `s` of the region `r` and in the same region. -/
structure Onward (registry : Registry) (before after : Int64) (r : Region) (s : Site) : Prop where
  live : registry.Live r
  mem : s ∈ r.sites
  fault_eq : before.toInt = r.base.toNat + s.fault.toNat
  landing_eq : after.toInt = r.base.toNat + s.landing.toNat
  fault_inside : r.contains before.toUInt64 = true
  landing_inside : r.contains after.toUInt64 = true
  forward : before.toInt < after.toInt

/-- The region that the fault is in was checked when it was put in, and has moved as a whole since. -/
theorem Reachable.exists_onward (hv : c.verify = true) (h : Reachable c registry)
    (hr : registry.metadata.Redirects f target) : ∃ r s, registry.Onward f.rip target.toInt64 r s := by
  obtain ⟨hp, ht, hlt⟩ := hr
  obtain ⟨r, hl, s, hs, hpc, ha⟩ := (resolve_eq_recover_iff hv h).mp ht
  have hfit := Site.fits_iff.mp (h.fits hv hl s hs.mem)
  have hrip := Address.toNat_toUInt64 hp
  have htarget := Address.toInt_toInt64 hlt
  refine ⟨r, s, hl, hs.mem, ?_, ?_, ?_, ?_, ?_⟩
  · omega
  · omega
  · rw [Region.contains_iff]
    omega
  · rw [UInt64.toUInt64_toInt64, Region.contains_iff]
    omega
  · omega

/-- A fault is redirected just where its landing pad is known and fits the register, which then holds it.
Otherwise the register stays as it is. Under verification execution goes on further down in the same region. -/
theorem fault_redirected_to_landing_pad (h : Reachable c registry) (f : Fault) :
    ∃ response, registry.run (respond f) = ⟨.ok response, [], registry⟩ ∧
      (response.recovered = true ↔ 0 ≤ f.rip.toInt ∧ ∃ target,
        registry.metadata.resolve f.rip.toUInt64 = .recover target ∧ target.toNat < 0x8000000000000000) ∧
      (∀ target, response.recovered = true → registry.metadata.resolve f.rip.toUInt64 = .recover target →
        response.rip.toInt = target.toNat) ∧
      (response.recovered = false → response.rip = f.rip ∧
        (f.rip.toInt < 0 ∨ registry.metadata.resolve f.rip.toUInt64 = .unprotected ∨ ∃ target,
          registry.metadata.resolve f.rip.toUInt64 = .recover target ∧ 0x8000000000000000 ≤ target.toNat)) ∧
      (c.verify = true → response.recovered = true → ∃ r s, registry.Onward f.rip response.rip r s) ∧
      ∀ held : Registry, held.metadata.locked = true → held.run (respond f) = ⟨.ok f.decline, [], held⟩ := by
  refine ⟨_, run_respond registry f, ?_, ?_, ?_, ?_, ?_⟩
  · rw [Metadata.respond_recovered_iff]
    exact exists_and_left
  · intro target hr ht
    obtain ⟨target', h'⟩ := Metadata.respond_recovered_iff.mp hr
    obtain rfl := Lookup.recover.inj (ht.symm.trans h'.2.1)
    rw [h'.respond_eq]
    exact Address.toInt_toInt64 h'.2.2
  · intro hr
    have hn (target : Address) : ¬ registry.metadata.Redirects f target := by
      intro ht
      rw [Metadata.respond_recovered_iff.mpr ⟨target, ht⟩] at hr
      exact Bool.noConfusion hr
    exact ⟨by rw [Metadata.respond_eq_decline hn]; rfl, h.not_redirects_cases hn⟩
  · intro hv hr
    obtain ⟨target, ht⟩ := Metadata.respond_recovered_iff.mp hr
    rw [ht.respond_eq]
    exact h.exists_onward hv ht
  · intro held hl
    rw [run_respond, Metadata.respond_of_locked hl]

theorem fault_redirected_below_middle :
    ∃ registry response, Reachable ⟨true, 1, 2⟩ registry ∧
      registry.run (respond ⟨11, 0, 0x7ffffffffffffff4⟩) = ⟨.ok response, [], registry⟩ ∧
      response.recovered = true ∧ response.rip.toInt = 0x7ffffffffffffff8 := by
  have h := (Reachable.new (c := ⟨true, 1, 2⟩)).performAll
    [.register ⟨0x1000, 0x20, [⟨4, 8⟩, ⟨4, 12⟩, ⟨8, 16⟩]⟩, .relocate ⟨0⟩ 0x7ffffffffffffff0] (by decide +kernel)
  obtain ⟨response, hr, hiff, ht, -⟩ := fault_redirected_to_landing_pad h ⟨11, 0, 0x7ffffffffffffff4⟩
  have hrec := hiff.mpr ⟨by decide, 0x7ffffffffffffff8, by decide +kernel, by decide⟩
  exact ⟨_, response, h, hr, hrec, ht 0x7ffffffffffffff8 hrec (by decide +kernel)⟩

end Registry

end FaultRecovery
