import FaultRecovery.Proofs.Registry.Recovery
import FaultRecovery.Proofs.Registry.Separation

namespace FaultRecovery

theorem Lookup.eq_of_recover_iff {x y : Lookup} (hx : x ≠ .indeterminate) (hy : y ≠ .indeterminate)
    (h : ∀ a, x = .recover a ↔ y = .recover a) : x = y := by
  cases x with
  | recover a => exact ((h a).mp rfl).symm
  | unprotected =>
      cases y with
      | recover a => exact (h a).mpr rfl
      | unprotected => rfl
      | indeterminate => exact absurd rfl hy
  | indeterminate => exact absurd rfl hx

variable {c : Config} {slab : Slab Region} {handle : Handle} {r : Region} {base pc a : Address}

namespace Registry

theorem relocate_of_sound {rest : Slab Region} {i : Nat} (h : Sound c slab) (hi : handle.index? = some i)
    (hg : slab.get? i = some r) (hp : slab.put i (r.movedTo base) = rest) (hs : Sound c rest) :
    perform ⟨c, .free slab⟩ (.relocate handle base) = .served c rest .done [] := by
  have hget (j : Nat) : rest.get? j = if i = j then some (r.movedTo base) else slab.get? j := by
    rw [← hp]
    exact Slab.get?_put_of_get? hg _ j
  rw [← hp]
  refine perform_of_effect (.moved hi hg ?_) h
  intro hv j e hj he
  apply hs.apart hv i j _ _ (Ne.symm hj)
  · rw [hget, if_pos rfl]
  · rw [hget, if_neg (Ne.symm hj), he]

variable {registry next : Registry}

/-- Another region could contain `pc` too, but only where nothing continues: at the last address. -/
theorem Reachable.resolve_of_contains (hv : c.verify = true) (h : Reachable c registry)
    (hr : registry.directory handle = some r) (hc : r.contains pc = true) :
    registry.metadata.resolve pc = .recover a ↔ r.Continues pc a := by
  rw [resolve_eq_recover_iff hv h]
  constructor
  · rintro ⟨e, ⟨k, hk⟩, he⟩
    obtain ⟨hce, -, hlt⟩ := he.contains (h.fits hv ⟨k, hk⟩)
    by_cases hne : k = handle
    · subst hne
      obtain rfl := Option.some.inj (hk.symm.trans hr)
      exact he
    · have hl := a.toNat_lt_size
      have ho := Region.overlaps_of_contains hce hc (by omega)
      exact Bool.noConfusion ((h.overlaps_eq_false hv hne hk hr).symm.trans ho)
  · intro hp
    exact ⟨r, ⟨handle, hr⟩, hp⟩

theorem Reachable.resolve_of_not_contains (hv : c.verify = true) (h : Reachable c registry)
    (hn : ∀ k e, registry.directory k = some e → e.contains pc = false) :
    registry.metadata.resolve pc = .unprotected := by
  rw [resolve_eq_unprotected_iff hv h]
  rintro a e ⟨k, hk⟩ he
  obtain ⟨hce, -⟩ := he.contains (h.fits hv ⟨k, hk⟩)
  exact Bool.noConfusion ((hn k e hk).symm.trans hce)

theorem Reachable.relocate_eq (h : Reachable c registry) (hr : registry.directory handle = some r)
    (ha : (registry.perform (.relocate handle base)).outcome = .ok .done)
    (hn : (registry.perform (.relocate handle base)).registry = next) :
    ∃ i, handle.index? = some i ∧ registry.metadata.value.get? i = some r ∧
      next = ⟨c.clamped, .free (registry.metadata.value.put i (r.movedTo base))⟩ := by
  have he := h.effect (.relocate handle base)
  rw [← hn]
  generalize registry.perform (.relocate handle base) = report at ha he
  cases he with
  | @moved handle base i s hi hg _ =>
      have hs := Slab.named?_eq_some_iff.mpr ⟨i, hi, hg⟩
      obtain rfl := Option.some.inj (hs.symm.trans hr)
      exact ⟨i, hi, hg, rfl⟩
  | lost | obstructed => cases ha
  | answered hq => cases hq

theorem Reachable.directory_relocate (h : Reachable c registry) (hr : registry.directory handle = some r)
    (ha : (registry.perform (.relocate handle base)).outcome = .ok .done)
    (hn : (registry.perform (.relocate handle base)).registry = next) :
    next.directory = Function.update registry.directory handle (some ⟨base, r.size, r.sites⟩) := by
  obtain ⟨i, hi, hg, rfl⟩ := h.relocate_eq hr ha hn
  exact Slab.named?_eq_update hi (Slab.get?_put_of_get? hg _)

theorem Reachable.relocate_back (h : Reachable c registry) (hr : registry.directory handle = some r)
    (ha : (registry.perform (.relocate handle base)).outcome = .ok .done)
    (hn : (registry.perform (.relocate handle base)).registry = next) :
    next.perform (.relocate handle r.base) = ⟨.ok .done, [], registry⟩ := by
  obtain ⟨i, hi, hg, rfl⟩ := h.relocate_eq hr ha hn
  have hs := (h.effect (.relocate handle base)).sound h.sound.1
  rw [hn] at hs
  obtain ⟨slab, rfl⟩ : ∃ slab, registry = ⟨c.clamped, .free slab⟩ := ⟨_, h.sound.2⟩
  have hi' : (slab.put i (r.movedTo base)).get? i = some (r.movedTo base) :=
    (Slab.get?_put_of_get? hg _ i).trans (if_pos rfl)
  refine relocate_of_sound hs hi hi' ?_ h.sound.1
  rw [Slab.put_put]
  exact Slab.put_eq_self hg

theorem Reachable.relocate_in_place (h : Reachable c registry) (hr : registry.directory handle = some r) :
    registry.perform (.relocate handle r.base) = ⟨.ok .done, [], registry⟩ := by
  obtain ⟨i, hi, hg⟩ := Slab.named?_eq_some_iff.mp hr
  obtain ⟨slab, rfl⟩ : ∃ slab, registry = ⟨c.clamped, .free slab⟩ := ⟨_, h.sound.2⟩
  exact relocate_of_sound h.sound.1 hi hg (Slab.put_eq_self hg) h.sound.1

theorem Reachable.resolve_at_offset (hv : c.verify = true) (h : Reachable c registry)
    (hr : registry.directory handle = some r) {o : Nat} (ho : o < r.size.toNat)
    (hpc : pc.toNat = r.base.toNat + o) :
    (∀ a, registry.metadata.resolve pc = .recover a ↔
        ∃ s, r.FirstAt s ∧ s.fault.toNat = o ∧ a.toNat = r.base.toNat + s.landing.toNat) ∧
      (registry.metadata.resolve pc = .unprotected ↔
        ¬ ∃ s, r.FirstAt s ∧ s.fault.toNat = o ∧ r.base.toNat + s.landing.toNat < UInt64.size) := by
  have hc : r.contains pc = true := by
    rw [Region.contains_iff]
    omega
  have hx (a : Address) : registry.metadata.resolve pc = .recover a ↔
      ∃ s, r.FirstAt s ∧ s.fault.toNat = o ∧ a.toNat = r.base.toNat + s.landing.toNat := by
    rw [h.resolve_of_contains hv hr hc]
    apply exists_congr
    intro s
    have hf : pc.toNat = r.base.toNat + s.fault.toNat ↔ s.fault.toNat = o := by omega
    rw [hf]
  refine ⟨hx, ?_, ?_⟩
  · rintro hu ⟨s, hs, hso, hlt⟩
    have ha := UInt64.toNat_ofNat_of_lt' hlt
    cases hu.symm.trans ((hx _).mpr ⟨s, hs, hso, ha⟩)
  · intro hn
    cases hl : registry.metadata.resolve pc with
    | recover a =>
        obtain ⟨s, hs, hso, ha⟩ := (hx a).mp hl
        exact absurd ⟨s, hs, hso, ha ▸ a.toNat_lt_size⟩ hn
    | unprotected => rfl
    | indeterminate => exact absurd hl h.resolve_ne_indeterminate

/-- A region that moves takes its landing pads along, wherever it was. Faults in other regions continue as
before, faults where it was and nothing is now do not, and it can always stay or be moved back. -/
theorem relocation_carries_sites (hv : c.verify = true) (h : Reachable c registry)
    (hr : registry.directory handle = some r)
    (ha : (registry.perform (.relocate handle base)).outcome = .ok .done)
    (hn : (registry.perform (.relocate handle base)).registry = next) :
    (∀ k e pc, k ≠ handle → registry.directory k = some e → e.contains pc = true →
        next.metadata.resolve pc = registry.metadata.resolve pc) ∧
      (∀ o pc, o < r.size.toNat → pc.toNat = base.toNat + o →
        (∀ a, next.metadata.resolve pc = .recover a ↔
          ∃ s, r.FirstAt s ∧ s.fault.toNat = o ∧ a.toNat = base.toNat + s.landing.toNat) ∧
        (next.metadata.resolve pc = .unprotected ↔
          ¬ ∃ s, r.FirstAt s ∧ s.fault.toNat = o ∧ base.toNat + s.landing.toNat < UInt64.size)) ∧
      (∀ pc, Region.contains ⟨base, r.size, r.sites⟩ pc = false →
        (∀ k e, k ≠ handle → registry.directory k = some e → e.contains pc = false) →
        next.metadata.resolve pc = .unprotected) ∧
      next.perform (.relocate handle r.base) = ⟨.ok .done, [], registry⟩ ∧
      registry.perform (.relocate handle r.base) = ⟨.ok .done, [], registry⟩ := by
  have hnext : Reachable c next := by
    rw [← hn]
    exact h.perform (.relocate handle base) (by rw [Report.survived, ha])
  have hd := h.directory_relocate hr ha hn
  have hself : next.directory handle = some ⟨base, r.size, r.sites⟩ := by rw [hd, Function.update_self]
  have hother {k : Handle} (hk : k ≠ handle) : next.directory k = registry.directory k := by
    rw [hd, Function.update_of_ne hk]
  refine ⟨?_, ?_, ?_, h.relocate_back hr ha hn, h.relocate_in_place hr⟩
  · intro k e pc hk he hc
    apply Lookup.eq_of_recover_iff hnext.resolve_ne_indeterminate h.resolve_ne_indeterminate
    intro a
    rw [hnext.resolve_of_contains hv ((hother hk).trans he) hc, h.resolve_of_contains hv he hc]
  · intro o pc ho hpc
    exact hnext.resolve_at_offset hv hself ho hpc
  · intro pc hc hk
    apply hnext.resolve_of_not_contains hv
    intro k e he
    by_cases hkh : k = handle
    · subst hkh
      obtain rfl := Option.some.inj (hself.symm.trans he)
      exact hc
    · exact hk k e hkh ((hother hkh).symm.trans he)

theorem relocation_carries_sites_past_end :
    ∃ registry next, Reachable ⟨true, 2, 4⟩ registry ∧
      (registry.perform (.relocate ⟨0⟩ 0xfffffffffffffff0)).registry = next ∧
      next.metadata.resolve 0xfffffffffffffff4 = .recover 0xfffffffffffffff8 ∧
      next.metadata.resolve 0xfffffffffffffff8 = .unprotected ∧
      next.perform (.relocate ⟨0⟩ 0x1000) = ⟨.ok .done, [], registry⟩ := by
  have h := (Reachable.new (c := ⟨true, 2, 4⟩)).performAll
    [.register ⟨0x1000, 0x20, [⟨4, 8⟩, ⟨4, 12⟩, ⟨8, 28⟩]⟩, .register ⟨0x2000, 0x10, [⟨0, 4⟩]⟩] (by decide +kernel)
  obtain ⟨-, hx, -, hb, -⟩ := relocation_carries_sites (r := ⟨0x1000, 0x20, [⟨4, 8⟩, ⟨4, 12⟩, ⟨8, 28⟩]⟩) rfl h
    (by decide +kernel : Registry.directory _ ⟨0⟩ = _)
    (by with_unfolding_all rfl : (perform _ (.relocate _ 0xfffffffffffffff0)).outcome = _) rfl
  have hfirst : (⟨0x1000, 0x20, [⟨4, 8⟩, ⟨4, 12⟩, ⟨8, 28⟩]⟩ : Region).FirstAt ⟨4, 8⟩ := ⟨[], _, rfl, by simp⟩
  refine ⟨_, _, h, rfl, ((hx 4 _ (by decide) (by decide)).1 _).mpr ⟨⟨4, 8⟩, hfirst, by decide, by decide⟩,
    (hx 8 _ (by decide) (by decide)).2.mpr ?_, hb⟩
  have hn : ∀ s ∈ ([⟨4, 8⟩, ⟨4, 12⟩, ⟨8, 28⟩] : List Site),
      ¬ (s.fault.toNat = 8 ∧ 0xfffffffffffffff0 + s.landing.toNat < UInt64.size) := by decide
  rintro ⟨s, hs, hlt⟩
  exact hn s hs.mem hlt

end Registry

end FaultRecovery
