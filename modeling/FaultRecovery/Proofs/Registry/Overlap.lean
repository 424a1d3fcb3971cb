import FaultRecovery.Proofs.Registry.Relocation

namespace FaultRecovery

variable {slab rest : Slab Region} {r : Region} {i : Nat} {base : Address}

namespace Slab

theorem checkDisjoint_congr (h : rest.slots = slab.slots) (r : Region) :
    rest.checkDisjoint r = slab.checkDisjoint r := by
  rw [checkDisjoint, entries, h, checkDisjoint, entries]

theorem checkRelocation_eq_checkDisjoint (h : slab.get? i = some r) (base : Address) (next : Option Nat) :
    slab.checkRelocation i base = (slab.clear i next).checkDisjoint (r.movedTo base) := by
  have hc : (fun e => (r.movedTo base).overlaps e) = fun e => e.overlaps (r.movedTo base) := by
    funext e
    exact Region.overlaps_comm (r.movedTo base) e
  rw [checkRelocation_of_get? h, others_eq_entries_clear slab i next, hc]
  rfl

theorem checkRelocation_eq_ok_iff_apart (ha : slab.Apart) (h : slab.get? i = some r) :
    slab.checkRelocation i base = .ok () ↔ (slab.put i (r.movedTo base)).Apart := by
  have hg := get?_put_of_get? h (r.movedTo base)
  rw [checkRelocation_eq_ok_iff h]
  constructor
  · intro hr
    exact ha.update hg hr
  · intro hp j e hj he
    apply hp i j _ _ (Ne.symm hj)
    · rw [hg, if_pos rfl]
    · rw [hg, if_neg (Ne.symm hj), he]

/-- A move is checked as the addition of the moved region would be if its slot were vacant, whatever the slots hold
and wherever their links lead. If the regions are apart before, it is accepted just if they are apart after it. -/
theorem relocation_checked_as_addition (slab : Slab Region) (i : Nat) (base : Address) :
    (slab.get? i = none → slab.checkRelocation i base = .ok ()) ∧
      (∀ r next head, slab.get? i = some r → slab.checkRelocation i base =
        checkDisjoint ⟨slab.slots.setIfInBounds i (.vacant next), head⟩ ⟨base, r.size, r.sites⟩) ∧
      ∃ moved rest, modify i (fun r => r.movedTo base) slab = .ok moved rest ∧
        (slab.Apart → (slab.checkRelocation i base = .ok () ↔ rest.Apart)) := by
  have hnone (h : slab.get? i = none) : slab.checkRelocation i base = .ok () := by rw [checkRelocation, h]
  refine ⟨hnone, ?_, ?_⟩
  · intro r next head h
    rw [checkRelocation_eq_checkDisjoint h base next]
    exact checkDisjoint_congr rfl _
  · cases h : slab.get? i with
    | none => exact ⟨_, _, modify_of_get?_eq_none h _, fun ha => iff_of_true (hnone h) ha⟩
    | some r => exact ⟨_, _, modify_of_get? h _, fun ha => checkRelocation_eq_ok_iff_apart ha h⟩

theorem relocation_checked_beside_double :
    ∃ slab : Slab Region, slab.get? 0 = slab.get? 2 ∧ slab.slots[1]? = some (.vacant (some 9)) ∧
      slab.checkRelocation 0 0x1018 = .error (.overlap ⟨0x1018, 0x1038⟩ ⟨0x1000, 0x1020⟩) ∧
      slab.checkRelocation 1 0x1018 = .ok () := by
  refine ⟨⟨#[.occupied ⟨0x1000, 0x20, []⟩, .vacant (some 9), .occupied ⟨0x1000, 0x20, []⟩], some 5⟩, rfl, rfl, ?_, ?_⟩
  · exact ((relocation_checked_as_addition _ 0 0x1018).2.1 _ none none rfl).trans rfl
  · exact (relocation_checked_as_addition _ 1 0x1018).1 rfl

end Slab

variable {c : Config} {registry next : Registry} {handle : Handle}

theorem Slab.misfit?_put_movedTo (h : slab.get? i = some r) :
    (slab.put i (r.movedTo base)).misfit? = none ↔ slab.misfit? = none := by
  have hs := forall_get?_put_iff h r (p := Region.Fits)
  rw [put_eq_self h] at hs
  rw [misfit?_eq_none_iff, misfit?_eq_none_iff, hs]
  exact forall_get?_put_iff h (r.movedTo base)

namespace Registry

theorem Reachable.answered (h : Reachable c registry) {request : Request} {reply : Reply}
    (ho : (registry.perform request).outcome = .ok reply) : Reachable c (registry.perform request).registry :=
  h.perform request (by rw [Report.survived, ho])

theorem Reachable.relocate_unverified (hv : c.verify = false) (h : Reachable c registry)
    (hr : registry.directory handle = some r) (base : Address) :
    (registry.perform (.relocate handle base)).outcome = .ok .done := by
  obtain ⟨i, hi, hg⟩ := Slab.named?_eq_some_iff.mp hr
  obtain ⟨hs, he⟩ := h.sound
  have hc : c.clamped.verify = false := hv
  have hm : Effect c.clamped _ (.relocate handle base) _ := .moved hi hg fun hx => Bool.noConfusion (hc.symm.trans hx)
  rw [he, perform_of_effect hm hs]
  rfl

theorem Reachable.audit_relocate (h : Reachable c registry) (hr : registry.directory handle = some r)
    (ha : (registry.perform (.relocate handle base)).outcome = .ok .done)
    (hn : (registry.perform (.relocate handle base)).registry = next) :
    (next.perform .audit).outcome = .ok (.verdict none) ↔ (registry.perform .audit).outcome = .ok (.verdict none) := by
  have hnext : Reachable c next := hn ▸ h.answered ha
  obtain ⟨i, -, hg, rfl⟩ := h.relocate_eq hr ha hn
  rw [hnext.outcome_audit, h.outcome_audit, Except.ok.injEq, Except.ok.injEq, Reply.verdict.injEq, Reply.verdict.injEq]
  exact Slab.misfit?_put_movedTo hg

/-- Under verification there are no overlaps for an audit to find. Without it an audit finds none either: of any two
regions that are not empty one can be moved on top of the other, and the audit passes both as it did before. -/
theorem audit_passes_over_overlaps (h : Reachable c registry) :
    (c.verify = true → ∀ handle k r s, handle ≠ k → registry.directory handle = some r →
        registry.directory k = some s → r.overlaps s = false) ∧
      (∀ new existing, (registry.perform .audit).outcome ≠ .ok (.verdict (some (.overlap new existing)))) ∧
      (c.verify = false → ∀ handle k r s, handle ≠ k → registry.directory handle = some r →
        registry.directory k = some s → 0 < r.size.toNat → 0 < s.size.toNat → s.base ≠ .last →
        ∃ next, (registry.perform (.relocate handle s.base)).registry = next ∧ Reachable c next ∧
          next.directory handle = some ⟨s.base, r.size, r.sites⟩ ∧ next.directory k = some s ∧
          Region.overlaps ⟨s.base, r.size, r.sites⟩ s = true ∧
          ((next.perform .audit).outcome = .ok (.verdict none) ↔
            (registry.perform .audit).outcome = .ok (.verdict none))) := by
  refine ⟨?_, ?_, ?_⟩
  · intro hv handle k r s hne hr hs
    exact h.overlaps_eq_false hv hne hr hs
  · intro new existing ho
    rw [h.outcome_audit, Except.ok.injEq, Reply.verdict.injEq, Slab.misfit?_eq_some_iff] at ho
    obtain ⟨i, r, s, -, -, he⟩ := ho
    cases he
  · intro hv handle k r s hne hr hs hrs hss hl
    have ha := h.relocate_unverified hv hr s.base
    have hd := h.directory_relocate hr ha rfl
    refine ⟨_, rfl, h.answered ha, ?_, ?_, ?_, h.audit_relocate hr ha rfl⟩
    · rw [hd, Function.update_self]
    · rw [hd, Function.update_of_ne hne.symm, hs]
    · exact Region.overlaps_of_same_base rfl hrs hss hl

theorem overlapping_regions_pass_audit :
    ∃ registry r s, Reachable ⟨false, 4, 4⟩ registry ∧ registry.directory ⟨0⟩ = some r ∧
      registry.directory ⟨1⟩ = some s ∧ r.overlaps s = true ∧
      (registry.perform .audit).outcome = .ok (.verdict none) := by
  have h := (Reachable.new (c := ⟨false, 4, 4⟩)).performAll
    [.register ⟨0, 100, []⟩, .register ⟨50, 100, []⟩] (by decide +kernel)
  exact ⟨_, ⟨0, 100, []⟩, ⟨50, 100, []⟩, h, by decide +kernel, by decide +kernel, by decide,
    h.outcome_eq (by decide +kernel)⟩

theorem moved_region_passes_audit :
    ∃ registry next r s, Reachable ⟨false, 1, 8⟩ registry ∧
      (registry.perform (.relocate ⟨1⟩ 0x1000)).registry = next ∧ next.directory ⟨1⟩ = some r ∧
      next.directory ⟨0⟩ = some s ∧ r.overlaps s = true ∧ (next.perform .audit).outcome = .ok (.verdict none) := by
  have h := (Reachable.new (c := ⟨false, 1, 8⟩)).performAll
    [.register ⟨0x1000, 0x20, [⟨4, 8⟩]⟩, .register ⟨0x2000, 0x10, [⟨0, 4⟩]⟩] (by decide +kernel)
  obtain ⟨-, -, hm⟩ := audit_passes_over_overlaps h
  obtain ⟨next, hn, -, hr, hs, ho, ha⟩ := hm rfl ⟨1⟩ ⟨0⟩ ⟨0x2000, 0x10, [⟨0, 4⟩]⟩ ⟨0x1000, 0x20, [⟨4, 8⟩]⟩ (by decide)
    (by decide +kernel) (by decide +kernel) (by decide) (by decide) (by decide)
  exact ⟨_, next, _, _, h, hn, hr, hs, ho, ha.mpr (h.outcome_eq (by decide +kernel))⟩

end Registry

end FaultRecovery
