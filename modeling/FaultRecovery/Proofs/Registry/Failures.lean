import FaultRecovery.Proofs.Registry.Directory

namespace FaultRecovery

/-- Why a request fails. Of several reasons the first in slot order is given, and a region is looked at only
where it overlaps no other. -/
inductive Fails (verify : Bool) (slab : Slab Region) : Request → Stop → Prop where
  | overlap {r e : Region} {i : Nat} (hv : verify = true)
      (he : slab.First (fun _ e => e.overlaps r = true) i e) :
      Fails verify slab (.register r) (.rejected (.inconsistent
        (.overlap ⟨r.base, r.base.addClamped r.size⟩ ⟨e.base, e.base.addClamped e.size⟩)))
  | misfit {r : Region} {s : Site} (hv : verify = true)
      (ha : ∀ i e, slab.get? i = some e → e.overlaps r = false) (hs : r.FirstMisfit s) :
      Fails verify slab (.register r) (.rejected (.inconsistent
        (.misfit ⟨r.base, r.base.addClamped r.size⟩ s)))
  | strayRelease {handle : Handle} (hv : verify = true) (hs : handle ≠ .sentinel)
      (hn : slab.named? handle = none) :
      Fails verify slab (.release handle) (.rejected (.strayRelease handle))
  | obstructed {handle : Handle} {base : Address} {i j : Nat} {r e : Region} (hv : verify = true)
      (hi : handle.index? = some i) (hg : slab.get? i = some r)
      (he : slab.First (fun k e => k ≠ i ∧ Region.overlaps ⟨base, r.size, r.sites⟩ e = true) j e) :
      Fails verify slab (.relocate handle base) (.rejected (.inconsistent
        (.overlap ⟨base, base.addClamped r.size⟩ ⟨e.base, e.base.addClamped e.size⟩)))
  | strayRelocation {handle : Handle} {base : Address} (hn : slab.named? handle = none) :
      Fails verify slab (.relocate handle base) (.fatal (.strayRelocation handle))

variable {c : Config} {slab : Slab Region} {request : Request}

theorem Effect.fails {report : Report Reply} {failure : Failure} (he : Effect c slab request report)
    (ho : report.outcome = .error failure) :
    Fails c.verify slab request failure.cause ∧ failure.seen = ⟨true, slab⟩ := by
  cases he with
  | collided hv hf =>
      obtain rfl := Except.error.inj ho
      exact ⟨.overlap hv hf, rfl⟩
  | misfit hv ha hs =>
      obtain rfl := Except.error.inj ho
      exact ⟨.misfit hv ha hs, rfl⟩
  | strayRejected hv hs hn =>
      obtain rfl := Except.error.inj ho
      exact ⟨.strayRelease hv hs hn, rfl⟩
  | lost hn =>
      obtain rfl := Except.error.inj ho
      exact ⟨.strayRelocation hn, rfl⟩
  | @obstructed handle base i j r e hv hi hg hf =>
      obtain rfl := Except.error.inj ho
      exact ⟨.obstructed (r := r) hv hi hg hf, rfl⟩
  | refused | placed | spared | released | strayIgnored | moved | answered => cases ho

theorem Fails.outcome_eq {report : Report Reply} {cause : Stop} (hf : Fails c.verify slab request cause)
    (he : Effect c slab request report) : report.outcome = .error ⟨cause, ⟨true, slab⟩⟩ := by
  cases hf with
  | @overlap r e i hv hf =>
      have hn : ¬ ∀ i e, slab.get? i = some e → e.overlaps r = false := by
        intro ha
        exact Bool.noConfusion ((ha _ _ hf.entry).symm.trans hf.holds)
      cases he with
      | collided _ hf' =>
          obtain ⟨-, rfl⟩ := hf.unique hf'
          rfl
      | misfit _ ha _ => exact absurd ha hn
      | refused ha => exact absurd (ha hv).apart hn
      | placed ha => exact absurd (ha hv).apart hn
      | answered ha => cases ha
  | misfit hv ha hs =>
      -- The checks are made in this order: a collision would have come first.
      cases he with
      | collided _ hf => exact Bool.noConfusion ((ha _ _ hf.entry).symm.trans hf.holds)
      | misfit _ _ hs' =>
          obtain rfl := hs.unique hs'
          rfl
      | refused hr => exact absurd (hr hv).fits hs.not_fits
      | placed hr => exact absurd (hr hv).fits hs.not_fits
      | answered ha => cases ha
  | strayRelease hv hs hn =>
      cases he with
      | spared => exact absurd rfl hs
      | released hi hr => simp [Slab.named?_eq_some_iff.mpr ⟨_, hi, (Slab.vacate?_eq_some_iff.mp hr).1⟩] at hn
      | strayIgnored hv' => exact Bool.noConfusion (hv'.symm.trans hv)
      | strayRejected => rfl
      | answered ha => cases ha
  | obstructed hv hi hg hf =>
      cases he with
      | lost hn => simp [Slab.named?_eq_some_iff.mpr ⟨_, hi, hg⟩] at hn
      | obstructed _ hi' hg' hf' =>
          obtain rfl := Option.some.inj (hi.symm.trans hi')
          obtain rfl := Option.some.inj (hg.symm.trans hg')
          obtain ⟨-, rfl⟩ := hf.unique hf'
          rfl
      | moved hi' hg' ha =>
          obtain rfl := Option.some.inj (hi.symm.trans hi')
          obtain rfl := Option.some.inj (hg.symm.trans hg')
          exact Bool.noConfusion ((ha hv _ _ hf.holds.1 hf.entry).symm.trans hf.holds.2)
      | answered ha => cases ha
  | strayRelocation hn =>
      cases he with
      | lost => rfl
      | obstructed _ hi hg => simp [Slab.named?_eq_some_iff.mpr ⟨_, hi, hg⟩] at hn
      | moved hi hg => simp [Slab.named?_eq_some_iff.mpr ⟨_, hi, hg⟩] at hn
      | answered ha => cases ha

namespace Registry

variable {registry : Registry}

theorem Reachable.failure_iff (h : Reachable c registry) {failure : Failure} :
    (registry.perform request).outcome = .error failure ↔
      Fails c.verify registry.metadata.value request failure.cause ∧
        failure.seen = ⟨true, registry.metadata.value⟩ := by
  have he := h.effect request
  constructor
  · exact he.fails
  · rintro ⟨hf, hs⟩
    rw [Fails.outcome_eq (c := c.clamped) hf he, ← hs]

theorem Reachable.exists_failure_iff (h : Reachable c registry) :
    (∃ failure, (registry.perform request).outcome = .error failure) ↔
      ∃ cause, Fails c.verify registry.metadata.value request cause := by
  simp only [h.failure_iff]
  constructor
  · rintro ⟨failure, hf, -⟩
    exact ⟨_, hf⟩
  · rintro ⟨cause, hf⟩
    exact ⟨⟨cause, _⟩, hf, rfl⟩

theorem Reachable.register_fails_iff (h : Reachable c registry) (r : Region) :
    (∃ failure, (registry.perform (.register r)).outcome = .error failure) ↔
      c.verify = true ∧ ((∃ e, registry.Live e ∧ e.overlaps r = true) ∨ ¬ r.Fits) := by
  have hl : (∃ e, registry.Live e ∧ e.overlaps r = true) ↔
      ∃ i e, registry.metadata.value.First (fun _ e => e.overlaps r = true) i e := by
    simp only [Slab.exists_first_iff, live_iff h, ← exists_and_right]
    exact exists_comm
  rw [h.exists_failure_iff, hl]
  constructor
  · rintro ⟨cause, hf⟩
    cases hf with
    | overlap hv he => exact ⟨hv, .inl ⟨_, _, he⟩⟩
    | misfit hv ha hs => exact ⟨hv, .inr hs.not_fits⟩
  · rintro ⟨hv, hr⟩
    by_cases he : ∃ i e, registry.metadata.value.First (fun _ e => e.overlaps r = true) i e
    · obtain ⟨i, e, he⟩ := he
      exact ⟨_, .overlap hv he⟩
    · obtain ⟨s, hs⟩ := Region.exists_firstMisfit_iff.mpr (hr.resolve_left he)
      refine ⟨_, .misfit hv ?_ hs⟩
      intro i e hi
      rw [Bool.eq_false_iff]
      intro ho
      exact he (Slab.exists_first_iff.mpr ⟨i, e, hi, ho⟩)

theorem Reachable.release_fails_iff (h : Reachable c registry) (handle : Handle) :
    (∃ failure, (registry.perform (.release handle)).outcome = .error failure) ↔
      c.verify = true ∧ handle ≠ .sentinel ∧ registry.directory handle = none := by
  rw [h.exists_failure_iff]
  constructor
  · rintro ⟨cause, hf⟩
    cases hf with
    | strayRelease hv hs hn => exact ⟨hv, hs, hn⟩
  · rintro ⟨hv, hs, hn⟩
    exact ⟨_, .strayRelease hv hs hn⟩

theorem Reachable.relocate_fails_iff (h : Reachable c registry) (handle : Handle) (base : Address) :
    (∃ failure, (registry.perform (.relocate handle base)).outcome = .error failure) ↔
      registry.directory handle = none ∨ c.verify = true ∧
        ∃ r k e, registry.directory handle = some r ∧ k ≠ handle ∧ registry.directory k = some e ∧
          Region.overlaps ⟨base, r.size, r.sites⟩ e = true := by
  rw [h.exists_failure_iff]
  constructor
  · rintro ⟨cause, hf⟩
    cases hf with
    | strayRelocation hn => exact .inl hn
    | obstructed hv hi hg he =>
        obtain ⟨k, hj, hk⟩ := h.sound.1.exists_named he.entry
        have hne : k ≠ handle := (Handle.ne_iff_of_index? hj hi).mpr he.holds.1
        exact .inr ⟨hv, _, k, _, Slab.named?_eq_some_iff.mpr ⟨_, hi, hg⟩, hne, hk, he.holds.2⟩
  · rintro (hn | ⟨hv, r, k, e, hr, hne, hk, ho⟩)
    · exact ⟨_, .strayRelocation hn⟩
    · obtain ⟨i, hi, hg⟩ := Slab.named?_eq_some_iff.mp hr
      obtain ⟨j, hj, hg'⟩ := Slab.named?_eq_some_iff.mp hk
      have hji : j ≠ i := (Handle.ne_iff_of_index? hj hi).mp hne
      have hf : ∃ j e, registry.metadata.value.First (fun k e => k ≠ i ∧ Region.overlaps ⟨base, r.size, r.sites⟩ e = true) j e :=
        Slab.exists_first_iff.mpr ⟨j, e, hg', hji, ho⟩
      obtain ⟨j, e, hf⟩ := hf
      exact ⟨_, .obstructed hv hi hg hf⟩

/-- The listed reasons are all there are, and each is met just where callers can see that it must be. -/
theorem failures_complete (h : Reachable c registry) :
    (∀ request failure, (registry.perform request).outcome = .error failure ↔
        Fails c.verify registry.metadata.value request failure.cause ∧
          failure.seen = ⟨true, registry.metadata.value⟩) ∧
      (∀ r, (∃ failure, (registry.perform (.register r)).outcome = .error failure) ↔
        c.verify = true ∧ ((∃ e, registry.Live e ∧ e.overlaps r = true) ∨ ¬ r.Fits)) ∧
      (∀ handle, (∃ failure, (registry.perform (.release handle)).outcome = .error failure) ↔
        c.verify = true ∧ handle ≠ .sentinel ∧ registry.directory handle = none) ∧
      ∀ handle base, (∃ failure, (registry.perform (.relocate handle base)).outcome = .error failure) ↔
        registry.directory handle = none ∨ c.verify = true ∧
          ∃ r k e, registry.directory handle = some r ∧ k ≠ handle ∧ registry.directory k = some e ∧
            Region.overlaps ⟨base, r.size, r.sites⟩ e = true :=
  ⟨fun _ _ => h.failure_iff, h.register_fails_iff, h.release_fails_iff, h.relocate_fails_iff⟩

/-- Of two regions in the way the one in the lower slot is named, and the misfit of the new region is not. -/
theorem failures_complete_overlap :
    ∃ registry failure, Reachable ⟨true, 1, 8⟩ registry ∧
      (registry.perform (.register ⟨0x1000, 0x2000, [⟨4, 4⟩]⟩)).outcome = .error failure ∧
      failure.cause = .rejected (.inconsistent (.overlap ⟨0x1000, 0x3000⟩ ⟨0x2000, 0x2010⟩)) := by
  have h := Reachable.perform (.perform (.perform (.perform (Reachable.new (c := ⟨true, 1, 8⟩))
    (.register ⟨0x1800, 0x10, []⟩) (by decide +kernel))
    (.register ⟨0x2000, 0x10, []⟩) (by decide +kernel))
    (.register ⟨0x1000, 0x10, []⟩) (by decide +kernel))
    (.release ⟨0⟩) (by decide +kernel)
  refine ⟨_, ⟨_, _⟩, h, ((failures_complete h).1 _ _).mpr ⟨?_, rfl⟩, rfl⟩
  refine Fails.overlap (e := ⟨0x2000, 0x10, []⟩) (i := 1) rfl ⟨by decide +kernel, by decide, fun j b hj hb => ?_⟩
  obtain rfl := Nat.lt_one_iff.mp hj
  have he : some b = none := hb.symm.trans (by decide +kernel)
  cases he

end Registry

end FaultRecovery
