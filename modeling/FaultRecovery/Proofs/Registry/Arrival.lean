import FaultRecovery.Proofs.Registry.Allocator
import FaultRecovery.Proofs.Registry.Failures
import FaultRecovery.Proofs.Registry.Relocation
import FaultRecovery.Proofs.Registry.Sequence

namespace FaultRecovery

variable {c : Config}

namespace Allocator

inductive Serves (c : Config) : Allocator → List Placement → Allocator → Prop where
  | nil (a : Allocator) : Serves c a [] a
  | cons {a b : Allocator} {p : Placement} {ps : List Placement} (hp : a.Grants c p)
      (hs : Serves c (a.take c).2 ps b) : Serves c a (p :: ps) b

/-- No region is looked at, so equally many placements are the same handles. -/
theorem Serves.unique {a b b' : Allocator} {ps qs : List Placement} (h : a.Serves c ps b)
    (h' : a.Serves c qs b') (hl : ps.length = qs.length) :
    ps.map Placement.handle = qs.map Placement.handle ∧ b = b' := by
  induction h generalizing qs with
  | nil =>
      cases h' with
      | nil => exact ⟨rfl, rfl⟩
      | cons => cases hl
  | cons hp _ ih =>
      cases h' with
      | nil => cases hl
      | cons hq hs' =>
          obtain ⟨hm, hb⟩ := ih hs' (Nat.succ.inj hl)
          rw [List.map_cons, List.map_cons, hp.handle_eq hq rfl, hm]
          exact ⟨rfl, hb⟩

end Allocator

namespace Registry

variable {registry last : Registry} {r s : Region} {rs order : List Region} {p : Placement} {ps : List Placement}
  {a : Allocator} {k : Handle}

/-- The registrations take the lock in this order. Each is granted a slot or refused one, and none rejected. -/
inductive Arrivals : Registry → List Region → List Placement → Registry → Prop where
  | nil (registry : Registry) : Arrivals registry [] [] registry
  | cons {registry last : Registry} {r : Region} {p : Placement} {rs : List Region} {ps : List Placement}
      (hp : (registry.perform (.register r)).outcome = .ok (.placement p))
      (hs : Arrivals (registry.perform (.register r)).registry rs ps last) :
      Arrivals registry (r :: rs) (p :: ps) last

theorem run_registerAll_iff :
    (registry.run (registerAll registry.config rs)).Answers ps last ↔ registry.Arrivals rs ps last := by
  induction rs generalizing registry ps with
  | nil =>
      constructor
      · rintro ⟨hp, rfl⟩
        obtain rfl := Except.ok.inj hp
        exact .nil registry
      · rintro ⟨⟩
        exact ⟨rfl, rfl⟩
  | cons r rs ih =>
      rw [run_registerAll_cons, Report.andThen_answers_iff]
      constructor
      · rintro ⟨p, hp, hs⟩
        obtain ⟨qs, hq, hl⟩ := Report.andThen_answers_iff.mp hs
        obtain ⟨hpq, hn⟩ := hl
        obtain ⟨ho, hr⟩ := run_register_iff.mp ⟨hp, rfl⟩
        obtain rfl := Except.ok.inj hpq
        refine .cons ho ?_
        rw [hr, ← ih, config_run]
        exact ⟨hq, hn⟩
      · rintro (_ | ⟨hp, hs⟩)
        obtain ⟨ho, hr⟩ := run_register_iff.mpr ⟨hp, rfl⟩
        rw [← ih, ← hr, config_run] at hs
        exact ⟨_, ho, Report.andThen_answers_iff.mpr ⟨_, hs.1, rfl, hs.2⟩⟩

/-- None of the registrations is rejected, in whatever order they take the lock. -/
def Welcomes (registry : Registry) (rs : List Region) : Prop :=
  ∀ order : List Region, order.Perm rs → ∃ ps last, registry.Arrivals order ps last

structure Compatible (registry : Registry) (rs : List Region) : Prop where
  fits : ∀ r ∈ rs, r.Fits
  apart : ∀ r ∈ rs, ∀ e, registry.Live e → e.overlaps r = false
  pairwise : rs.Pairwise fun r s => r.overlaps s = false

/-- The slots, as far as one can tell without a handle. -/
structure Shows (registry : Registry) (a : Allocator) : Prop where
  capacity : (registry.perform .capacity).outcome = .ok (.count a.capacity)
  size : (registry.perform .size).outcome = .ok (.count (a.capacity - a.stack.length))
  vacancies : (registry.perform .vacancies).outcome = .ok (.count a.stack.length)
  links : registry.metadata.value.Links a.stack

theorem Reachable.shows (h : Reachable c registry) (ha : a.Tracks registry.metadata.value) :
    registry.Shows a := by
  have hv : registry.metadata.value.vacancies = a.stack.length := ha.links.length_eq.symm
  refine ⟨?_, ?_, ?_, ha.links⟩
  · rw [← ha.capacity_eq]
    exact h.outcome_eq rfl
  · rw [← hv, ← ha.capacity_eq]
    exact h.outcome_eq rfl
  · rw [← hv]
    exact h.outcome_eq rfl

theorem Reachable.granted (h : Reachable c registry)
    (hp : (registry.perform (.register r)).outcome = .ok (.placement p)) :
    Reachable c (registry.perform (.register r)).registry := by
  refine h.perform _ ?_
  rw [Report.survived, hp]

theorem Reachable.granted_cases (h : Reachable c registry)
    (hp : (registry.perform (.register r)).outcome = .ok (.placement p)) :
    (p.handle.isValid = true ∧ registry.directory p.handle = none ∧
        (registry.perform (.register r)).registry.directory =
          Function.update registry.directory p.handle (some r)) ∨
      (p.handle.isValid = false ∧
        (registry.perform (.register r)).registry.directory = registry.directory) := by
  have hd := h.directory_step (.register r)
  rw [hp] at hd
  generalize (registry.perform (.register r)).registry.directory = d at hd
  cases hd with
  | placed hv hn => exact .inl ⟨hv, hn, rfl⟩
  | turnedAway ho =>
      cases p with
      | refused capacity => exact .inr ⟨rfl, rfl⟩
      | placed handle growth => exact absurd rfl (ho handle growth)
  | observed ho => cases ho

theorem Reachable.granted_of_isValid (h : Reachable c registry)
    (hp : (registry.perform (.register r)).outcome = .ok (.placement p)) (hv : p.handle.isValid = true) :
    registry.directory p.handle = none ∧
      (registry.perform (.register r)).registry.directory = Function.update registry.directory p.handle (some r) := by
  obtain ⟨-, hd⟩ | ⟨hn, -⟩ := h.granted_cases hp
  · exact hd
  · cases hn.symm.trans hv

theorem Reachable.tracks_granted (h : Reachable c registry) (ha : a.Tracks registry.metadata.value)
    (hp : (registry.perform (.register r)).outcome = .ok (.placement p)) :
    a.Grants c p ∧ (a.take c).2.Tracks (registry.perform (.register r)).registry.metadata.value := by
  have he := h.effect (.register r)
  have hs := ha.step he
  rw [hp] at hs
  exact ⟨ha.grants he hp, hs⟩

theorem Reachable.directory_granted (h : Reachable c registry)
    (hp : (registry.perform (.register r)).outcome = .ok (.placement p)) (hs : registry.directory k = some s) :
    (registry.perform (.register r)).registry.directory k = some s := by
  obtain ⟨-, hn, hd⟩ | ⟨-, hd⟩ := h.granted_cases hp
  · rw [hd, Function.update_of_ne, hs]
    rintro rfl
    cases hn.symm.trans hs
  · rw [hd, hs]

theorem Reachable.live_granted (h : Reachable c registry)
    (hp : (registry.perform (.register r)).outcome = .ok (.placement p))
    (hs : (registry.perform (.register r)).registry.Live s) : registry.Live s ∨ s = r := by
  obtain ⟨k, hk⟩ := hs
  change (registry.perform (.register r)).registry.directory k = some s at hk
  obtain ⟨-, -, hd⟩ | ⟨-, hd⟩ := h.granted_cases hp
  · rw [hd, Function.update_apply] at hk
    split at hk
    · exact .inr (Option.some.inj hk).symm
    · exact .inl ⟨k, hk⟩
  · rw [hd] at hk
    exact .inl ⟨k, hk⟩

namespace Arrivals

theorem length_eq (hs : registry.Arrivals rs ps last) : ps.length = rs.length := by
  induction hs with
  | nil => rfl
  | cons _ _ ih => rw [List.length_cons, List.length_cons, ih]

theorem reachable (hs : registry.Arrivals rs ps last) (h : Reachable c registry) : Reachable c last := by
  induction hs with
  | nil => exact h
  | cons hp _ ih => exact ih (h.granted hp)

theorem serves (hs : registry.Arrivals rs ps last) (h : Reachable c registry)
    (ha : a.Tracks registry.metadata.value) : ∃ b, a.Serves c ps b ∧ b.Tracks last.metadata.value := by
  induction hs generalizing a with
  | nil => exact ⟨a, .nil a, ha⟩
  | cons hp _ ih =>
      obtain ⟨hg, ht⟩ := h.tracks_granted ha hp
      obtain ⟨b, hb, hl⟩ := ih (h.granted hp) ht
      exact ⟨b, .cons hg hb, hl⟩

theorem directory_eq_some (hs : registry.Arrivals rs ps last) (h : Reachable c registry)
    (hk : registry.directory k = some s) : last.directory k = some s := by
  induction hs with
  | nil => exact hk
  | cons hp _ ih => exact ih (h.granted hp) (h.directory_granted hp hk)

theorem directory_eq_none (hs : registry.Arrivals rs ps last) (h : Reachable c registry) (hp : p ∈ ps)
    (hv : p.handle.isValid = true) : registry.directory p.handle = none := by
  induction hs with
  | nil => cases hp
  | cons hq _ ih =>
      rcases List.mem_cons.mp hp with rfl | hp
      · exact (h.granted_of_isValid hq hv).1
      · -- What is under a handle stays there, so a handle that is free later was free before.
        apply Option.eq_none_iff_forall_ne_some.mpr
        intro s hs
        cases (ih (h.granted hq) hp).symm.trans (h.directory_granted hq hs)

theorem nodup (hs : registry.Arrivals rs ps last) (h : Reachable c registry) :
    ((ps.map Placement.handle).filter Handle.isValid).Nodup := by
  induction hs with
  | nil => exact List.nodup_nil
  | @cons registry last r p rs ps hp hs ih =>
      have hn := ih (h.granted hp)
      rw [List.map_cons, List.filter_cons]
      obtain ⟨hv, -, hd⟩ | ⟨hv, -⟩ := h.granted_cases hp
      · rw [if_pos hv]
        refine List.nodup_cons.mpr ⟨?_, hn⟩
        intro hm
        obtain ⟨q, hq, he⟩ := List.mem_map.mp (List.mem_filter.mp hm).1
        have hf := hs.directory_eq_none (h.granted hp) hq (he ▸ hv)
        rw [he, hd, Function.update_self] at hf
        cases hf
      · rw [if_neg (Bool.not_eq_true _ ▸ hv)]
        exact hn

theorem directory_of_mem (hs : registry.Arrivals rs ps last) (h : Reachable c registry)
    (hm : (r, p) ∈ rs.zip ps) (hv : p.handle.isValid = true) : last.directory p.handle = some r := by
  induction hs with
  | nil => cases hm
  | cons hq hs ih =>
      rcases List.mem_cons.mp hm with he | hm
      · obtain ⟨rfl, rfl⟩ := Prod.mk.inj he
        apply hs.directory_eq_some (h.granted hq)
        rw [(h.granted_of_isValid hq hv).2, Function.update_self]
      · exact ih (h.granted hq) hm

theorem live_iff (hs : registry.Arrivals rs ps last) (h : Reachable c registry)
    (hv : ∀ p ∈ ps, p.handle.isValid = true) : last.Live s ↔ registry.Live s ∨ s ∈ rs := by
  induction hs with
  | nil => simp
  | @cons registry last r p rs ps hp hs ih =>
      obtain ⟨hvp, hv⟩ := List.forall_mem_cons.mp hv
      rw [ih (h.granted hp) hv, List.mem_cons, ← or_assoc]
      apply or_congr_left
      constructor
      · exact h.live_granted hp
      · rintro (⟨k, hk⟩ | rfl)
        · exact ⟨k, h.directory_granted hp hk⟩
        · have hd := (h.granted_of_isValid hp hvp).2
          exact ⟨p.handle, (congrFun hd p.handle).trans (Function.update_self ..)⟩

end Arrivals

namespace Compatible

theorem perm (hc : registry.Compatible rs) (hp : order.Perm rs) : registry.Compatible order := by
  refine ⟨?_, ?_, ?_⟩
  · intro r hr
    exact hc.fits r (hp.mem_iff.mp hr)
  · intro r hr
    exact hc.apart r (hp.mem_iff.mp hr)
  · refine (hp.pairwise_iff ?_).mpr hc.pairwise
    intro r s ho
    rwa [Region.overlaps_comm]

theorem granted (hc : registry.Compatible (r :: rs)) (h : Reachable c registry)
    (hp : (registry.perform (.register r)).outcome = .ok (.placement p)) :
    (registry.perform (.register r)).registry.Compatible rs := by
  obtain ⟨hr, hrs⟩ := List.pairwise_cons.mp hc.pairwise
  refine ⟨(List.forall_mem_cons.mp hc.fits).2, ?_, hrs⟩
  intro s hs e he
  rcases h.live_granted hp he with he | rfl
  · exact hc.apart s (List.mem_cons_of_mem _ hs) e he
  · exact hr s hs

theorem exists_granted (hc : c.verify = true → registry.Compatible (r :: rs)) (h : Reachable c registry) :
    ∃ p, (registry.perform (.register r)).outcome = .ok (.placement p) := by
  obtain ⟨past, hr⟩ := h.exists_run
  obtain ⟨hv, cause, seen, he⟩ | ⟨p, hp, -⟩ := hr.register_granted r
  · obtain ⟨-, ⟨e, hl, ho⟩ | hf⟩ := (h.register_fails_iff r).mp ⟨_, he⟩
    · cases ((hc hv).apart r List.mem_cons_self e hl).symm.trans ho
    · exact absurd ((hc hv).fits r List.mem_cons_self) hf
  · exact ⟨p, hp⟩

theorem exists_arrivals (hc : c.verify = true → registry.Compatible rs) (h : Reachable c registry) :
    ∃ ps last, registry.Arrivals rs ps last := by
  induction rs generalizing registry with
  | nil => exact ⟨[], registry, .nil registry⟩
  | cons r rs ih =>
      obtain ⟨p, hp⟩ := exists_granted hc h
      obtain ⟨ps, last, hs⟩ := ih (fun hv => (hc hv).granted h hp) (h.granted hp)
      exact ⟨p :: ps, last, .cons hp hs⟩

end Compatible

theorem Arrivals.resolve_eq {order' : List Region} {qs : List Placement} {last' : Registry} (hv : c.verify = true)
    (h : Reachable c registry) (hs : registry.Arrivals order ps last) (hs' : registry.Arrivals order' qs last')
    (hp : order.Perm order') (hps : ∀ p ∈ ps, p.handle.isValid = true)
    (hqs : ∀ q ∈ qs, q.handle.isValid = true) (pc : Address) :
    last.metadata.resolve pc = last'.metadata.resolve pc := by
  have hr := hs.reachable h
  have hr' := hs'.reachable h
  apply Lookup.eq_of_recover_iff hr.resolve_ne_indeterminate hr'.resolve_ne_indeterminate
  intro landing
  rw [resolve_eq_recover_iff hv hr, resolve_eq_recover_iff hv hr']
  simp only [hs.live_iff h hps, hs'.live_iff h hqs, hp.mem_iff]

/-- Registrations that are compatible with each other and with what is live are never rejected. The same handles
are given out turn by turn whoever takes it, and so they are the same once sorted. None is given out twice or was
in use, and each names the region it was given for. -/
theorem registrations_in_any_order (h : Reachable c registry) (rs : List Region) :
    ((c.verify = true → registry.Compatible rs) → registry.Welcomes rs) ∧
      (registry.Welcomes rs → ∃ handles a, ∃ lookup : Address → Lookup,
        (handles.filter Handle.isValid).Nodup ∧
        (∀ handle ∈ handles, handle.isValid = true → registry.directory handle = none) ∧
        ∀ order ps last, order.Perm rs → registry.Arrivals order ps last →
          ps.map Placement.handle = handles ∧ last.Shows a ∧
          (∀ r p, (r, p) ∈ order.zip ps → p.handle.isValid = true →
            (last.perform (.region p.handle)).outcome = .ok (.region (some r))) ∧
          (c.verify = true → (∀ handle ∈ handles, handle.isValid = true) →
            ∀ pc, last.metadata.resolve pc = lookup pc)) := by
  constructor
  · intro hc order hp
    exact Compatible.exists_arrivals (fun hv => (hc hv).perm hp) h
  · intro hw
    obtain ⟨past, hr⟩ := h.exists_run
    -- One order fixes the handles, the slots and the lookups, and each other order is compared with it.
    obtain ⟨qs, first, hq⟩ := hw rs (List.Perm.refl rs)
    obtain ⟨b, hb, -⟩ := hq.serves h hr.tracks
    refine ⟨qs.map Placement.handle, b, fun pc => first.metadata.resolve pc, hq.nodup h, ?_, ?_⟩
    · intro handle hm hv
      obtain ⟨q, hmq, rfl⟩ := List.mem_map.mp hm
      exact hq.directory_eq_none h hmq hv
    · intro order ps last hp hs
      have hl := hs.reachable h
      obtain ⟨b', hb', ht⟩ := hs.serves h hr.tracks
      have hlen : ps.length = qs.length := hs.length_eq.trans (hp.length_eq.trans hq.length_eq.symm)
      obtain ⟨he, rfl⟩ := hb'.unique hb hlen
      refine ⟨he, hl.shows ht, ?_, ?_⟩
      · intro r p hm hv
        rw [← hs.directory_of_mem h hm hv]
        exact hl.outcome_eq rfl
      · intro hv hqs pc
        have hps : ∀ handle ∈ ps.map Placement.handle, handle.isValid = true := he ▸ hqs
        exact hs.resolve_eq hv h hq hp (List.forall_mem_map.mp hps) (List.forall_mem_map.mp hqs) pc

theorem registrations_in_two_orders :
    ∃ registry ps qs last last', Reachable ⟨true, 1, 4⟩ registry ∧
      registry.Arrivals [⟨0x2000, 0x10, [⟨4, 8⟩]⟩, ⟨0x3000, 0x10, []⟩, ⟨0x1010, 0x20, [⟨0, 4⟩]⟩] ps last ∧
      registry.Arrivals [⟨0x1010, 0x20, [⟨0, 4⟩]⟩, ⟨0x2000, 0x10, [⟨4, 8⟩]⟩, ⟨0x3000, 0x10, []⟩] qs last' ∧
      ps.map Placement.handle = qs.map Placement.handle ∧ last ≠ last' ∧
      ∀ pc, last.metadata.resolve pc = last'.metadata.resolve pc := by
  have h := (Reachable.new (c := ⟨true, 1, 4⟩)).performAll [.register ⟨0x1000, 0x10, [⟨0, 4⟩]⟩] (by decide +kernel)
  have hc : Compatible (performAll (.new ⟨true, 1, 4⟩) [.register ⟨0x1000, 0x10, [⟨0, 4⟩]⟩])
      [⟨0x2000, 0x10, [⟨4, 8⟩]⟩, ⟨0x3000, 0x10, []⟩, ⟨0x1010, 0x20, [⟨0, 4⟩]⟩] := by
    refine ⟨?_, ?_, by decide⟩
    · simp only [← Region.misfit?_eq_none_iff]
      decide
    · simp only [forall_live_iff h, ← Slab.find?_entries_eq_none_iff]
      decide +kernel
  have hs : Arrivals (performAll (.new ⟨true, 1, 4⟩) [.register ⟨0x1000, 0x10, [⟨0, 4⟩]⟩])
      [⟨0x2000, 0x10, [⟨4, 8⟩]⟩, ⟨0x3000, 0x10, []⟩, ⟨0x1010, 0x20, [⟨0, 4⟩]⟩]
      [.placed ⟨1⟩ (some ⟨1, 2⟩), .placed ⟨2⟩ (some ⟨2, 4⟩), .placed ⟨3⟩ none] _ :=
    .cons (by with_unfolding_all rfl) (.cons (by with_unfolding_all rfl) (.cons (by with_unfolding_all rfl) (.nil _)))
  have ht : Arrivals (performAll (.new ⟨true, 1, 4⟩) [.register ⟨0x1000, 0x10, [⟨0, 4⟩]⟩])
      [⟨0x1010, 0x20, [⟨0, 4⟩]⟩, ⟨0x2000, 0x10, [⟨4, 8⟩]⟩, ⟨0x3000, 0x10, []⟩]
      [.placed ⟨1⟩ (some ⟨1, 2⟩), .placed ⟨2⟩ (some ⟨2, 4⟩), .placed ⟨3⟩ none] _ :=
    .cons (by with_unfolding_all rfl) (.cons (by with_unfolding_all rfl) (.cons (by with_unfolding_all rfl) (.nil _)))
  obtain ⟨hw, hu⟩ := registrations_in_any_order h
    [⟨0x2000, 0x10, [⟨4, 8⟩]⟩, ⟨0x3000, 0x10, []⟩, ⟨0x1010, 0x20, [⟨0, 4⟩]⟩]
  obtain ⟨handles, a, lookup, -, -, ho⟩ := hu (hw fun _ => hc)
  obtain ⟨rfl, -, -, hr⟩ := ho _ _ _ (List.Perm.refl _) hs
  obtain ⟨he, -, -, hr'⟩ := ho _ _ _ (by decide) ht
  refine ⟨_, _, _, _, _, h, hs, ht, he.symm, ?_, ?_⟩
  · decide +kernel
  · intro pc
    exact (hr rfl (by decide) pc).trans (hr' rfl (by decide) pc).symm

end Registry

end FaultRecovery
