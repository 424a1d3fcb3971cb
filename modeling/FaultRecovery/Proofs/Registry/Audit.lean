import FaultRecovery.Proofs.Registry.Execution

namespace FaultRecovery

variable {c : Config} {slab : Slab Region} {registry : Registry}

theorem Slab.answer?_audit {is : List Nat} (hl : slab.Links is) :
    slab.answer? .audit = some (.verdict slab.misfit?) := by
  rw [answer?, check_of_links hl]
  cases slab.misfit? <;> rfl

namespace Registry

theorem Reachable.outcome_eq (h : Reachable c registry) {request : Request} {reply : Reply}
    (ha : registry.metadata.value.answer? request = some reply) :
    (registry.perform request).outcome = .ok reply := by
  rw [(h.effect request).eq_served ha]
  rfl

theorem Reachable.outcome_audit (h : Reachable c registry) :
    (registry.perform .audit).outcome = .ok (.verdict registry.metadata.value.misfit?) := by
  obtain ⟨is, hl⟩ := h.sound.1.linked
  exact h.outcome_eq (Slab.answer?_audit hl)

theorem Reachable.capacity_le (h : Reachable c registry) :
    registry.metadata.value.capacity ≤ min c.maxCapacity.toNat Handle.maxCapacity := by
  rw [← c.toNat_maxCapacity_clamped]
  exact h.sound.1.bounded

theorem forall_live_iff (h : Reachable c registry) {p : Region → Prop} :
    (∀ r, registry.Live r → p r) ↔ ∀ i r, registry.metadata.value.get? i = some r → p r := by
  simp only [live_iff h]
  constructor
  · intro hp i r hi
    exact hp r ⟨i, hi⟩
  · rintro hp r ⟨i, hi⟩
    exact hp i r hi

/-- The vacant slots are those on the list `is`, each once, and the others hold the regions that are live. -/
structure Accounts (c : Config) (registry : Registry) (is : List Nat) : Prop where
  chain : registry.metadata.value.Chain registry.metadata.value.head is
  nodup : is.Nodup
  mem_iff : ∀ i, i ∈ is ↔ ∃ next, registry.metadata.value.slots[i]? = some (.vacant next)
  vacancies : (registry.perform .vacancies).outcome = .ok (.count is.length)
  size : (registry.perform .size).outcome = .ok (.count registry.metadata.value.entries.length)
  capacity : ∃ n, (registry.perform .capacity).outcome = .ok (.count n) ∧
    registry.metadata.value.entries.length + is.length = n ∧ n ≤ min c.maxCapacity.toNat Handle.maxCapacity

theorem Reachable.accounts (h : Reachable c registry) {is : List Nat} (hl : registry.metadata.value.Links is) :
    registry.Accounts c is where
  chain := hl.chain
  nodup := hl.nodup
  mem_iff _ := hl.mem_iff
  vacancies := by
    rw [hl.length_eq]
    exact h.outcome_eq rfl
  size := by
    rw [← Slab.size_eq_length_entries]
    exact h.outcome_eq rfl
  capacity := by
    refine ⟨_, h.outcome_eq rfl, ?_, h.capacity_le⟩
    rw [hl.length_eq]
    exact registry.metadata.value.length_entries_add_vacancies

/-- The vacant slots are linked in one list that leaves none out. An audit then never finds fault with the
links: it reports the first site that does not fit, or nothing where all sites fit. -/
theorem slots_accounted (h : Reachable c registry) :
    (∃ is, registry.Accounts c is) ∧
      (∃ verdict, (registry.perform .audit).outcome = .ok (.verdict verdict)) ∧
      ((registry.perform .audit).outcome = .ok (.verdict none) ↔
        ∀ r, registry.Live r → ∀ s ∈ r.sites, s.fits r.size = true) ∧
      ∀ cause, (registry.perform .audit).outcome = .ok (.verdict (some cause)) ↔
        ∃ i r s, registry.metadata.value.First (fun _ r => ¬ r.Fits) i r ∧ r.FirstMisfit s ∧
          cause = .misfit ⟨r.base, r.base.addClamped r.size⟩ s := by
  obtain ⟨is, hl⟩ := h.sound.1.linked
  have ha := h.outcome_audit
  refine ⟨⟨is, h.accounts hl⟩, ⟨_, ha⟩, ?_, fun cause => ?_⟩
  · rw [ha, Except.ok.injEq, Reply.verdict.injEq, Slab.misfit?_eq_none_iff, ← forall_live_iff h]
    rfl
  · rw [ha, Except.ok.injEq, Reply.verdict.injEq, Slab.misfit?_eq_some_iff]

theorem slots_accounted_unverified :
    ∃ registry, Reachable ⟨false, 0, 2⟩ registry ∧ (registry.perform .audit).outcome =
      .ok (.verdict (some (.misfit ⟨0x1000, 0x1010⟩ ⟨8, 4⟩))) := by
  have h := Reachable.perform (.perform (.perform (.perform (Reachable.new (c := ⟨false, 0, 2⟩))
    (.register ⟨0x1008, 0x10, [⟨0, 4⟩]⟩) (by decide +kernel))
    (.register ⟨0x1000, 0x10, [⟨0, 4⟩, ⟨8, 4⟩, ⟨9, 4⟩]⟩) (by decide +kernel))
    (.release ⟨-7⟩) (by decide +kernel))
    (.register ⟨0x2000, 0x10, []⟩) (by decide +kernel)
  have hs : Region.FirstMisfit ⟨0x1000, 0x10, [⟨0, 4⟩, ⟨8, 4⟩, ⟨9, 4⟩]⟩ ⟨8, 4⟩ :=
    ⟨[⟨0, 4⟩], [⟨9, 4⟩], rfl, by decide, by decide⟩
  refine ⟨_, h, ((slots_accounted h).2.2.2 _).mpr ⟨1, _, _, ⟨by decide +kernel, hs.not_fits, ?_⟩, hs, by decide⟩⟩
  intro j b hj hb
  obtain rfl := Nat.lt_one_iff.mp hj
  have he : some b = some (⟨0x1008, 0x10, [⟨0, 4⟩]⟩ : Region) := hb.symm.trans (by decide +kernel)
  obtain rfl := Option.some.inj he
  have hf : Region.Fits ⟨0x1008, 0x10, [⟨0, 4⟩]⟩ := List.forall_mem_singleton.mpr (by decide)
  exact not_not_intro hf

end Registry

end FaultRecovery
