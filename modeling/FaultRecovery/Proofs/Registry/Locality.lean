import FaultRecovery.Proofs.Registry.Directory
import FaultRecovery.Proofs.Registry.Recovery

namespace FaultRecovery

/-- The regions that an exchange adds, removes or moves, the last where they were and where they are. A request
that was refused, ignored or rejected touches none. -/
def Directory.touched (d : Directory) : Exchange → List Region
  | ⟨.register r, .ok (.placement (.placed _ _))⟩ => [r]
  | ⟨.release handle, .ok _⟩ => (d handle).toList
  | ⟨.relocate handle base, .ok _⟩ => (d handle).toList.flatMap fun r => [r, ⟨base, r.size, r.sites⟩]
  | _ => []

variable {c : Config} {slab rest : Slab Region} {registry : Registry} {pc : Address}

theorem Directory.mem_touched_release {d : Directory} {handle : Handle} {r : Region} {reply : Reply}
    (h : d handle = some r) : r ∈ d.touched ⟨.release handle, .ok reply⟩ := by
  simp [touched, h]

theorem Directory.mem_touched_relocate {d : Directory} {handle : Handle} {base : Address} {r e : Region}
    {reply : Reply} (h : d handle = some r) :
    e ∈ d.touched ⟨.relocate handle base, .ok reply⟩ ↔ e = r ∨ e = ⟨base, r.size, r.sites⟩ := by
  simp [touched, h]

theorem Slab.landingPad?_eq_of_update {i : Nat} {entry : Option Region}
    (hg : ∀ j, rest.get? j = if i = j then entry else slab.get? j)
    (hnew : ∀ r, entry = some r → r.contains pc = false)
    (hold : ∀ r, slab.get? i = some r → r.contains pc = false) : rest.landingPad? pc = slab.landingPad? pc := by
  rw [landingPad?, landingPad?, find?_entries_congr]
  intro j r hr
  rw [hg]
  by_cases hij : i = j
  · subst hij
    rw [if_pos rfl]
    constructor
    · intro he
      exact Bool.noConfusion (hr.symm.trans (hnew r he))
    · intro he
      exact Bool.noConfusion (hr.symm.trans (hold r he))
  · rw [if_neg hij]

theorem Room.landingPad?_eq {room : Slab Region} {growth : Option Growth} (h : Room c slab room growth) :
    room.landingPad? pc = slab.landingPad? pc := by
  rw [Slab.landingPad?, Slab.landingPad?, Slab.find?_entries_congr]
  intro i r _
  rw [h.get?_eq]

theorem Effect.landingPad?_eq {request : Request} {report : Report Reply} (he : Effect c slab request report)
    (hu : ∀ r ∈ Directory.touched slab.named? ⟨request, report.outcome⟩, r.contains pc = false) :
    report.registry.metadata.value.landingPad? pc = slab.landingPad? pc := by
  cases he with
  | @placed r room growth i is handle ha hr hl ho =>
      have hn : r.contains pc = false := hu r List.mem_cons_self
      refine Eq.trans ?_ hr.landingPad?_eq
      refine Slab.landingPad?_eq_of_update (fun j => Slab.get?_insert (hl.lt_capacity List.mem_cons_self)) ?_ ?_
      · rintro s ⟨rfl⟩
        exact hn
      · intro s hs
        rw [hl.get?_eq_none List.mem_cons_self] at hs
        cases hs
  | @released handle i r rest hi hr =>
      have hg := (Slab.vacate?_eq_some_iff.mp hr).1
      have hs := Slab.named?_eq_some_iff.mpr ⟨i, hi, hg⟩
      have ho : r.contains pc = false := hu r (Directory.mem_touched_release hs)
      refine Slab.landingPad?_eq_of_update (fun j => Slab.get?_of_vacate? hr) ?_ ?_
      · intro s he
        cases he
      · intro s he
        obtain rfl := Option.some.inj (hg.symm.trans he)
        exact ho
  | @moved handle base i r hi hg ha =>
      have hs := Slab.named?_eq_some_iff.mpr ⟨i, hi, hg⟩
      have ho : r.contains pc = false := hu r ((Directory.mem_touched_relocate hs).mpr (.inl rfl))
      have hn : Region.contains ⟨base, r.size, r.sites⟩ pc = false := hu _ ((Directory.mem_touched_relocate hs).mpr (.inr rfl))
      refine Slab.landingPad?_eq_of_update (Slab.get?_put_of_get? hg _) ?_ ?_
      · rintro s ⟨rfl⟩
        exact hn
      · intro s he
        obtain rfl := Option.some.inj (hg.symm.trans he)
        exact ho
  | collided | misfit | refused | spared | strayIgnored | strayRejected | lost | obstructed | answered => rfl

namespace Registry

def touched (registry : Registry) : List Request → List Region
  | [] => []
  | request :: requests =>
      let report := registry.perform request
      registry.directory.touched ⟨request, report.outcome⟩ ++ touched report.registry requests

theorem Reachable.resolve_perform (h : Reachable c registry) (request : Request)
    (hs : (registry.perform request).survived = true)
    (hu : ∀ r ∈ registry.directory.touched ⟨request, (registry.perform request).outcome⟩, r.contains pc = false) :
    (registry.perform request).registry.metadata.resolve pc = registry.metadata.resolve pc := by
  rw [resolve_eq_of_reachable (h.perform request hs), resolve_eq_of_reachable h,
    (h.effect request).landingPad?_eq hu]

theorem Reachable.resolve_performAll (h : Reachable c registry) (requests : List Request)
    (hs : (registry.serve requests).all Report.survived = true)
    (hu : ∀ r ∈ registry.touched requests, r.contains pc = false) :
    (registry.performAll requests).metadata.resolve pc = registry.metadata.resolve pc := by
  induction requests generalizing registry with
  | nil => rfl
  | cons request requests ih =>
      obtain ⟨hr, hs⟩ := survived_cons hs
      obtain ⟨hu, hus⟩ := List.forall_mem_append.mp hu
      exact (ih (h.perform request hr) hs hus).trans (h.resolve_perform request hr hu)

/-- A fault outside the regions that a request touches continues where it would have before. -/
theorem resolve_unchanged_elsewhere (h : Reachable c registry) (pc : Address) :
    (∀ request, (registry.perform request).survived = true →
        (∀ r ∈ registry.directory.touched ⟨request, (registry.perform request).outcome⟩, r.contains pc = false) →
        (registry.perform request).registry.metadata.resolve pc = registry.metadata.resolve pc) ∧
      ∀ requests, (registry.serve requests).all Report.survived = true →
        (∀ r ∈ registry.touched requests, r.contains pc = false) →
        (registry.performAll requests).metadata.resolve pc = registry.metadata.resolve pc :=
  ⟨h.resolve_perform, h.resolve_performAll⟩

/-- The lower of two regions that overlap is released, and its slot is used again and moved. The other region is
asked all the time, though a registration grows the slab and a stray release is ignored. -/
theorem resolve_unchanged_beside_overlap :
    ∃ registry requests, Reachable ⟨false, 2, 3⟩ registry ∧
      (registry.serve requests).all Report.survived = true ∧
      (∀ r ∈ registry.touched requests, r.contains 0x1110 = false) ∧
      registry.metadata.resolve 0x1110 = .recover 0x1118 ∧
      (registry.performAll requests).metadata.resolve 0x1110 = .recover 0x1118 := by
  have h := (Reachable.new (c := ⟨false, 2, 3⟩)).performAll
    [.register ⟨0x1000, 0x100, [⟨0x10, 8⟩]⟩, .register ⟨0x1080, 0x100, [⟨0x90, 0x98⟩]⟩] (by decide +kernel)
  refine ⟨_, [.release ⟨0⟩, .register ⟨0x2000, 0x10, []⟩, .relocate ⟨0⟩ 0x1100, .release ⟨9⟩,
    .register ⟨0x1000, 0x90, []⟩, .register ⟨0x1100, 0x100, []⟩], h, ?hs, ?hu, ?_,
    ((resolve_unchanged_elsewhere h _).2 _ ?hs ?hu).trans ?_⟩
  all_goals decide +kernel

end Registry

end FaultRecovery
