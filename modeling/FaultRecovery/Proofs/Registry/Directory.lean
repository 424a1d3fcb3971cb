import FaultRecovery.Proofs.Directory
import FaultRecovery.Proofs.Registry.Audit

namespace FaultRecovery

variable {c : Config} {slab rest : Slab Region}

theorem Handle.eq_of_index? {h k : Handle} {i : Nat} (hi : h.index? = some i) (ki : k.index? = some i) : h = k :=
  Option.some.inj ((ofIndex?_of_index? hi).symm.trans (ofIndex?_of_index? ki))

theorem Handle.ne_iff_of_index? {h k : Handle} {i j : Nat} (hi : h.index? = some i) (hj : k.index? = some j) :
    h ≠ k ↔ i ≠ j := by
  apply not_congr
  constructor
  · rintro rfl
    exact Option.some.inj (hi.symm.trans hj)
  · rintro rfl
    exact eq_of_index? hi hj

theorem Slab.named?_eq_update {handle : Handle} {i : Nat} {entry : Option Region} (hi : handle.index? = some i)
    (hg : ∀ j, rest.get? j = if i = j then entry else slab.get? j) :
    rest.named? = Function.update slab.named? handle entry := by
  funext k
  by_cases hk : k = handle
  · subst hk
    rw [Function.update_self, named?, hi]
    exact (hg i).trans (if_pos rfl)
  · rw [Function.update_of_ne hk, named?, named?]
    cases hj : k.index? with
    | none => rfl
    | some j =>
        exact (hg j).trans (if_neg ((Handle.ne_iff_of_index? hj hi).mp hk).symm)

theorem Handle.isValid_of_index? {handle : Handle} {i : Nat} (hi : handle.index? = some i) :
    handle.isValid = true := by
  rw [index?] at hi
  exact (Option.ite_none_right_eq_some.mp hi).1

def Registry.directory (registry : Registry) : Directory := registry.metadata.value.named?

theorem Effect.directory_step {request : Request} {report : Report Reply} (he : Effect c slab request report) :
    Directory.Step slab.named? ⟨request, report.outcome⟩ report.registry.directory := by
  cases he with
  | collided | misfit | refused => exact .turnedAway fun _ _ ho => by simp [Report.served, Report.rejected] at ho
  | @placed r room growth i is handle ha hr hl ho =>
      have hi := Handle.index?_of_ofIndex? ho
      have hn : slab.named? handle = none := by
        rw [← hr.named?_eq, Slab.named?, hi]
        exact hl.get?_eq_none List.mem_cons_self
      -- Growing gives no handle an entry, so the room and the slab are the same directory.
      have hd : (room.insert i r).named? = Function.update slab.named? handle (some r) := by
        rw [← funext hr.named?_eq]
        exact Slab.named?_eq_update hi fun j => Slab.get?_insert (hl.lt_capacity List.mem_cons_self)
      change Directory.Step slab.named? _ (room.insert i r).named?
      rw [hd]
      exact .placed (Handle.isValid_of_index? hi) hn
  | spared => exact .strayed rfl
  | @released handle i r rest hi hr =>
      have hs := Slab.named?_eq_some_iff.mpr ⟨i, hi, (Slab.vacate?_eq_some_iff.mp hr).1⟩
      change Directory.Step slab.named? _ rest.named?
      rw [Slab.named?_eq_update hi fun j => Slab.get?_of_vacate? hr]
      exact .released hs
  | strayIgnored hv hs hn => exact .strayed hn
  | strayRejected hv hs hn => exact .strayed hn
  | lost hn => exact .stayed
  | obstructed hv hi hg he => exact .stayed
  | @moved handle base i r hi hg ha =>
      have hs := Slab.named?_eq_some_iff.mpr ⟨i, hi, hg⟩
      change Directory.Step slab.named? _ (slab.put i (r.movedTo base)).named?
      rw [Slab.named?_eq_update hi (Slab.get?_put_of_get? hg _)]
      exact .moved hs
  | answered ha =>
      cases request with
      | register | release | relocate => simp [Slab.answer?] at ha
      | region handle =>
          obtain rfl := Option.some.inj ha
          exact .looked
      | resolve | audit | capacity | size | isEmpty | vacancies => exact .observed rfl

namespace Registry

variable {past : List Exchange} {registry : Registry}

/-- The registries that requests can lead to, with what was asked and answered on the way, the last first. -/
inductive Run (c : Config) : List Exchange → Registry → Prop where
  | new : Run c [] (Registry.new c)
  | perform {past : List Exchange} {registry : Registry} (h : Run c past registry) (request : Request)
      (hs : (registry.perform request).survived = true) :
      Run c (⟨request, (registry.perform request).outcome⟩ :: past) (registry.perform request).registry

theorem Run.reachable (h : Run c past registry) : Reachable c registry := by
  induction h with
  | new => exact .new
  | perform _ request hs ih => exact .perform ih request hs

theorem Reachable.exists_run (h : Reachable c registry) : ∃ past, Run c past registry := by
  induction h with
  | new => exact ⟨[], .new⟩
  | perform _ request hs ih =>
      obtain ⟨past, hr⟩ := ih
      exact ⟨_, .perform hr request hs⟩

theorem Reachable.directory_step (h : Reachable c registry) (request : Request) :
    registry.directory.Step ⟨request, (registry.perform request).outcome⟩
      (registry.perform request).registry.directory :=
  (h.effect request).directory_step

theorem Run.directory_eq_some_iff (h : Run c past registry) (handle : Handle) (r : Region) :
    registry.directory handle = some r ↔ Registered past handle r := by
  induction h generalizing handle r with
  | new =>
      have hn : (Registry.new c).directory handle = none := by
        rw [directory, Slab.named?]
        cases handle.index? <;> rfl
      rw [hn]
      exact iff_of_false (by simp) not_registered_nil
  | perform h request hs ih => exact (h.reachable.directory_step request).registered_iff ih handle r

/-- To its callers a registry is a directory. Looking under a handle finds what the past has put there, and
every request, served or not, is a step of the directory. -/
theorem run_as_directory (h : Run c past registry) :
    (∀ handle, (registry.perform (.region handle)).outcome = .ok (.region (registry.directory handle)) ∧
        ∀ r, registry.directory handle = some r ↔ Registered past handle r) ∧
      ∀ request, registry.directory.Step ⟨request, (registry.perform request).outcome⟩
        (registry.perform request).registry.directory :=
  ⟨fun handle => ⟨h.reachable.outcome_eq rfl, h.directory_eq_some_iff handle⟩, h.reachable.directory_step⟩

theorem run_with_reused_handle :
    ∃ past registry, Run ⟨false, 1, 2⟩ past registry ∧
      Registered past ⟨0⟩ ⟨0x4000, 0x20, [⟨4, 8⟩, ⟨4, 8⟩]⟩ ∧
      (registry.perform (.region ⟨0⟩)).outcome = .ok (.region (some ⟨0x4000, 0x20, [⟨4, 8⟩, ⟨4, 8⟩]⟩)) := by
  have h := Run.perform (.perform (.perform (.perform (.perform (.perform (.perform (Run.new (c := ⟨false, 1, 2⟩))
    (.register ⟨0x1000, 0x10, [⟨0, 4⟩]⟩) (by decide +kernel))
    (.register ⟨0x2000, 0x10, []⟩) (by decide +kernel))
    (.release ⟨0⟩) (by decide +kernel))
    (.register ⟨0x3000, 0x20, [⟨4, 8⟩, ⟨4, 8⟩]⟩) (by decide +kernel))
    (.relocate ⟨0⟩ 0x4000) (by decide +kernel))
    (.release ⟨-5⟩) (by decide +kernel))
    (.register ⟨0x5000, 0x10, []⟩) (by decide +kernel)
  obtain ⟨hl, hr⟩ := (run_as_directory h).1 ⟨0⟩
  have hp := (hr ⟨0x4000, 0x20, [⟨4, 8⟩, ⟨4, 8⟩]⟩).mp (by decide +kernel)
  exact ⟨_, _, h, hp, hl.trans (by rw [(hr _).mpr hp])⟩

end Registry

end FaultRecovery
