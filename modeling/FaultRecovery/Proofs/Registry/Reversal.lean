import FaultRecovery.Proofs.Registry.Arrival

namespace FaultRecovery

namespace Slab

variable {α : Type} {slab rest : Slab α} {is : List Nat} {i : Nat} {a : α}

theorem insert_of_vacate? (h : slab.vacate? i = some (a, rest)) : rest.insert i a = slab := by
  obtain ⟨hi, rfl⟩ := vacate?_eq_some_iff.mp h
  have hlink : link? ⟨slab.slots.setIfInBounds i (.vacant slab.head), some i⟩ i = slab.head :=
    link?_eq (Array.getElem?_setIfInBounds_self_of_lt (lt_capacity_of_get? hi))
  have hput : slab.slots.setIfInBounds i (.occupied a) = slab.slots := congrArg Slab.slots (put_eq_self hi)
  rw [Slab.insert, hlink, Slab.put, Array.setIfInBounds_setIfInBounds, hput]

theorem Links.vacate?_insert (h : slab.Links (i :: is)) (a : α) :
    (slab.insert i a).vacate? i = some (a, slab) := by
  obtain ⟨hh, hi⟩ := h.head_eq
  have hg : (slab.insert i a).get? i = some a := by
    rw [get?_insert (h.lt_capacity List.mem_cons_self), if_pos rfl]
  obtain ⟨hlt, hs⟩ := Array.getElem?_eq_some_iff.mp hi
  have hset : slab.slots.setIfInBounds i (.vacant (slab.link? i)) = slab.slots := by
    simp [Array.setIfInBounds, hlt, ← hs]
  refine vacate?_eq_some_iff.mpr ⟨hg, ?_⟩
  rw [Slab.insert, Slab.put, Array.setIfInBounds_setIfInBounds, hset, ← hh]

end Slab

theorem Sound.admits_vacated {c : Config} {slab rest : Slab Region} {i : Nat} {r : Region} (h : Sound c slab)
    (hr : slab.vacate? i = some (r, rest)) (hv : c.verify = true) : rest.Admits r := by
  have hi := (Slab.vacate?_eq_some_iff.mp hr).1
  refine ⟨?_, h.fits hv i r hi⟩
  intro j e he
  rw [Slab.get?_of_vacate? hr] at he
  split at he
  · cases he
  · rename_i hne
    exact h.apart hv j i e r (Ne.symm hne) he hi

namespace Registry

variable {c : Config} {registry mid last : Registry} {handle : Handle} {handles : List Handle} {r : Region}
  {rs : List Region} {p : Placement} {ps : List Placement}

/-- The releases take the lock in this order, and none is rejected. -/
inductive Departures : Registry → List Handle → Registry → Prop where
  | nil (registry : Registry) : Departures registry [] registry
  | cons {registry last : Registry} {handle : Handle} {handles : List Handle}
      (hp : (registry.perform (.release handle)).outcome = .ok .done)
      (hs : Departures (registry.perform (.release handle)).registry handles last) :
      Departures registry (handle :: handles) last

theorem run_releaseAll_iff :
    (registry.run (releaseAll registry.config handles)).Answers () last ↔ registry.Departures handles last := by
  induction handles generalizing registry with
  | nil =>
      constructor
      · rintro ⟨-, rfl⟩
        exact .nil registry
      · rintro ⟨⟩
        exact ⟨rfl, rfl⟩
  | cons handle handles ih =>
      rw [run_releaseAll_cons, Report.andThen_answers_iff]
      constructor
      · rintro ⟨_, hp, hs⟩
        obtain ⟨ho, hr⟩ := run_release_iff.mp ⟨hp, rfl⟩
        refine .cons ho ?_
        rwa [hr, ← ih, config_run]
      · rintro (_ | ⟨hp, hs⟩)
        obtain ⟨ho, hr⟩ := run_release_iff.mpr ⟨hp, rfl⟩
        rw [← ih, ← hr, config_run] at hs
        exact ⟨_, ho, hs⟩

theorem Arrivals.append {ss : List Region} {qs : List Placement} (hs : registry.Arrivals rs ps mid)
    (ht : mid.Arrivals ss qs last) : registry.Arrivals (rs ++ ss) (ps ++ qs) last := by
  induction hs with
  | nil => exact ht
  | cons hp _ ih => exact .cons hp (ih ht)

theorem Arrivals.of_served {slab : Slab Region} {events : List Event}
    (hp : registry.perform (.register r) = .served c slab (.placement p) events) :
    registry.Arrivals [r] [p] ⟨c, .free slab⟩ := by
  have hs : registry.Arrivals [r] [p] _ := .cons (congrArg Report.outcome hp) (.nil _)
  rwa [hp] at hs

theorem Reachable.released (h : Reachable c registry)
    (hp : (registry.perform (.release handle)).outcome = .ok .done) :
    Reachable c (registry.perform (.release handle)).registry := by
  refine h.perform _ ?_
  rw [Report.survived, hp]

theorem Reachable.directory_released (h : Reachable c registry) {k : Handle} (hk : k ≠ handle) :
    (registry.perform (.release handle)).registry.directory k = registry.directory k := by
  apply (h.directory_step (.release handle)).of_idle
  · rintro r ⟨growth, ⟨⟩⟩
  · intro he
    exact hk (Request.release.inj (congrArg Exchange.request he)).symm
  · rfl

namespace Departures

theorem append {ks : List Handle} (hs : registry.Departures handles mid) (ht : mid.Departures ks last) :
    registry.Departures (handles ++ ks) last := by
  induction hs with
  | nil => exact ht
  | cons hp _ ih => exact .cons hp (ih ht)

theorem of_served {slab : Slab Region} {events : List Event}
    (hp : registry.perform (.release handle) = .served c slab .done events) :
    registry.Departures [handle] ⟨c, .free slab⟩ := by
  have hs : registry.Departures [handle] _ := .cons (congrArg Report.outcome hp) (.nil _)
  rwa [hp] at hs

theorem reachable (hs : registry.Departures handles last) (h : Reachable c registry) : Reachable c last := by
  induction hs with
  | nil => exact h
  | cons hp _ ih => exact ih (h.released hp)

theorem directory_eq (hs : registry.Departures handles last) (h : Reachable c registry) {k : Handle}
    (hk : k ∉ handles) : last.directory k = registry.directory k := by
  induction hs with
  | nil => rfl
  | @cons registry last handle handles hp hs ih =>
      obtain ⟨hne, hk⟩ := not_or.mp (mt List.mem_cons.mpr hk)
      rw [ih (h.released hp) hk]
      exact h.directory_released hne

end Departures

theorem Reachable.exists_departure (h : Reachable c registry) (hd : registry.directory handle = some r) :
    ∃ mid, registry.Departures [handle] mid ∧ mid.Arrivals [r] [.placed handle none] registry := by
  obtain ⟨hsound, he⟩ := h.sound
  obtain ⟨i, hi, hg⟩ := Slab.named?_eq_some_iff.mp hd
  obtain ⟨rest, hr⟩ : ∃ rest, registry.metadata.value.vacate? i = some (r, rest) :=
    ⟨_, Slab.vacate?_eq_some_iff.mpr ⟨hg, rfl⟩⟩
  obtain ⟨is, hl⟩ := hsound.linked
  have hrl := hl.vacate hr
  have hrelease := perform_of_effect (.released hi hr) hsound
  have hregister := perform_of_effect (.placed (hsound.admits_vacated hr) (.spare hrl) hrl
    (Handle.ofIndex?_of_index? hi)) (hsound.vacate hr)
  rw [Slab.insert_of_vacate? hr] at hregister
  rw [he]
  exact ⟨_, .of_served hrelease, .of_served hregister⟩

theorem Reachable.exists_return (h : Reachable c registry) (hv : 0 < registry.metadata.value.vacancies)
    (hp : (registry.perform (.register r)).outcome = .ok (.placement p)) :
    ∃ handle, p = .placed handle none ∧
      (registry.perform (.register r)).registry.metadata.value.vacancies + 1 =
        registry.metadata.value.vacancies ∧
      (registry.perform (.register r)).registry.Departures [handle] registry := by
  have he := h.effect (.register r)
  have hsound := he.sound h.sound.1
  generalize registry.perform (.register r) = report at hp he hsound
  cases he with
  | refused ha hl hn =>
      rw [← hl.length_eq] at hv
      cases hv
  | placed ha hr hl ho =>
      obtain rfl := Reply.placement.inj (Except.ok.inj hp)
      cases hr with
      | grown hn hlt =>
          rw [← hn.length_eq] at hv
          cases hv
      | spare _ =>
          refine ⟨_, rfl, ?_, ?_⟩
          · rw [← hl.length_eq]
            exact congrArg (· + 1) (hl.insert _).length_eq.symm
          · have hrelease := perform_of_effect
              (.released (Handle.index?_of_ofIndex? ho) (hl.vacate?_insert _)) hsound
            rw [h.sound.2]
            exact .of_served hrelease
  | collided | misfit => cases hp
  | answered ha => cases ha

/-- Slots are filled again from the one that was vacated last, so each region gets its own slot back. -/
theorem Reachable.exists_departures (h : Reachable c registry) (hn : handles.Nodup)
    (hd : handles.map registry.directory = rs.map some) :
    ∃ mid, registry.Departures handles mid ∧
      mid.Arrivals rs.reverse (handles.reverse.map (.placed · none)) registry := by
  induction handles generalizing registry rs with
  | nil =>
      obtain rfl := List.map_eq_nil_iff.mp hd.symm
      exact ⟨registry, .nil _, .nil _⟩
  | cons handle handles ih =>
      obtain ⟨r, rs, rfl, hr, hrs⟩ := List.map_eq_cons_iff.mp hd.symm
      obtain ⟨hnh, hn⟩ := List.nodup_cons.mp hn
      obtain ⟨next, hout, hback⟩ := h.exists_departure hr.symm
      have hkeep : handles.map next.directory = rs.map some := by
        rw [hrs]
        apply List.map_congr_left
        intro k hk
        apply hout.directory_eq h
        intro hm
        exact hnh (List.mem_singleton.mp hm ▸ hk)
      obtain ⟨mid, hleave, hreturn⟩ := ih (hout.reachable h) hn hkeep
      refine ⟨mid, hout.append hleave, ?_⟩
      rw [List.reverse_cons, List.reverse_cons, List.map_append]
      exact hreturn.append hback

/-- What was filled last is vacated first, so every slot goes back to where it was in the list. -/
theorem Arrivals.exists_returns (hs : registry.Arrivals rs ps last) (h : Reachable c registry)
    (hv : rs.length ≤ registry.metadata.value.vacancies) :
    ∃ handles : List Handle, ps = handles.map (.placed · none) ∧
      last.Departures handles.reverse registry := by
  induction hs with
  | nil => exact ⟨[], rfl, .nil _⟩
  | cons hp hs ih =>
      obtain ⟨handle, rfl, hvac, hback⟩ := h.exists_return (Nat.zero_lt_of_lt hv) hp
      obtain ⟨handles, rfl, hreturn⟩ := ih (h.granted hp) (by rw [List.length_cons] at hv; omega)
      refine ⟨handle :: handles, rfl, ?_⟩
      rw [List.reverse_cons]
      exact hreturn.append hback

/-- Live regions that are all released and come back in the opposite order are given the handles that they had,
with no slot refused or added. Regions that are put into vacant slots and released in the opposite order leave no
trace either. Each time the registry is the same as before, down to the links between its vacant slots. -/
theorem releases_and_registrations_undone (h : Reachable c registry) :
    (∀ (handles : List Handle) (rs : List Region), handles.Nodup → handles.map registry.directory = rs.map some →
        ∃ mid, registry.Departures handles mid ∧
          mid.Arrivals rs.reverse (handles.reverse.map (.placed · none)) registry) ∧
      (registry.perform .vacancies).outcome = .ok (.count registry.metadata.value.vacancies) ∧
      ∀ rs ps last, rs.length ≤ registry.metadata.value.vacancies → registry.Arrivals rs ps last →
        ∃ handles : List Handle, ps = handles.map (.placed · none) ∧ last.Departures handles.reverse registry :=
  ⟨fun _ _ hn hd => h.exists_departures hn hd, h.outcome_eq rfl, fun _ _ _ hv hs => hs.exists_returns h hv⟩

theorem releases_and_registrations_undone_of_four :
    ∃ registry mid last, Reachable ⟨true, 1, 4⟩ registry ∧ registry.Departures [⟨2⟩, ⟨0⟩] mid ∧
      mid.Arrivals [⟨0x1000, 0x10, [⟨0, 4⟩]⟩, ⟨0x3000, 0x10, []⟩] [.placed ⟨0⟩ none, .placed ⟨2⟩ none] registry ∧
      registry.Arrivals [⟨0x4000, 0x10, []⟩, ⟨0x2008, 0x10, [⟨4, 8⟩]⟩] [.placed ⟨1⟩ none, .placed ⟨3⟩ none] last ∧
      last.Departures [⟨3⟩, ⟨1⟩] registry := by
  obtain ⟨registry, hr⟩ : ∃ registry, registry = performAll (.new ⟨true, 1, 4⟩)
    [.register ⟨0x1000, 0x10, [⟨0, 4⟩]⟩, .register ⟨0x2000, 0x10, []⟩, .register ⟨0x3000, 0x10, []⟩, .release ⟨1⟩] :=
    ⟨_, rfl⟩
  have h : Reachable ⟨true, 1, 4⟩ registry := hr ▸ Reachable.new.performAll _ (by decide +kernel)
  obtain ⟨hreleases, -, hregistrations⟩ := releases_and_registrations_undone h
  obtain ⟨mid, hleave, hback⟩ := hreleases [⟨2⟩, ⟨0⟩] [⟨0x3000, 0x10, []⟩, ⟨0x1000, 0x10, [⟨0, 4⟩]⟩] (by decide)
    (by subst hr; decide +kernel)
  obtain ⟨last, hs⟩ : ∃ last, registry.Arrivals [⟨0x4000, 0x10, []⟩, ⟨0x2008, 0x10, [⟨4, 8⟩]⟩]
      [.placed ⟨1⟩ none, .placed ⟨3⟩ none] last := by
    subst hr
    exact ⟨_, .cons (by with_unfolding_all rfl) (.cons (by with_unfolding_all rfl) (.nil _))⟩
  obtain ⟨handles, hh, hreturn⟩ := hregistrations _ _ _ (by subst hr; decide +kernel) hs
  obtain rfl : handles = [⟨1⟩, ⟨3⟩] := by
    have hmap := congrArg (List.map Placement.handle) hh
    simpa [Function.comp_def, Placement.handle] using hmap.symm
  exact ⟨registry, mid, last, h, hleave, hback, hs, hreturn⟩

end Registry

end FaultRecovery
