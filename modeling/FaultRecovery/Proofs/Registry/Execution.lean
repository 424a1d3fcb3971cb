import FaultRecovery.Proofs.Registry.Effect
import FaultRecovery.Proofs.Slab.Steps

namespace FaultRecovery

section Monad

variable {ε σ β γ : Type} {x : EStateM ε σ β} {s t : σ}

theorem bind_of_ok {f : β → EStateM ε σ γ} {b : β} (h : x s = .ok b t) : (x >>= f) s = f b t := by
  change EStateM.bind x f s = f b t
  rw [EStateM.bind, h]

theorem bind_of_error {f : β → EStateM ε σ γ} {e : ε} (h : x s = .error e t) :
    (x >>= f) s = .error e t := by
  change EStateM.bind x f s = .error e t
  rw [EStateM.bind, h]

theorem map_of_ok {f : β → γ} {b : β} (h : x s = .ok b t) : (f <$> x) s = .ok (f b) t := by
  change EStateM.map f x s = .ok (f b) t
  rw [EStateM.map, h]

theorem map_of_error {f : β → γ} {e : ε} (h : x s = .error e t) : (f <$> x) s = .error e t := by
  change EStateM.map f x s = .error e t
  rw [EStateM.map, h]

end Monad

namespace Registry

variable {c : Config} {slab : Slab Region} {r : Region}

theorem verify_of_ok {check : Slab Region → Except Inconsistency Unit}
    (h : c.verify = true → check slab = .ok ()) : verify c check slab = .ok () slab := by
  rw [verify]
  split
  · rename_i hv
    simp only [h hv]
  · rfl

theorem verify_of_error {check : Slab Region → Except Inconsistency Unit} {cause : Inconsistency}
    (hv : c.verify = true) (h : check slab = .error cause) :
    verify c check slab = .error (.rejected (.inconsistent cause)) slab := by
  simp only [verify, hv, if_true, h]

theorem verify_disjoint (ha : c.verify = true → slab.Admits r) :
    verify c (fun slab => slab.checkDisjoint r) slab = .ok () slab :=
  verify_of_ok fun hv => Slab.checkDisjoint_eq_ok_iff.mpr (ha hv).apart

theorem verify_sites (ha : c.verify = true → slab.Admits r) :
    verify c (fun _ => r.checkSites) slab = .ok () slab :=
  verify_of_ok fun hv => Region.checkSites_eq_ok_iff.mpr (ha hv).fits

theorem get_eq (slab : Slab Region) : (get : Slab.Step Region (Slab Region)) slab = .ok slab slab := rfl

theorem place_of_collision {e : Region} {i : Nat} (hv : c.verify = true)
    (he : slab.First (fun _ e => e.overlaps r = true) i e) :
    place c r slab = .error (.rejected (.inconsistent (.overlap r.span e.span))) slab :=
  bind_of_error (verify_of_error hv (Slab.checkDisjoint_eq_error he))

theorem place_of_misfit {s : Site} (hv : c.verify = true)
    (ha : ∀ i e, slab.get? i = some e → e.overlaps r = false) (hs : r.FirstMisfit s) :
    place c r slab = .error (.rejected (.inconsistent (.misfit r.span s))) slab := by
  rw [place, bind_of_ok (verify_of_ok fun _ => Slab.checkDisjoint_eq_ok_iff.mpr ha)]
  exact bind_of_error (verify_of_error hv (Region.checkSites_eq_error hs))

theorem place_of_full (ha : c.verify = true → slab.Admits r) (hl : slab.Links [])
    (hn : c.nextCapacity slab.capacity ≤ slab.capacity) :
    place c r slab = .ok (.refused slab.capacity) slab := by
  rw [place, bind_of_ok (verify_disjoint ha), bind_of_ok (verify_sites ha),
    bind_of_ok (Slab.pop_of_links_nil hl)]
  refine (bind_of_ok (get_eq slab)).trans ?_
  simp only [if_pos hn]
  rfl

theorem fill_of_links {i : Nat} {is : List Nat} {handle : Handle} {growth : Option Growth}
    (hl : slab.Links (i :: is)) (ho : Handle.ofIndex? i = some handle)
    (hc : c.verify = true → (slab.insert i r).check = .ok ()) :
    fill c r growth i { slab with head := slab.link? i } = .ok (.placed handle growth) (slab.insert i r) := by
  rw [fill, ho]
  exact (bind_of_ok (Slab.occupy_of_links hl r)).trans (bind_of_ok (verify_of_ok hc))

theorem place_of_room {room : Slab Region} {growth : Option Growth} {i : Nat} {is : List Nat}
    {handle : Handle} (h : Sound c slab) (ha : c.verify = true → slab.Admits r)
    (hr : Room c slab room growth) (hl : room.Links (i :: is)) (ho : Handle.ofIndex? i = some handle) :
    place c r slab = .ok (.placed handle growth) (room.insert i r) := by
  have hc (hv : c.verify = true) : (room.insert i r).check = .ok () := (h.place hr hl ha).check_eq_ok hv
  rw [place, bind_of_ok (verify_disjoint ha), bind_of_ok (verify_sites ha)]
  cases hr with
  | spare _ =>
      rw [bind_of_ok (Slab.pop_of_links hl)]
      exact fill_of_links hl ho hc
  | grown hn hlt =>
      have hle : c.nextCapacity slab.capacity ≤ Slab.storageLimit :=
        Nat.le_trans (c.nextCapacity_le _) (Nat.le_trans h.ceiling (by decide))
      rw [bind_of_ok (Slab.pop_of_links_nil hn)]
      refine (bind_of_ok (get_eq slab)).trans ?_
      simp only [if_neg (Nat.not_le_of_lt hlt)]
      rw [bind_of_ok (Slab.grow_of_lt hlt hle), bind_of_ok (Slab.pop_of_links hl)]
      exact fill_of_links hl ho hc

theorem take_of_stray {handle : Handle} (hn : slab.named? handle = none) :
    take handle slab = .ok none slab := by
  rw [take]
  cases hi : handle.index? with
  | none => rfl
  | some i =>
      have hg : slab.get? i = none := by simpa [Slab.named?, hi] using hn
      exact Slab.vacate_of_get?_eq_none hg

theorem take_of_vacate? {handle : Handle} {i : Nat} {rest : Slab Region} (hi : handle.index? = some i)
    (hr : slab.vacate? i = some (r, rest)) : take handle slab = .ok (some r) rest := by
  simp only [take, hi, Slab.vacate, hr]

theorem remove_of_stray {handle : Handle} (hn : slab.named? handle = none) :
    remove c handle slab =
      if c.verify then .error (.rejected (.strayRelease handle)) slab else .ok none slab := by
  rw [remove, bind_of_ok (take_of_stray hn)]
  cases c.verify <;> rfl

theorem remove_of_vacate? {handle : Handle} {i : Nat} {rest : Slab Region} (h : Sound c slab)
    (hi : handle.index? = some i) (hr : slab.vacate? i = some (r, rest)) :
    remove c handle slab = .ok (some r) rest := by
  rw [remove, bind_of_ok (take_of_vacate? hi hr)]
  exact bind_of_ok (verify_of_ok fun hv => (h.vacate hr).check_eq_ok hv)

theorem move_of_stray {handle : Handle} {base : Address} (hn : slab.named? handle = none) :
    move c handle base slab = .error (.fatal (.strayRelocation handle)) slab := by
  have hf : (handle.index?.filter fun i => (slab.get? i).isSome) = none := by
    simpa [Option.filter_eq_none_iff, Slab.named?] using hn
  rw [move]
  refine (bind_of_ok (get_eq slab)).trans ?_
  simp only [hf]
  rfl

theorem move_of_named {handle : Handle} {base : Address} {i : Nat} (hi : handle.index? = some i)
    (hg : slab.get? i = some r) :
    move c handle base slab = (verify c (fun slab => slab.checkRelocation i base) >>= fun _ =>
      discard <| Slab.modify i fun r => r.movedTo base) slab := by
  have hf : (handle.index?.filter fun i => (slab.get? i).isSome) = some i := by simp [hi, hg]
  rw [move]
  refine (bind_of_ok (get_eq slab)).trans ?_
  simp only [hf]

theorem move_of_obstruction {handle : Handle} {base : Address} {i j : Nat} {e : Region}
    (hv : c.verify = true) (hi : handle.index? = some i) (hg : slab.get? i = some r)
    (he : slab.First (fun k e => k ≠ i ∧ (r.movedTo base).overlaps e = true) j e) :
    move c handle base slab =
      .error (.rejected (.inconsistent (.overlap (r.movedTo base).span e.span))) slab := by
  rw [move_of_named hi hg]
  exact bind_of_error (verify_of_error hv (Slab.checkRelocation_eq_error hg he))

theorem move_of_admits {handle : Handle} {base : Address} {i : Nat} (hi : handle.index? = some i)
    (hg : slab.get? i = some r)
    (ha : c.verify = true → ∀ j e, j ≠ i → slab.get? j = some e → (r.movedTo base).overlaps e = false) :
    move c handle base slab = .ok () (slab.put i (r.movedTo base)) := by
  rw [move_of_named hi hg,
    bind_of_ok (verify_of_ok fun hv => (Slab.checkRelocation_eq_ok_iff hg).mpr (ha hv))]
  exact map_of_ok (Slab.modify_of_get? hg _)

theorem tell_eq (p : Placement) (r : Region) (m : Metadata) (records : List Record) :
    tell p r ⟨m, records⟩ = .ok () ⟨m, records ++ (p.events r).map fun e => ⟨e, m⟩⟩ := by
  cases p with
  | refused capacity => rfl
  | placed handle growth =>
      cases growth with
      | none => rfl
      | some growth =>
          refine (bind_of_ok rfl).trans ?_
          simp [Action.write, Placement.events, Region.span]

theorem perform_of_ok {request : Request} {reply : Reply} {rest : Slab Region} {events : List Event}
    (h : action c request ⟨.free slab, []⟩ = .ok reply ⟨.free rest, events.map fun e => ⟨e, .free rest⟩⟩) :
    perform ⟨c, .free slab⟩ request = .served c rest reply events := by
  simp only [perform, run, h, Report.served]

theorem perform_of_rejected {request : Request} {cause : Rejection}
    (h : action c request ⟨.free slab, []⟩ =
      .error ⟨.rejected cause, ⟨true, slab⟩⟩ ⟨.free slab, []⟩) :
    perform ⟨c, .free slab⟩ request = .rejected c slab cause := by
  simp only [perform, run, h, Report.rejected]

theorem register_served {p : Placement} {rest : Slab Region} (h : place c r slab = .ok p rest) :
    perform ⟨c, .free slab⟩ (.register r) = .served c rest (.placement p) (p.events r) := by
  refine perform_of_ok (map_of_ok ?_)
  rw [register, bind_of_ok (Action.locked_of_ok h)]
  exact bind_of_ok (tell_eq p r _ [])

theorem register_rejected {cause : Rejection} (h : place c r slab = .error (.rejected cause) slab) :
    perform ⟨c, .free slab⟩ (.register r) = .rejected c slab cause :=
  perform_of_rejected (map_of_error (bind_of_error (Action.locked_of_rejected h)))

theorem release_found {handle : Handle} {rest : Slab Region} (hs : handle ≠ .sentinel)
    (h : remove c handle slab = .ok (some r) rest) :
    perform ⟨c, .free slab⟩ (.release handle) = .served c rest .done [.released handle r.span] := by
  have ha : release c handle ⟨.free slab, []⟩ =
      .ok () ⟨.free rest, [⟨.released handle r.span, .free rest⟩]⟩ := by
    rw [release, if_neg hs, bind_of_ok (Action.locked_of_ok h)]
    rfl
  exact perform_of_ok (map_of_ok ha)

theorem release_stray {handle : Handle} {rest : Slab Region} (hs : handle ≠ .sentinel)
    (h : remove c handle slab = .ok none rest) :
    perform ⟨c, .free slab⟩ (.release handle) = .served c rest .done [.strayRelease handle] := by
  have ha : release c handle ⟨.free slab, []⟩ =
      .ok () ⟨.free rest, [⟨.strayRelease handle, .free rest⟩]⟩ := by
    rw [release, if_neg hs, bind_of_ok (Action.locked_of_ok h)]
    rfl
  exact perform_of_ok (map_of_ok ha)

theorem release_rejected {handle : Handle} {cause : Rejection} (hs : handle ≠ .sentinel)
    (h : remove c handle slab = .error (.rejected cause) slab) :
    perform ⟨c, .free slab⟩ (.release handle) = .rejected c slab cause := by
  refine perform_of_rejected (map_of_error ?_)
  rw [release, if_neg hs]
  exact bind_of_error (Action.locked_of_rejected h)

theorem relocate_served {handle : Handle} {base : Address} {rest : Slab Region}
    (h : move c handle base slab = .ok () rest) :
    perform ⟨c, .free slab⟩ (.relocate handle base) = .served c rest .done [] :=
  perform_of_ok (map_of_ok (Action.locked_of_ok h))

theorem relocate_rejected {handle : Handle} {base : Address} {cause : Rejection}
    (h : move c handle base slab = .error (.rejected cause) slab) :
    perform ⟨c, .free slab⟩ (.relocate handle base) = .rejected c slab cause :=
  perform_of_rejected (map_of_error (Action.locked_of_rejected h))

theorem relocate_aborted {handle : Handle} {base : Address} {cause : Fatal}
    (h : move c handle base slab = .error (.fatal cause) slab) :
    perform ⟨c, .free slab⟩ (.relocate handle base) = .aborted c slab cause := by
  have ha : action c (.relocate handle base) ⟨.free slab, []⟩ = _ :=
    map_of_error (Action.locked_of_fatal h)
  simp only [perform, run, ha, Report.aborted, List.nil_append]

theorem register_admitted (h : Sound c slab) (ha : c.verify = true → slab.Admits r) :
    Effect c slab (.register r) (perform ⟨c, .free slab⟩ (.register r)) := by
  have hplaced {room : Slab Region} {growth : Option Growth} {i : Nat} {is : List Nat}
      (hr : Room c slab room growth) (hl : room.Links (i :: is)) :
      Effect c slab (.register r) (perform ⟨c, .free slab⟩ (.register r)) := by
    obtain ⟨handle, ho⟩ := (hr.sound h).exists_handle (hl.lt_capacity List.mem_cons_self)
    rw [register_served (place_of_room h ha hr hl ho)]
    exact .placed ha hr hl ho
  obtain ⟨is, hl⟩ := h.linked
  cases is with
  | cons i is => exact hplaced (.spare hl) hl
  | nil =>
      by_cases hn : c.nextCapacity slab.capacity ≤ slab.capacity
      · rw [register_served (place_of_full ha hl hn)]
        exact .refused ha hl hn
      · have hlt := Nat.lt_of_not_le hn
        exact hplaced (.grown hl hlt) (hl.extend_of_nil hlt)

theorem register_effect (h : Sound c slab) (r : Region) :
    Effect c slab (.register r) (perform ⟨c, .free slab⟩ (.register r)) := by
  by_cases hv : c.verify = true
  · cases hd : slab.entries.find? fun e => e.overlaps r with
    | some e =>
        obtain ⟨i, he⟩ := Slab.find?_entries_eq_some_iff.mp hd
        rw [register_rejected (place_of_collision hv he)]
        exact .collided hv he
    | none =>
        have ha := Slab.find?_entries_eq_none_iff.mp hd
        by_cases hf : r.Fits
        · exact register_admitted h fun _ => ⟨ha, hf⟩
        · obtain ⟨s, hs⟩ := Region.exists_firstMisfit_iff.mpr hf
          rw [register_rejected (place_of_misfit hv ha hs)]
          exact .misfit hv ha hs
  · exact register_admitted h fun hc => absurd hc hv

theorem release_effect (h : Sound c slab) (handle : Handle) :
    Effect c slab (.release handle) (perform ⟨c, .free slab⟩ (.release handle)) := by
  by_cases hs : handle = .sentinel
  · subst hs
    exact .spared
  · cases hn : slab.named? handle with
    | none =>
        have hr := remove_of_stray (c := c) hn
        by_cases hv : c.verify = true
        · rw [if_pos hv] at hr
          rw [release_rejected hs hr]
          exact .strayRejected hv hs hn
        · rw [if_neg hv] at hr
          rw [release_stray hs hr]
          exact .strayIgnored (Bool.not_eq_true _ ▸ hv) hs hn
    | some r =>
        obtain ⟨i, hi, hg⟩ := Slab.named?_eq_some_iff.mp hn
        have hr := Slab.vacate?_eq_some_iff.mpr ⟨hg, rfl⟩
        rw [release_found hs (remove_of_vacate? h hi hr)]
        exact .released hi hr

theorem relocate_effect (handle : Handle) (base : Address) :
    Effect c slab (.relocate handle base) (perform ⟨c, .free slab⟩ (.relocate handle base)) := by
  cases hn : slab.named? handle with
  | none =>
      rw [relocate_aborted (move_of_stray hn)]
      exact .lost hn
  | some r =>
      obtain ⟨i, hi, hg⟩ := Slab.named?_eq_some_iff.mp hn
      have hmoved (ha : c.verify = true → ∀ j e, j ≠ i → slab.get? j = some e →
          (r.movedTo base).overlaps e = false) :
          Effect c slab (.relocate handle base) (perform ⟨c, .free slab⟩ (.relocate handle base)) := by
        rw [relocate_served (move_of_admits hi hg ha)]
        exact .moved hi hg ha
      by_cases hv : c.verify = true
      · cases hd : (slab.others i).find? fun e => (r.movedTo base).overlaps e with
        | some e =>
            obtain ⟨j, he⟩ := Slab.find?_others_eq_some_iff.mp hd
            rw [relocate_rejected (move_of_obstruction hv hi hg he)]
            exact .obstructed hv hi hg he
        | none => exact hmoved fun _ => Slab.find?_others_eq_none_iff.mp hd
      · exact hmoved fun hc => absurd hc hv

theorem audit_effect : Effect c slab .audit (perform ⟨c, .free slab⟩ .audit) := by
  refine .answered ?_
  dsimp only [Slab.answer?, Spinlock.free]
  cases slab.check <;> rfl

/-- A request is served, rejected or the end of the process, for one of the listed reasons and no other. -/
theorem perform_effect (h : Sound c slab) (request : Request) :
    Effect c slab request (perform ⟨c, .free slab⟩ request) := by
  cases request with
  | register r => exact register_effect h r
  | release handle => exact release_effect h handle
  | relocate handle base => exact relocate_effect handle base
  | audit => exact audit_effect
  | region | resolve | capacity | size | isEmpty | vacancies => exact .answered rfl

theorem perform_of_effect {request : Request} {report : Report Reply} (he : Effect c slab request report)
    (h : Sound c slab) : perform ⟨c, .free slab⟩ request = report := by
  cases he with
  | collided hv he => exact register_rejected (place_of_collision hv he)
  | misfit hv ha hs => exact register_rejected (place_of_misfit hv ha hs)
  | refused ha hl hn => exact register_served (place_of_full ha hl hn)
  | placed ha hr hl ho => exact register_served (place_of_room h ha hr hl ho)
  | spared => rfl
  | @released handle i r rest hi hr =>
      have hs : handle ≠ .sentinel := by
        rintro rfl
        cases hi
      exact release_found hs (remove_of_vacate? h hi hr)
  | strayIgnored hv hs hn =>
      refine release_stray hs ((remove_of_stray hn).trans (if_neg ?_))
      rw [hv]
      exact Bool.false_ne_true
  | strayRejected hv hs hn => exact release_rejected hs ((remove_of_stray hn).trans (if_pos hv))
  | lost hn => exact relocate_aborted (move_of_stray hn)
  | obstructed hv hi hg he => exact relocate_rejected (move_of_obstruction hv hi hg he)
  | moved hi hg ha => exact relocate_served (move_of_admits hi hg ha)
  | answered ha => exact (perform_effect h _).eq_served ha

theorem Reachable.sound {registry : Registry} (h : Reachable c registry) :
    Sound c.clamped registry.metadata.value ∧
      registry = ⟨c.clamped, .free registry.metadata.value⟩ := by
  induction h with
  | new => exact ⟨.empty c, rfl⟩
  | perform _ request hs ih =>
      obtain ⟨hsound, he⟩ := ih
      -- The effects are those of a registry whose lock is free, so both halves are needed to go on.
      have hp := perform_effect hsound request
      rw [← he] at hp
      exact ⟨hp.sound hsound, hp.registry_eq hs⟩

theorem Reachable.effect {registry : Registry} (h : Reachable c registry) (request : Request) :
    Effect c.clamped registry.metadata.value request (registry.perform request) := by
  obtain ⟨hsound, he⟩ := h.sound
  have hp := perform_effect hsound request
  rwa [← he] at hp

def Live (registry : Registry) (r : Region) : Prop :=
  ∃ handle, registry.metadata.value.named? handle = some r

theorem live_iff {registry : Registry} (h : Reachable c registry) {r : Region} :
    registry.Live r ↔ ∃ i, registry.metadata.value.get? i = some r := by
  constructor
  · rintro ⟨handle, hn⟩
    obtain ⟨i, -, hi⟩ := Slab.named?_eq_some_iff.mp hn
    exact ⟨i, hi⟩
  · rintro ⟨i, hi⟩
    obtain ⟨handle, -, hn⟩ := h.sound.1.exists_named hi
    exact ⟨handle, hn⟩

end Registry

end FaultRecovery
