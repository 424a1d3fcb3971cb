import FaultRecovery.Proofs.Registry.Failures

namespace FaultRecovery

variable {c : Config} {slab : Slab Region} {request : Request} {report : Report Reply}

namespace Metadata

def Answers (m : Metadata) : Prop := m.locked = false ∧ ∀ pc, m.resolve pc ≠ .indeterminate

def Silent (m : Metadata) : Prop := m.locked = true ∧ ∀ pc, m.resolve pc = .indeterminate

theorem answers_free (slab : Slab Region) : Answers (.free slab) := by
  refine ⟨rfl, ?_⟩
  intro pc
  rw [resolve_of_free rfl]
  cases (Spinlock.free slab).value.landingPad? pc <;> simp

theorem silent_of_locked {m : Metadata} (h : m.locked = true) : m.Silent := ⟨h, resolve_of_locked h⟩

end Metadata

/-- What is told of has happened: the slots are there, the region is in its slot, or it is not there any more. -/
def Event.Happened (request : Request) (slab : Slab Region) : Event → Prop
  | .grew growth =>
      slab.capacity = growth.new ∧ ∃ r handle, request = .register r ∧ slab.named? handle = some r
  | .registered span sites handle =>
      ∃ r, request = .register r ∧ slab.named? handle = some r ∧
        span = ⟨r.base, r.base.addClamped r.size⟩ ∧ sites = r.sites.length
  | .released handle _ => request = .release handle ∧ slab.named? handle = none
  | .full capacity span => ∃ r, request = .register r ∧ slab.capacity = capacity ∧
      span = ⟨r.base, r.base.addClamped r.size⟩
  | .strayRelease handle => request = .release handle ∧ slab.named? handle = none
  | .fatal _ => False

theorem Room.capacity_eq {room : Slab Region} {growth : Growth} (h : Room c slab room (some growth)) :
    room.capacity = growth.new := by
  cases h with
  | grown _ hn => exact Slab.capacity_extend (Nat.le_of_lt hn)

theorem Placement.happened {room : Slab Region} {growth : Option Growth} {i : Nat} {is : List Nat}
    {handle : Handle} {r : Region} (hr : Room c slab room growth) (hl : room.Links (i :: is))
    (ho : Handle.ofIndex? i = some handle) :
    ∀ e ∈ (Placement.placed handle growth).events r, e.Happened (.register r) (room.insert i r) := by
  have hn : (room.insert i r).named? handle = some r := by
    rw [Slab.named?, Handle.index?_of_ofIndex? ho]
    exact (Slab.get?_insert (hl.lt_capacity List.mem_cons_self)).trans (if_pos rfl)
  intro e he
  rcases List.mem_append.mp he with he | he
  · obtain ⟨g, hg, rfl⟩ := List.mem_map.mp he
    obtain rfl := Option.mem_toList.mp hg
    exact ⟨(Slab.capacity_insert ..).trans hr.capacity_eq, r, handle, rfl, hn⟩
  · obtain rfl := List.mem_singleton.mp he
    exact ⟨r, rfl, hn, rfl, rfl⟩

theorem Effect.answers (he : Effect c slab request report) (hs : report.survived = true) :
    report.registry.metadata.Answers := by
  rw [he.registry_eq hs]
  exact Metadata.answers_free _

theorem Effect.happened (he : Effect c slab request report) (hs : report.survived = true) {record : Record}
    (hr : record ∈ report.records) :
    record.seen = report.registry.metadata ∧ record.event.Happened request record.seen.value := by
  cases he with
  | @refused r ha hl hn =>
      obtain rfl := List.mem_singleton.mp hr
      exact ⟨rfl, r, rfl, rfl, rfl⟩
  | placed ha hroom hl ho =>
      obtain ⟨e, he, rfl⟩ := List.mem_map.mp hr
      exact ⟨rfl, Placement.happened hroom hl ho e he⟩
  | released hi hrest =>
      obtain rfl := List.mem_singleton.mp hr
      refine ⟨rfl, rfl, ?_⟩
      rw [Slab.named?, hi]
      exact (Slab.get?_of_vacate? hrest).trans (if_pos rfl)
  | strayIgnored hv hn hd =>
      obtain rfl := List.mem_singleton.mp hr
      exact ⟨rfl, rfl, hd⟩
  | lost => cases hs
  | collided | misfit | spared | strayRejected | obstructed | moved | answered => cases hr

theorem Effect.eq_aborted (he : Effect c slab request report) (hs : report.survived = false) :
    ∃ cause, report = .aborted c slab cause := by
  cases he with
  | lost => exact ⟨_, rfl⟩
  | collided | misfit | refused | placed | spared | released | strayIgnored | strayRejected | obstructed |
      moved | answered => cases hs

theorem Effect.events_register {r : Region} {p : Placement} (he : Effect c slab (.register r) report)
    (hp : report.outcome = .ok (.placement p)) : report.records.map Record.event = p.events r := by
  cases he with
  | refused | placed =>
      obtain rfl := Reply.placement.inj (Except.ok.inj hp)
      exact (List.map_map ..).trans (List.map_id _)
  | collided | misfit => cases hp
  | answered ha => cases ha

theorem Effect.events_release {handle : Handle} {r : Region} (he : Effect c slab (.release handle) report)
    (hn : slab.named? handle = some r) : report.records.map Record.event = [.released handle ⟨r.base, r.base.addClamped r.size⟩] := by
  cases he with
  | released hi hrest =>
      have hs := Slab.named?_eq_some_iff.mpr ⟨_, hi, (Slab.vacate?_eq_some_iff.mp hrest).1⟩
      obtain rfl := Option.some.inj (hs.symm.trans hn)
      rfl
  | spared => cases hn
  | strayIgnored hv hs hd => cases hd.symm.trans hn
  | strayRejected hv hs hd => cases hd.symm.trans hn
  | answered ha => cases ha

namespace Registry

variable {registry : Registry}

/-- While a record is written nobody holds the lock, and a fault finds what it would find after the request.
Where a request is rejected the lock is still held, and given back as it unwinds. Where the process ends the
lock is held as its last words are written. A region put in or released is never passed over in silence. -/
theorem records_written_unlocked (h : Reachable c registry) (request : Request) :
    ((registry.perform request).survived = true →
        (registry.perform request).registry.metadata.Answers ∧
        ∀ record ∈ (registry.perform request).records,
          record.seen = (registry.perform request).registry.metadata ∧
          record.event.Happened request record.seen.value) ∧
      (∀ cause seen, (registry.perform request).outcome = .error ⟨.rejected cause, seen⟩ →
        seen.Silent ∧ (registry.perform request).registry.metadata.Answers) ∧
      ((registry.perform request).survived = false → ∃ cause seen,
        (registry.perform request).outcome = .error ⟨.fatal cause, seen⟩ ∧
        (registry.perform request).records = [⟨.fatal cause, seen⟩] ∧ seen.Silent) ∧
      (∀ r p, request = .register r → (registry.perform request).outcome = .ok (.placement p) →
        (registry.perform request).records.map Record.event = p.events r) ∧
      ∀ handle r, request = .release handle → registry.directory handle = some r →
        (registry.perform request).records.map Record.event = [.released handle ⟨r.base, r.base.addClamped r.size⟩] := by
  have he := h.effect request
  refine ⟨?_, ?_, ?_, ?_, ?_⟩
  · intro hs
    exact ⟨he.answers hs, fun record hr => he.happened hs hr⟩
  · intro cause seen ho
    obtain ⟨-, hseen⟩ := he.fails ho
    obtain rfl : seen = ⟨true, _⟩ := hseen
    refine ⟨Metadata.silent_of_locked rfl, he.answers ?_⟩
    rw [Report.survived, ho]
  · intro hs
    obtain ⟨cause, ha⟩ := he.eq_aborted hs
    rw [ha]
    exact ⟨cause, _, rfl, rfl, Metadata.silent_of_locked rfl⟩
  · rintro r p rfl
    exact he.events_register
  · rintro handle r rfl
    exact he.events_release

theorem records_of_growth_and_failures :
    ∃ registry, Reachable ⟨true, 1, 4⟩ registry ∧
      (∃ seen, ⟨.grew ⟨1, 2⟩, seen⟩ ∈ (registry.perform (.register ⟨0x2000, 0x10, []⟩)).records ∧
        seen.Answers ∧ seen.value.capacity = 2) ∧
      (∃ cause seen, (registry.perform (.register ⟨0x1000, 0x10, []⟩)).outcome = .error ⟨.rejected cause, seen⟩ ∧
        seen.Silent) ∧
      ∃ cause seen, (registry.perform (.relocate ⟨1⟩ 0x3000)).records = [⟨.fatal cause, seen⟩] ∧ seen.Silent := by
  have h := (Reachable.new (c := ⟨true, 1, 4⟩)).performAll [.register ⟨0x1000, 0x10, [⟨0, 4⟩]⟩] (by decide +kernel)
  obtain ⟨ha, hr⟩ := (records_written_unlocked h (.register ⟨0x2000, 0x10, []⟩)).1 (by decide +kernel)
  obtain ⟨he, hc, -⟩ := hr ⟨.grew ⟨1, 2⟩, .free ⟨#[.occupied ⟨0x1000, 0x10, [⟨0, 4⟩]⟩, .occupied ⟨0x2000, 0x10, []⟩],
    none⟩⟩ (by decide +kernel)
  obtain ⟨cause, seen, -, hl, hs⟩ := (records_written_unlocked h (.relocate ⟨1⟩ 0x3000)).2.2.1 (by decide +kernel)
  refine ⟨_, h, ⟨_, ?_, he ▸ ha, hc⟩, ⟨.inconsistent (.overlap ⟨0x1000, 0x1010⟩ ⟨0x1000, 0x1010⟩),
    ⟨true, ⟨#[.occupied ⟨0x1000, 0x10, [⟨0, 4⟩]⟩], none⟩⟩, ?ho, ((records_written_unlocked h _).2.1 _ _ ?ho).1⟩,
    cause, seen, hl, hs⟩
  · decide +kernel
  · with_unfolding_all rfl

end Registry

end FaultRecovery
