import FaultRecovery.Proofs.Registry.Sound
import FaultRecovery.Registry.Run

namespace FaultRecovery

namespace Report

/-- Records are written after the lock was given back, so each sees the slab as the request leaves it. -/
def served (c : Config) (slab : Slab Region) (reply : Reply) (events : List Event) : Report Reply :=
  ⟨.ok reply, events.map fun e => ⟨e, .free slab⟩, ⟨c, .free slab⟩⟩

def rejected (c : Config) (slab : Slab Region) (cause : Rejection) : Report Reply :=
  ⟨.error ⟨.rejected cause, ⟨true, slab⟩⟩, [], ⟨c, .free slab⟩⟩

/-- The last record is written with the lock held, and the lock is never given back. -/
def aborted (c : Config) (slab : Slab Region) (cause : Fatal) : Report Reply :=
  ⟨.error ⟨.fatal cause, ⟨true, slab⟩⟩, [⟨.fatal cause, ⟨true, slab⟩⟩], ⟨c, ⟨true, slab⟩⟩⟩

end Report

def Placement.events : Placement → Region → List Event
  | .refused capacity, r => [.full capacity ⟨r.base, r.base.addClamped r.size⟩]
  | .placed handle growth, r =>
      growth.toList.map .grew ++ [.registered ⟨r.base, r.base.addClamped r.size⟩ r.sites.length handle]

def Slab.answer? (slab : Slab Region) : Request → Option Reply
  | .register _ => none
  | .release _ => none
  | .relocate _ _ => none
  | .region h => some (.region (slab.named? h))
  | .resolve pc => some (.lookup (Metadata.resolve (.free slab) pc))
  | .audit => some (.verdict (match slab.check with | .ok () => none | .error cause => some cause))
  | .capacity => some (.count slab.capacity)
  | .size => some (.count slab.size)
  | .isEmpty => some (.flag (slab.size == 0))
  | .vacancies => some (.count slab.vacancies)

/-- The slab that the next region is put into: as it is while a slot is vacant, else with added slots. -/
inductive Room (c : Config) (slab : Slab Region) : Slab Region → Option Growth → Prop where
  | spare {i : Nat} {is : List Nat} (hl : slab.Links (i :: is)) : Room c slab slab none
  | grown (hl : slab.Links []) (hn : slab.capacity < c.nextCapacity slab.capacity) :
      Room c slab (slab.extend (c.nextCapacity slab.capacity))
        (some ⟨slab.capacity, c.nextCapacity slab.capacity⟩)

inductive Effect (c : Config) (slab : Slab Region) : Request → Report Reply → Prop where
  | collided {r e : Region} {i : Nat} (hv : c.verify = true)
      (he : slab.First (fun _ e => e.overlaps r = true) i e) :
      Effect c slab (.register r) (.rejected c slab (.inconsistent (.overlap r.span e.span)))
  | misfit {r : Region} {s : Site} (hv : c.verify = true)
      (ha : ∀ i e, slab.get? i = some e → e.overlaps r = false) (hs : r.FirstMisfit s) :
      Effect c slab (.register r) (.rejected c slab (.inconsistent (.misfit r.span s)))
  | refused {r : Region} (ha : c.verify = true → slab.Admits r) (hl : slab.Links [])
      (hn : c.nextCapacity slab.capacity ≤ slab.capacity) :
      Effect c slab (.register r) (.served c slab (.placement (.refused slab.capacity))
        ((Placement.refused slab.capacity).events r))
  | placed {r : Region} {room : Slab Region} {growth : Option Growth} {i : Nat} {is : List Nat}
      {handle : Handle} (ha : c.verify = true → slab.Admits r) (hr : Room c slab room growth)
      (hl : room.Links (i :: is)) (ho : Handle.ofIndex? i = some handle) :
      Effect c slab (.register r) (.served c (room.insert i r) (.placement (.placed handle growth))
        ((Placement.placed handle growth).events r))
  | spared : Effect c slab (.release .sentinel) (.served c slab .done [])
  | released {handle : Handle} {i : Nat} {r : Region} {rest : Slab Region} (hi : handle.index? = some i)
      (hr : slab.vacate? i = some (r, rest)) :
      Effect c slab (.release handle) (.served c rest .done [.released handle r.span])
  | strayIgnored {handle : Handle} (hv : c.verify = false) (hs : handle ≠ .sentinel)
      (hn : slab.named? handle = none) :
      Effect c slab (.release handle) (.served c slab .done [.strayRelease handle])
  | strayRejected {handle : Handle} (hv : c.verify = true) (hs : handle ≠ .sentinel)
      (hn : slab.named? handle = none) :
      Effect c slab (.release handle) (.rejected c slab (.strayRelease handle))
  | lost {handle : Handle} {base : Address} (hn : slab.named? handle = none) :
      Effect c slab (.relocate handle base) (.aborted c slab (.strayRelocation handle))
  | obstructed {handle : Handle} {base : Address} {i j : Nat} {r e : Region} (hv : c.verify = true)
      (hi : handle.index? = some i) (hg : slab.get? i = some r)
      (he : slab.First (fun k e => k ≠ i ∧ (r.movedTo base).overlaps e = true) j e) :
      Effect c slab (.relocate handle base)
        (.rejected c slab (.inconsistent (.overlap (r.movedTo base).span e.span)))
  | moved {handle : Handle} {base : Address} {i : Nat} {r : Region} (hi : handle.index? = some i)
      (hg : slab.get? i = some r)
      (ha : c.verify = true → ∀ j e, j ≠ i → slab.get? j = some e → (r.movedTo base).overlaps e = false) :
      Effect c slab (.relocate handle base) (.served c (slab.put i (r.movedTo base)) .done [])
  | answered {request : Request} {reply : Reply} (ha : slab.answer? request = some reply) :
      Effect c slab request (.served c slab reply [])

variable {c : Config} {slab : Slab Region}

namespace Room

variable {room : Slab Region} {growth : Option Growth}

theorem get?_eq (h : Room c slab room growth) (i : Nat) : room.get? i = slab.get? i := by
  cases h with
  | spare hl => rfl
  | grown hl hn => exact slab.get?_extend _ i

theorem named?_eq (h : Room c slab room growth) (handle : Handle) :
    room.named? handle = slab.named? handle := by
  rw [Slab.named?, Slab.named?, funext h.get?_eq]

theorem admits_iff (h : Room c slab room growth) {r : Region} : room.Admits r ↔ slab.Admits r := by
  constructor
  · intro ha
    refine ⟨?_, ha.fits⟩
    intro i e he
    exact ha.apart i e ((h.get?_eq i).trans he)
  · intro ha
    refine ⟨?_, ha.fits⟩
    intro i e he
    exact ha.apart i e ((h.get?_eq i).symm.trans he)

theorem sound (h : Room c slab room growth) (hs : Sound c slab) : Sound c room := by
  cases h with
  | spare hl => exact hs
  | grown hl hn => exact hs.extend hn (c.nextCapacity_le slab.capacity)

end Room

theorem Sound.place {room : Slab Region} {growth : Option Growth} {i : Nat} {is : List Nat} {r : Region}
    (h : Sound c slab) (hr : Room c slab room growth) (hl : room.Links (i :: is))
    (ha : c.verify = true → slab.Admits r) : Sound c (room.insert i r) :=
  (hr.sound h).insert hl fun hv => hr.admits_iff.mpr (ha hv)

theorem Effect.sound {request : Request} {report : Report Reply} (he : Effect c slab request report)
    (h : Sound c slab) : Sound c report.registry.metadata.value := by
  cases he with
  | placed ha hr hl ho => exact h.place hr hl ha
  | released hi hr => exact h.vacate hr
  | moved hi hg ha => exact h.put hg fun hv => ⟨(h.fits hv _ _ hg).movedTo _, ha hv⟩
  | collided | misfit | refused | spared | strayIgnored | strayRejected | lost | obstructed | answered =>
      exact h

theorem Effect.registry_eq {request : Request} {report : Report Reply} (he : Effect c slab request report)
    (hs : report.survived = true) : report.registry = ⟨c, .free report.registry.metadata.value⟩ := by
  cases he with
  | lost hn => simp [Report.survived, Report.aborted] at hs
  | collided | misfit | refused | placed | spared | released | strayIgnored | strayRejected | obstructed |
      moved | answered => rfl

theorem Effect.eq_served {request : Request} {report : Report Reply} {reply : Reply}
    (he : Effect c slab request report) (ha : slab.answer? request = some reply) :
    report = .served c slab reply [] := by
  cases he with
  | answered hb =>
      obtain rfl := Option.some.inj (ha.symm.trans hb)
      rfl
  | collided | misfit | refused | placed | spared | released | strayIgnored | strayRejected | lost |
      obstructed | moved => simp [Slab.answer?] at ha

end FaultRecovery
