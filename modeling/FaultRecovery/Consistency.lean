import FaultRecovery.Slab.FreeList

namespace FaultRecovery

def Region.misfit? (r : Region) : Option Site := r.sites.find? fun s => !s.fits r.size

def Region.checkSites (r : Region) : Except Inconsistency Unit :=
  match r.misfit? with
  | some s => .error (.misfit r.span s)
  | none => .ok ()

namespace Slab

def checkDisjoint (slab : Slab Region) (new : Region) : Except Inconsistency Unit :=
  match slab.entries.find? fun r => r.overlaps new with
  | some existing => .error (.overlap new.span existing.span)
  | none => .ok ()

def others {α : Type} (slab : Slab α) (i : Nat) : List α :=
  (slab.slots.toList.zipIdx.filter fun s => s.2 != i).filterMap fun s => s.1.content?

/-- A region may be moved on top of where it lies now, but of no other region. -/
def checkRelocation (slab : Slab Region) (i : Nat) (base : Address) : Except Inconsistency Unit :=
  match slab.get? i with
  | none => .ok ()
  | some r =>
      let new : Span := ⟨base, base.addClamped r.size⟩
      match (slab.others i).find? fun s => new.meets s.span with
      | some existing => .error (.overlap new existing.span)
      | none => .ok ()

def check (slab : Slab Region) : Except Inconsistency Unit :=
  match slab.entries.findSome? fun r => r.misfit?.map (.misfit r.span) with
  | some cause => .error cause
  | none => slab.checkLinks

end Slab

end FaultRecovery
