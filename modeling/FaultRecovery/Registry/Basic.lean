import FaultRecovery.Consistency
import FaultRecovery.Registry.Action
import FaultRecovery.Registry.Config

namespace FaultRecovery

structure Registry where
  config : Config
  metadata : Metadata
deriving DecidableEq, Repr

inductive Placement where
  /-- All slots are taken, and there may be no more of them. -/
  | refused (capacity : Nat)
  | placed (handle : Handle) (growth : Option Growth)
deriving DecidableEq, Repr

namespace Placement

/-- The handle for a caller who does not ask why there is none. -/
def handle : Placement → Handle
  | refused _ => .sentinel
  | placed handle _ => handle

def refusedText (capacity : Nat) : String :=
  "trap metadata registry is full (" ++ toString capacity ++ " protected ranges)"

end Placement

namespace Registry

def new (c : Config) : Registry := ⟨c.clamped, .free .empty⟩

def verify (c : Config) (check : Slab Region → Except Inconsistency Unit) : Slab.Step Region Unit :=
  fun slab =>
    if c.verify then
      match check slab with
      | .ok () => .ok () slab
      | .error cause => .error (.rejected (.inconsistent cause)) slab
    else .ok () slab

def fill (c : Config) (r : Region) (growth : Option Growth) (i : Nat) : Slab.Step Region Placement :=
  match Handle.ofIndex? i with
  | none => throw (.fatal (.noHandleForSlot i))
  | some handle => do
      Slab.occupy i r
      verify c Slab.check
      return .placed handle growth

def place (c : Config) (r : Region) : Slab.Step Region Placement := do
  verify c fun slab => slab.checkDisjoint r
  verify c fun _ => r.checkSites
  match ← Slab.pop with
  | some i => fill c r none i
  | none =>
      let old := (← get).capacity
      let new := c.nextCapacity old
      if new ≤ old then
        return .refused old
      else
        Slab.grow new
        match ← Slab.pop with
        | some i => fill c r (some ⟨old, new⟩) i
        | none => throw (.fatal (.noSlotAfterGrowth new))

def take (h : Handle) : Slab.Step Region (Option Region) :=
  match h.index? with
  | none => return none
  | some i => Slab.vacate i

/-- That a handle names nothing is held against the caller only under verification. -/
def remove (c : Config) (h : Handle) : Slab.Step Region (Option Region) := do
  match ← take h with
  | none => if c.verify then throw (.rejected (.strayRelease h)) else return none
  | some r =>
      verify c Slab.check
      return some r

/-- Moves what a handle names. A caller that moves code unknown here has lost track of what is where. -/
def move (c : Config) (h : Handle) (base : Address) : Slab.Step Region Unit := do
  let slab ← get
  match h.index?.filter fun i => (slab.get? i).isSome with
  | none => throw (.fatal (.strayRelocation h))
  | some i =>
      verify c fun slab => slab.checkRelocation i base
      discard <| Slab.modify i fun r => r.movedTo base

def tell : Placement → Region → Action Unit
  | .refused capacity, r => Action.write (.full capacity r.span)
  | .placed handle none, r => Action.write (.registered r.span r.sites.length handle)
  | .placed handle (some growth), r => do
      Action.write (.grew growth)
      Action.write (.registered r.span r.sites.length handle)

def register (c : Config) (r : Region) : Action Placement := do
  let placement ← Action.locked (place c r)
  tell placement r
  return placement

/-- The sentinel stands for no region, and to release it is no mistake. -/
def release (c : Config) (h : Handle) : Action Unit := do
  if h = .sentinel then
    return ()
  else
    match ← Action.locked (remove c h) with
    | some r => Action.write (.released h r.span)
    | none => Action.write (.strayRelease h)

def relocate (c : Config) (h : Handle) (base : Address) : Action Unit :=
  Action.locked (move c h base)

def region? (h : Handle) : Action (Option Region) :=
  Action.read fun slab => slab.named? h

def resolve (pc : Address) : Action Lookup :=
  Lookup.ofSearch <$> Action.tryRead Metadata.attempts fun slab => slab.landingPad? pc

def capacity : Action Nat := Action.read Slab.capacity

def size : Action Nat := Action.read Slab.size

def isEmpty : Action Bool := (· == 0) <$> size

def vacancies : Action Nat := Action.read Slab.vacancies

/-- All checks that know of no particular change, whatever the configuration. -/
def audit : Action (Except Inconsistency Unit) := Action.read Slab.check

theorem resolve_eq (pc : Address) (s : Session) : resolve pc s = .ok (s.metadata.resolve pc) s := by
  change EStateM.map Lookup.ofSearch (Action.tryRead _ _) s = _
  rw [EStateM.map, Action.tryRead_eq, Metadata.resolve]

end Registry

end FaultRecovery
