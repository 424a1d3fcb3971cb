import FaultRecovery.Handle
import FaultRecovery.Inconsistency

namespace FaultRecovery

inductive Rejection where
  | inconsistent (cause : Inconsistency)
  | strayRelease (handle : Handle)
  | outOfBounds (index capacity : Nat)
  | notGrowing
  | slotTaken
deriving DecidableEq, Repr

/-- What is said of a release that names no region, whether or not it is rejected. -/
def strayReleaseText (handle : Handle) : String :=
  "released " ++ handle.text ++ " which is not a registered trap handler range"

def Rejection.message : Rejection → String
  | inconsistent cause => "trap handler metadata is inconsistent: " ++ cause.message
  | strayRelease handle => strayReleaseText handle
  | outOfBounds index capacity =>
      "index out of bounds: the len is " ++ toString capacity ++ " but the index is " ++ toString index
  | notGrowing => "assertion failed: new_capacity > old_capacity"
  | slotTaken => "assertion failed: self.slots[index].is_free()"

/-- These end the process, since half-updated metadata must not be seen by the next fault. -/
inductive Fatal where
  | headOccupied (index : Nat)
  | storageExhausted (old new : Nat)
  | noSlotAfterGrowth (capacity : Nat)
  | noHandleForSlot (index : Nat)
  | strayRelocation (handle : Handle)
deriving DecidableEq, Repr

def Fatal.message : Fatal → String
  | headOccupied index => "trap metadata free list points at occupied slot " ++ toString index
  | storageExhausted old new =>
      "failed to grow trap metadata table from " ++ toString old ++ " to " ++ toString new ++ " slots"
  | noSlotAfterGrowth capacity => "no free slot after growing to " ++ toString capacity
  | noHandleForSlot index => "slot index " ++ toString index ++ " is not representable as a handle"
  | strayRelocation handle =>
      "updated base of " ++ handle.text ++ " which is not a registered trap handler range"

inductive Stop where
  | rejected (cause : Rejection)
  | fatal (cause : Fatal)
  /-- The step waits for a lock that its own process holds and will never give back. -/
  | blocked
deriving DecidableEq, Repr

end FaultRecovery
