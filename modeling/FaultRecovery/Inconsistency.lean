import FaultRecovery.Region

namespace FaultRecovery

inductive Inconsistency where
  | overlap (new existing : Span)
  | misfit (region : Span) (site : Site)
  | linkOutOfBounds (index capacity : Nat)
  | linkToOccupied (index : Nat)
  /-- The free list has more links than there are slots. -/
  | cycle
  /-- The free list ends, but leaves out vacant slots. -/
  | unreached (reached vacant : Nat)
deriving DecidableEq, Repr

def Inconsistency.message : Inconsistency → String
  | overlap new existing =>
      "protected range " ++ new.text ++ " overlaps registered range " ++ existing.text
  | misfit region site =>
      "protected instruction " ++ site.text ++ " is invalid for range " ++ region.text
  | linkOutOfBounds index capacity =>
      "free list links to slot " ++ toString index ++ " but the table only has " ++
        toString capacity ++ " slots"
  | linkToOccupied index => "free list links to occupied slot " ++ toString index
  | cycle => "free list contains a cycle"
  | unreached reached vacant =>
      "free list reaches " ++ toString reached ++ " slots but " ++ toString vacant ++ " slots are free"

end FaultRecovery
