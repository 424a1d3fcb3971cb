import FaultRecovery.Registry.Request
import FaultRecovery.Signal.History

namespace FaultRecovery

variable {δ : Type}

structure Process (δ : Type) where
  registry : Registry
  host : Host δ := {}

inductive Incident (δ : Type) where
  | request (request : Request)
  | occurrence (o : Occurrence δ)

namespace Process

/-- The metadata as a fault finds them, which may come in the middle of a request and not get the lock. -/
def found (p : Process δ) (held : Bool) : Metadata := { p.registry.metadata with locked := held }

def meet (depth : Nat) (p : Process δ) : Incident δ → Process δ × List (Call δ)
  | .request request => ({ p with registry := (p.registry.perform request).registry }, [])
  | .occurrence o =>
      let (host, calls) := p.host.occur depth o
      ({ p with host := host }, calls)

def meetAll (depth : Nat) (p : Process δ) : List (Incident δ) → Process δ × List (Call δ)
  | [] => (p, [])
  | i :: is =>
      let (next, calls) := p.meet depth i
      let (last, rest) := next.meetAll depth is
      (last, calls ++ rest)

end Process

end FaultRecovery
