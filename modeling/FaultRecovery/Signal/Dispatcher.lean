import FaultRecovery.Registry.Request
import FaultRecovery.Signal.Fault

namespace FaultRecovery

def Fault.follow (f : Fault) : Lookup → Response
  | .recover landing => f.redirect landing
  | .unprotected => f.decline
  | .indeterminate => f.decline

/-- A registry as a dispatcher of faults. It must not wait for the lock, which the thread that faults may hold. -/
def Registry.respond (f : Fault) : Action Response :=
  match f.pc? with
  | none => return f.decline
  | some pc => f.follow <$> resolve pc

end FaultRecovery
