import FaultRecovery.Stop
import FaultRecovery.Registry.Metadata

namespace FaultRecovery

inductive Level where
  | error | warn | debug | trace
deriving DecidableEq, Repr

def Level.text : Level → String
  | error => "error"
  | warn => "warn"
  | debug => "debug"
  | trace => "trace"

structure Growth where
  old : Nat
  new : Nat
deriving DecidableEq, Repr

inductive Event where
  | grew (growth : Growth)
  | full (capacity : Nat) (region : Span)
  | registered (region : Span) (sites : Nat) (handle : Handle)
  | released (handle : Handle) (region : Span)
  | strayRelease (handle : Handle)
  /-- The last words before the process ends. -/
  | fatal (cause : Fatal)
deriving DecidableEq, Repr

namespace Event

def level : Event → Level
  | grew _ => .debug
  | full _ _ => .warn
  | registered _ _ _ => .trace
  | released _ _ => .trace
  | strayRelease _ => .error
  | fatal _ => .error

def message : Event → String
  | grew growth =>
      "grew trap metadata table " ++ toString growth.old ++ " => " ++ toString growth.new
  | full capacity region =>
      "trap metadata registry is full (" ++ toString capacity ++ " ranges), " ++ region.text ++
        " is not protected"
  | registered region sites handle =>
      "registered " ++ region.text ++ " (" ++ toString sites ++ " protected instructions) as " ++
        handle.text
  | released handle region => "released " ++ handle.text ++ " (" ++ region.text ++ ")"
  | strayRelease handle => strayReleaseText handle
  | fatal cause => cause.message

end Event

structure Record where
  event : Event
  seen : Metadata
deriving DecidableEq, Repr

end FaultRecovery
