import FaultRecovery.Registry.Record
import FaultRecovery.Signal.Errno
import FaultRecovery.Signal.Fault

namespace FaultRecovery

inductive Handler where
  | trap
  | foreign (entry : Address)
deriving DecidableEq, Repr

namespace Handler

def default : Handler := .foreign 0

def ignore : Handler := .foreign 1

/-- Two entry points are no functions: the operating system deals with the signal itself. -/
def Standard (h : Handler) : Prop := h = .default ∨ h = .ignore

instance (h : Handler) : Decidable h.Standard := inferInstanceAs (Decidable (_ ∨ _))

theorem Standard.ne_trap {h : Handler} (hs : h.Standard) : h ≠ .trap := by
  rcases hs with rfl | rfl <;> exact Handler.noConfusion

end Handler

structure Disposition where
  handler : Handler
  flags : Int32
deriving DecidableEq, Repr

namespace Disposition

/-- The handler is given the address of the fault and the registers, not only the number of the signal. -/
def infoFlag : Int32 := 0x4

/-- The handler runs on the alternate stack, so that it works where a fault used up the stack. -/
def stackFlag : Int32 := 0x8000000

/-- A fault in the handler is delivered too. -/
def nodeferFlag : Int32 := 0x40000000

def default : Disposition := ⟨.default, 0⟩

def ignore : Disposition := ⟨.ignore, 0⟩

def plain (entry : Address) : Disposition := ⟨.foreign entry, 0⟩

def siginfo (entry : Address) : Disposition := ⟨.foreign entry, infoFlag⟩

def trap : Disposition := ⟨.trap, infoFlag ||| stackFlag ||| nodeferFlag⟩

def takesInfo (d : Disposition) : Bool := d.flags &&& infoFlag ≠ 0

def Traps (d : Disposition) : Prop := d.takesInfo = true ∧ d.handler = .trap

def Passive (d : Disposition) : Prop := d.takesInfo = false ∧ d.handler.Standard

theorem traps_trap : trap.Traps := ⟨by decide, rfl⟩

end Disposition

variable {δ : Type}

/-- Dispatchers are of any type `δ`; what one answers to a fault is up to the world at that time. -/
structure Host (δ : Type) where
  disposition : Disposition := .default
  installed : Bool := false
  /-- What the last installation took the place of. -/
  saved : Disposition := .default
  dispatcher : Option δ := none
  /-- The number of faults recovered; it wraps around. -/
  recovered : UInt64 := 0
deriving DecidableEq, Repr

inductive InstallFailure where
  | unsupported
  | refused (errno : Errno)
deriving DecidableEq, Repr

namespace InstallFailure

def cause? : InstallFailure → Option Errno
  | unsupported => none
  | refused errno => some errno

def message : InstallFailure → String
  | unsupported => "trap handling is not supported on this platform"
  | refused errno => "unable to install signal handler: " ++ errno.text

end InstallFailure

inductive Installation where
  | done
  | failed (cause : InstallFailure)
  /-- Installing twice would make the trap handler its own predecessor, so it is rejected. -/
  | repeated
deriving DecidableEq, Repr

def Installation.repeatedText : String := "default trap handler is already installed"

inductive Notice where
  | installed
  | notInstalled (errno : Errno)
  | removed
deriving DecidableEq, Repr

namespace Notice

def level : Notice → Level
  | installed => .debug
  | notInstalled _ => .warn
  | removed => .debug

def message : Notice → String
  | installed => "installed default trap handler"
  | notInstalled errno =>
      "failed to install trap handler for signal " ++ toString Fault.segv.toInt ++ ": " ++ errno.text
  | removed => "removed default trap handler"

end Notice

inductive Call (δ : Type) where
  | dispatcher (which : δ) (fault : Fault) (response : Response)
  | plain (handler : Handler) (signal : Int32)
  | siginfo (entry : Address) (fault : Fault)
deriving DecidableEq, Repr

/-- What a fault leads to: the process and the program counter register afterwards, and the calls in order. -/
structure Delivery (δ : Type) where
  host : Host δ
  rip : Int64
  calls : List (Call δ)
  /-- False where the handlers nest until the stack is used up. -/
  returned : Bool
deriving DecidableEq, Repr

def Delivery.after (d : Delivery δ) (calls : List (Call δ)) : Delivery δ := { d with calls := calls ++ d.calls }

namespace Host

def setDisposition (p : Host δ) (d : Disposition) : Host δ := { p with disposition := d }

def sigaction (p : Host δ) (refusal : Option Errno) (d : Disposition) : Host δ :=
  match refusal with
  | some _ => p
  | none => p.setDisposition d

def install (p : Host δ) (refusal : Option Errno) : Installation × Host δ × List Notice :=
  if p.installed then (.repeated, p, [])
  else
    match refusal with
    | some errno => (.failed (.refused errno), p, [.notInstalled errno])
    | none => (.done, { p with disposition := .trap, installed := true, saved := p.disposition }, [.installed])

/-- A refusal goes unnoticed: the handler then counts as removed, though it is still there. -/
def remove (p : Host δ) (refusal : Option Errno) : Host δ × List Notice :=
  if p.installed then ({ p.sigaction refusal p.saved with installed := false }, [.removed])
  else (p, [])

def setDispatcher (p : Host δ) (which : δ) : Bool × Host δ :=
  match p.dispatcher with
  | some _ => (false, p)
  | none => (true, { p with dispatcher := some which })

def dispatcherSetText : String := "a fault dispatcher is already set"

def consult (p : Host δ) (respond : δ → Fault → Response) (f : Fault) : Response × List (Call δ) :=
  match p.dispatcher with
  | none => (f.decline, [])
  | some which => (respond which f, [.dispatcher which f (respond which f)])

/-- A call of a handler with the fault, where `itself` is what comes of it for the trap handler. -/
def callInfo (p : Host δ) (itself : Fault → Delivery δ) (f : Fault) : Handler → Delivery δ
  | .trap => itself f
  | .foreign entry => ⟨p, f.rip, [.siginfo entry f], true⟩

def callPlain (p : Host δ) (f : Fault) (h : Handler) : Delivery δ := ⟨p, f.rip, [.plain h f.signal], true⟩

/-- Hands a fault on to the function that was there before. What was no function is put back, and the fault
repeats itself under it. -/
def forward (p : Host δ) (refusal : Option Errno) (itself : Fault → Delivery δ) (d : Disposition)
    (f : Fault) : Delivery δ :=
  if d.takesInfo then p.callInfo itself f d.handler
  else if d.handler.Standard then ⟨p.sigaction refusal d, f.rip, [], true⟩
  else p.callPlain f d.handler

/-- The trap handler, of which `depth` invocations fit on the stack. -/
def trap (respond : δ → Fault → Response) (refusal : Option Errno) : Nat → Host δ → Fault → Delivery δ
  | 0, p, f => ⟨p, f.rip, [], false⟩
  | depth + 1, p, f =>
      if f.signal ≠ Fault.segv then ⟨p, f.rip, [], true⟩
      else
        let (response, calls) := p.consult respond f
        if response.recovered then ⟨{ p with recovered := p.recovered + 1 }, response.rip, calls, true⟩
        else
          (p.forward refusal (trap respond refusal depth p) p.saved { f with rip := response.rip }).after calls

/-- The operating system calls no function in place of what it does itself, whatever the flags. -/
def deliver (respond : δ → Fault → Response) (refusal : Option Errno) (depth : Nat) (p : Host δ)
    (f : Fault) : Delivery δ :=
  if p.disposition.handler.Standard then ⟨p, f.rip, [], true⟩
  else if p.disposition.takesInfo then p.callInfo (p.trap respond refusal depth) f p.disposition.handler
  else p.callPlain f p.disposition.handler

end Host

end FaultRecovery
