import FaultRecovery.Address

namespace FaultRecovery

/-- The program counter is kept in a signed register, which execution resumes from. -/
structure Fault where
  signal : Int32
  address : Address
  rip : Int64
deriving DecidableEq, Repr

structure Response where
  recovered : Bool
  rip : Int64
deriving DecidableEq, Repr

namespace Fault

def segv : Int32 := 11

def pc? (f : Fault) : Option Address :=
  if 0 ≤ f.rip then some f.rip.toUInt64 else none

def decline (f : Fault) : Response := ⟨false, f.rip⟩

def redirect (f : Fault) (target : Address) : Response :=
  if target < 0x8000000000000000 then ⟨true, target.toInt64⟩ else f.decline

theorem pc?_eq (f : Fault) : f.pc? = if 0 ≤ f.rip.toInt then some f.rip.toUInt64 else none := by
  simp only [pc?, Int64.le_iff_toInt_le]
  rfl

theorem redirect_eq (f : Fault) (target : Address) :
    f.redirect target = if target.toNat < 0x8000000000000000 then ⟨true, target.toInt64⟩ else f.decline := by
  simp only [redirect, UInt64.lt_iff_toNat_lt]
  rfl

end Fault

end FaultRecovery
