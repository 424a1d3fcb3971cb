import FaultRecovery.Address

namespace FaultRecovery

/-- A place that may fault and the place where execution then continues, as offsets into a region. -/
structure Site where
  fault : UInt32
  landing : UInt32
deriving DecidableEq, Repr

namespace Site

/-- Recovery only ever moves forward, and stays among the first `size` bytes. -/
def fits (s : Site) (size : Address) : Bool :=
  s.fault.toUInt64 < size && s.landing.toUInt64 < size && s.fault < s.landing

def text (s : Site) : String :=
  "ProtectedInstruction \x7b fault_offset: " ++ toString s.fault.toNat ++
    ", landing_offset: " ++ toString s.landing.toNat ++ " \x7d"

theorem fits_iff {s : Site} {size : Address} :
    s.fits size = true ↔ s.fault.toNat < s.landing.toNat ∧ s.landing.toNat < size.toNat := by
  simp only [fits, Bool.and_eq_true, decide_eq_true_eq, UInt64.lt_iff_toNat_lt,
    UInt32.lt_iff_toNat_lt, UInt32.toNat_toUInt64]
  omega

end Site

structure Span where
  start : Address
  stop : Address
deriving DecidableEq, Repr

namespace Span

def meets (a b : Span) : Bool := a.start < b.stop && b.start < a.stop

def text (s : Span) : String := s.start.hex ++ ".." ++ s.stop.hex

theorem meets_comm (a b : Span) : a.meets b = b.meets a := Bool.and_comm _ _

end Span

structure Region where
  base : Address
  size : Address
  sites : List Site
deriving DecidableEq, Repr

namespace Region

/-- The stop is clamped to the last address when the region runs past it. -/
def span (r : Region) : Span := ⟨r.base, r.base.addClamped r.size⟩

def overlaps (r s : Region) : Bool := r.span.meets s.span

/-- Unlike `span`, membership does not clamp: a region that reaches the last address contains it. -/
def contains (r : Region) (a : Address) : Bool :=
  match r.base.distance? a with
  | none => false
  | some d => d < r.size

/-- The first site that faults at `pc`; a later one with the same offset is never used. -/
def siteAt? (r : Region) (pc : Address) : Option Site :=
  match r.base.distance? pc with
  | none => none
  | some d => r.sites.find? fun s => s.fault.toUInt64 == d

def landingPad? (r : Region) (pc : Address) : Option Address :=
  match r.siteAt? pc with
  | none => none
  | some s => r.base.add? s.landing.toUInt64

def movedTo (r : Region) (base : Address) : Region := { r with base := base }

theorem overlaps_comm (r s : Region) : r.overlaps s = s.overlaps r := Span.meets_comm _ _

theorem contains_iff {r : Region} {a : Address} :
    r.contains a = true ↔ r.base.toNat ≤ a.toNat ∧ a.toNat < r.base.toNat + r.size.toNat := by
  cases h : r.base.distance? a with
  | none =>
      rw [Address.distance?_eq_none_iff] at h
      simp only [contains, Address.distance?_eq_none_iff.mpr h, Bool.false_eq_true, false_iff]
      omega
  | some d =>
      rw [contains, h, decide_eq_true_eq, UInt64.lt_iff_toNat_lt]
      rw [Address.distance?_eq_some_iff] at h
      omega

theorem siteAt?_eq_some_iff {r : Region} {pc : Address} {s : Site} :
    r.siteAt? pc = some s ↔
      r.sites.find? (fun t => r.base.toNat + t.fault.toNat == pc.toNat) = some s := by
  cases h : r.base.distance? pc with
  | none =>
      rw [siteAt?, h, List.find?_eq_none.mpr]
      intro t _
      rw [Address.distance?_eq_none_iff] at h
      rw [beq_iff_eq]
      omega
  | some d =>
      have hp : (fun t : Site => t.fault.toUInt64 == d) =
          fun t => r.base.toNat + t.fault.toNat == pc.toNat := by
        funext t
        rw [Address.distance?_eq_some_iff] at h
        rw [Bool.eq_iff_iff, beq_iff_eq, beq_iff_eq, ← UInt64.toNat_inj, UInt32.toNat_toUInt64]
        omega
      rw [siteAt?, h, ← hp]

theorem landingPad?_eq_some_iff {r : Region} {pc a : Address} :
    r.landingPad? pc = some a ↔ ∃ s, r.siteAt? pc = some s ∧
      a.toNat = r.base.toNat + s.landing.toNat := by
  cases h : r.siteAt? pc with
  | none => simp [landingPad?, h]
  | some s => simp [landingPad?, h, Address.add?_eq_some_iff]

end Region

end FaultRecovery
