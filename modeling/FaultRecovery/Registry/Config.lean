import FaultRecovery.Handle

namespace FaultRecovery

structure Config where
  /-- Check consistency around every change, and reject what breaks it. -/
  verify : Bool := true
  initialCapacity : UInt64 := 1024
  maxCapacity : UInt64 := 2147483647
deriving DecidableEq, Repr

namespace Config

/-- A registry starts with a slot at least, and has no more slots than there are handles for. -/
def clamped (c : Config) : Config :=
  { c with initialCapacity := max c.initialCapacity 1, maxCapacity := min c.maxCapacity 2147483647 }

def nextCapacity (c : Config) (capacity : Nat) : Nat :=
  min (max (min (2 * capacity) (UInt64.size - 1)) c.initialCapacity.toNat) c.maxCapacity.toNat

theorem toNat_initialCapacity_clamped (c : Config) :
    c.clamped.initialCapacity.toNat = max c.initialCapacity.toNat 1 := by
  have he : c.clamped.initialCapacity = if c.initialCapacity ≤ 1 then 1 else c.initialCapacity := rfl
  by_cases h : c.initialCapacity ≤ 1
  · rw [he, if_pos h]
    exact (Nat.max_eq_right (UInt64.le_iff_toNat_le.mp h)).symm
  · rw [he, if_neg h]
    exact (Nat.max_eq_left (Nat.le_of_not_le (mt UInt64.le_iff_toNat_le.mpr h))).symm

theorem toNat_maxCapacity_clamped (c : Config) :
    c.clamped.maxCapacity.toNat = min c.maxCapacity.toNat Handle.maxCapacity := by
  have he : c.clamped.maxCapacity =
    if c.maxCapacity ≤ 2147483647 then c.maxCapacity else 2147483647 := rfl
  by_cases h : c.maxCapacity ≤ 2147483647
  · rw [he, if_pos h]
    exact (Nat.min_eq_left (UInt64.le_iff_toNat_le.mp h)).symm
  · rw [he, if_neg h]
    exact (Nat.min_eq_right (Nat.le_of_not_le (mt UInt64.le_iff_toNat_le.mpr h))).symm

theorem nextCapacity_le (c : Config) (capacity : Nat) : c.nextCapacity capacity ≤ c.maxCapacity.toNat :=
  Nat.min_le_right _ _

end Config

end FaultRecovery
