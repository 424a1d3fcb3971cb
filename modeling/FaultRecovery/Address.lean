namespace FaultRecovery

/-- An address, or a number of bytes. -/
abbrev Address := UInt64

namespace Address

def last : Address := 0xffffffffffffffff

def addClamped (a n : Address) : Address :=
  if a.toNat + n.toNat < UInt64.size then a + n else last

def add? (a n : Address) : Option Address :=
  if a.toNat + n.toNat < UInt64.size then some (a + n) else none

def distance? (base a : Address) : Option Address :=
  if base ≤ a then some (a - base) else none

def hex (a : Address) : String := "0x" ++ String.ofList (Nat.toDigits 16 a.toNat)

theorem toNat_add_of_lt {a n : Address} (h : a.toNat + n.toNat < UInt64.size) :
    (a + n).toNat = a.toNat + n.toNat := by
  rw [UInt64.toNat_add]
  exact Nat.mod_eq_of_lt h

theorem toNat_addClamped (a n : Address) :
    (addClamped a n).toNat = min (a.toNat + n.toNat) (UInt64.size - 1) := by
  by_cases h : a.toNat + n.toNat < UInt64.size
  · rw [addClamped, if_pos h, toNat_add_of_lt h]
    omega
  · have hl : last.toNat = UInt64.size - 1 := rfl
    rw [addClamped, if_neg h]
    omega

theorem add?_eq_some_iff {a n c : Address} : a.add? n = some c ↔ c.toNat = a.toNat + n.toNat := by
  have hc : c.toNat < UInt64.size := c.toNat_lt
  by_cases h : a.toNat + n.toNat < UInt64.size
  · rw [add?, if_pos h, Option.some.injEq, ← UInt64.toNat_inj, toNat_add_of_lt h]
    exact eq_comm
  · rw [add?, if_neg h]
    simp only [reduceCtorEq, false_iff]
    omega

theorem distance?_eq_some_iff {base a d : Address} :
    distance? base a = some d ↔ a.toNat = base.toNat + d.toNat := by
  by_cases h : base ≤ a
  · have hle := UInt64.le_iff_toNat_le.mp h
    rw [distance?, if_pos h, Option.some.injEq, ← UInt64.toNat_inj, UInt64.toNat_sub_of_le _ _ h]
    omega
  · rw [distance?, if_neg h]
    rw [UInt64.le_iff_toNat_le] at h
    simp only [reduceCtorEq, false_iff]
    omega

theorem distance?_eq_none_iff {base a : Address} : distance? base a = none ↔ a.toNat < base.toNat := by
  by_cases h : base ≤ a
  · have hle := UInt64.le_iff_toNat_le.mp h
    rw [distance?, if_pos h]
    simp only [reduceCtorEq, false_iff]
    omega
  · rw [distance?, if_neg h]
    rw [UInt64.le_iff_toNat_le] at h
    simp only [true_iff]
    omega

theorem toNat_toUInt64 {i : Int64} (h : 0 ≤ i.toInt) : (i.toUInt64.toNat : Int) = i.toInt := by
  have hi : 0 ≤ i := Int64.le_iff_toInt_le.mpr h
  rw [Int64.toNat_toUInt64_of_le hi]
  exact Int.toNat_of_nonneg h

theorem toInt_toInt64 {a : Address} (h : a.toNat < 0x8000000000000000) : a.toInt64.toInt = a.toNat := by
  rw [← Int64.toInt_toBitVec, UInt64.toBitVec_toInt64]
  exact BitVec.toInt_eq_toNat_of_lt (by rw [UInt64.toNat_toBitVec]; omega)

end Address

end FaultRecovery
