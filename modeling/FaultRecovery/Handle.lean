namespace FaultRecovery

structure Handle where
  raw : Int32
deriving DecidableEq, Repr

namespace Handle

/-- Handed out when no slot could be; giving it back does nothing. -/
def sentinel : Handle := ⟨-1⟩

/-- The most slots of which every index is sure to have a handle. -/
def maxCapacity : Nat := 2147483647

def isValid (h : Handle) : Bool := 0 ≤ h.raw

def ofIndex? (i : Nat) : Option Handle :=
  if i ≤ maxCapacity then some ⟨Int32.ofNat i⟩ else none

def index? (h : Handle) : Option Nat :=
  if h.isValid then some h.raw.toInt.toNat else none

def text (h : Handle) : String :=
  if h.isValid then "Handle(" ++ toString h.raw.toInt ++ ")" else "Handle::INVALID"

def sort (hs : List Handle) : List Handle := hs.mergeSort fun a b => a.raw ≤ b.raw

theorem isValid_iff {h : Handle} : h.isValid = true ↔ 0 ≤ h.raw.toInt := by
  rw [isValid, decide_eq_true_eq, Int32.le_iff_toInt_le]
  rfl

theorem toInt_ofNat_of_le {i : Nat} (h : i ≤ maxCapacity) : (Int32.ofNat i).toInt = i :=
  Int32.toInt_ofNat_of_lt (Nat.lt_succ_of_le h)

theorem index?_of_ofIndex? {i : Nat} {h : Handle} (hi : ofIndex? i = some h) :
    h.index? = some i := by
  by_cases hle : i ≤ maxCapacity
  · rw [ofIndex?, if_pos hle] at hi
    obtain rfl := Option.some.inj hi
    simp [index?, isValid_iff, toInt_ofNat_of_le hle]
  · simp [ofIndex?, hle] at hi

theorem ofIndex?_of_index? {i : Nat} {h : Handle} (hi : h.index? = some i) :
    ofIndex? i = some h := by
  by_cases hv : h.isValid = true
  · rw [index?, if_pos hv] at hi
    obtain rfl := Option.some.inj hi
    rw [isValid_iff] at hv
    have hlt : h.raw.toInt < 2147483648 := h.raw.toInt_lt
    have hle : h.raw.toInt.toNat ≤ maxCapacity := by
      rw [maxCapacity]
      omega
    have hr : Int32.ofNat h.raw.toInt.toNat = h.raw := by
      rw [← Int32.toInt_inj, toInt_ofNat_of_le hle]
      exact Int.toNat_of_nonneg hv
    rw [ofIndex?, if_pos hle, hr]
  · simp [index?, hv] at hi

end Handle

end FaultRecovery
