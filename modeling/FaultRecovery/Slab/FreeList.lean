import FaultRecovery.Inconsistency
import FaultRecovery.Slab.Basic

namespace FaultRecovery.Slab

variable {α : Type}

inductive Chain (slab : Slab α) : Option Nat → List Nat → Prop where
  | nil : Chain slab none []
  | cons {i : Nat} {next : Option Nat} {is : List Nat} (hi : slab.slots[i]? = some (.vacant next))
      (his : Chain slab next is) : Chain slab (some i) (i :: is)

/-- The list of vacant slots is `is`, and it leaves none out. -/
structure Links (slab : Slab α) (is : List Nat) : Prop where
  chain : slab.Chain slab.head is
  complete : ∀ i next, slab.slots[i]? = some (.vacant next) → i ∈ is

/-- The slots that a link leads through, where there are at most `fuel` of them. A link that leads nowhere is
reported before the list is found to be too long. -/
def trail (slab : Slab α) : Nat → Option Nat → Except Inconsistency (List Nat)
  | _, none => .ok []
  | fuel, some i =>
      match slab.slots[i]? with
      | none => .error (.linkOutOfBounds i slab.capacity)
      | some (.occupied _) => .error (.linkToOccupied i)
      | some (.vacant next) =>
          match fuel with
          | 0 => .error .cycle
          | fuel + 1 => (trail slab fuel next).map (i :: ·)

/-- A list without a cycle has at most as many links as there are slots. -/
def checkLinks (slab : Slab α) : Except Inconsistency Unit :=
  match slab.trail slab.capacity slab.head with
  | .error cause => .error cause
  | .ok is =>
      if is.length = slab.vacancies then .ok () else .error (.unreached is.length slab.vacancies)

theorem Chain.unique {slab : Slab α} {link : Option Nat} {is js : List Nat}
    (hi : slab.Chain link is) (hj : slab.Chain link js) : is = js := by
  induction hi generalizing js with
  | nil => cases hj; rfl
  | cons hi _ ih =>
      cases hj with
      | cons hj hjs =>
          rw [hi] at hj
          obtain rfl := Slot.vacant.inj (Option.some.inj hj)
          rw [ih hjs]

theorem chain_of_trail {slab : Slab α} {fuel : Nat} {link : Option Nat} {is : List Nat}
    (h : slab.trail fuel link = .ok is) : slab.Chain link is ∧ is.length ≤ fuel := by
  induction fuel generalizing link is with
  | zero =>
      cases link with
      | none =>
          obtain rfl := Except.ok.inj h
          exact ⟨.nil, Nat.le_refl 0⟩
      | some i =>
          rw [trail] at h
          split at h <;> simp at h
  | succ fuel ih =>
      cases link with
      | none =>
          obtain rfl := Except.ok.inj h
          exact ⟨.nil, Nat.zero_le _⟩
      | some i =>
          rw [trail] at h
          split at h
          · simp at h
          · simp at h
          · rename_i next hi
            change (slab.trail fuel next).map (i :: ·) = .ok is at h
            cases ht : slab.trail fuel next with
            | error cause => simp [ht, Except.map] at h
            | ok js =>
                rw [ht] at h
                obtain rfl := Except.ok.inj h
                obtain ⟨hc, hl⟩ := ih ht
                exact ⟨.cons hi hc, Nat.succ_le_succ hl⟩

theorem Chain.trail_eq_ok {slab : Slab α} {fuel : Nat} {link : Option Nat} {is : List Nat}
    (h : slab.Chain link is) (hl : is.length ≤ fuel) : slab.trail fuel link = .ok is := by
  induction h generalizing fuel with
  | nil => rw [trail]
  | cons hi _ ih =>
      cases fuel with
      | zero => simp at hl
      | succ fuel =>
          rw [trail]
          simp only [hi]
          rw [ih (Nat.le_of_succ_le_succ hl)]
          rfl

theorem trail_eq_ok_iff {slab : Slab α} {fuel : Nat} {link : Option Nat} {is : List Nat} :
    slab.trail fuel link = .ok is ↔ slab.Chain link is ∧ is.length ≤ fuel :=
  ⟨chain_of_trail, fun h => h.1.trail_eq_ok h.2⟩

end FaultRecovery.Slab
