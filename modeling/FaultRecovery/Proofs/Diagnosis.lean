import FaultRecovery.Proofs.Consistency
import FaultRecovery.Proofs.Slab.Walk

namespace FaultRecovery.Slab

variable {slab : Slab Region} {verdict : Except Inconsistency Unit}

/-- A site that does not fit comes first. Then the walk over the vacant slots decides: it leads to a slot that
is not there or not vacant, it never ends, it ends too early, or it ends when every vacant slot was met once. -/
inductive Finds (slab : Slab Region) : Except Inconsistency Unit → Prop where
  | misfit {i : Nat} {r : Region} {s : Site} (hr : slab.First (fun _ r => ¬ r.Fits) i r)
      (hs : r.FirstMisfit s) : Finds slab (.error (.misfit ⟨r.base, r.base.addClamped r.size⟩ s))
  | outOfBounds {is : List Nat} {i : Nat} (hf : ∀ j r, slab.get? j = some r → r.Fits)
      (hw : slab.Walk slab.head is (some i)) (hi : slab.capacity ≤ i) :
      Finds slab (.error (.linkOutOfBounds i slab.capacity))
  | occupied {is : List Nat} {i : Nat} {r : Region} (hf : ∀ j r, slab.get? j = some r → r.Fits)
      (hw : slab.Walk slab.head is (some i)) (hi : slab.get? i = some r) :
      Finds slab (.error (.linkToOccupied i))
  | cycle (hf : ∀ j r, slab.get? j = some r → r.Fits) (he : slab.Endless slab.head) :
      Finds slab (.error .cycle)
  | unreached {is : List Nat} (hf : ∀ j r, slab.get? j = some r → r.Fits)
      (hw : slab.Walk slab.head is none) (hd : is.Nodup) (hl : is.length < slab.vacancies) :
      Finds slab (.error (.unreached is.length slab.vacancies))
  | accounted {is : List Nat} (hf : ∀ j r, slab.get? j = some r → r.Fits)
      (hw : slab.Walk slab.head is none)
      (hc : ∀ i next, slab.slots[i]? = some (.vacant next) → is.count i = 1) : Finds slab (.ok ())

theorem check_of_misfit {i : Nat} {r : Region} {s : Site} (hr : slab.First (fun _ r => ¬ r.Fits) i r)
    (hs : r.FirstMisfit s) : slab.check = .error (.misfit r.span s) := by
  have hm : slab.misfit? = some (.misfit r.span s) := misfit?_eq_some_iff.mpr ⟨i, r, s, hr, hs, rfl⟩
  rw [misfit?] at hm
  rw [check, hm]

theorem check_of_fits (hf : ∀ j r, slab.get? j = some r → r.Fits) : slab.check = slab.checkLinks := by
  have hm := misfit?_eq_none_iff.mpr hf
  rw [misfit?] at hm
  rw [check, hm]

theorem checkLinks_of_error {cause : Inconsistency} (h : slab.trail slab.capacity slab.head = .error cause) :
    slab.checkLinks = .error cause := by
  rw [checkLinks, h]

theorem checkLinks_of_unreached {is : List Nat} (h : slab.Chain slab.head is)
    (hl : is.length < slab.vacancies) : slab.checkLinks = .error (.unreached is.length slab.vacancies) := by
  have hle : is.length ≤ slab.capacity := Nat.le_trans (Nat.le_of_lt hl) slab.vacancies_le_capacity
  simp only [checkLinks, h.trail_eq_ok hle, Nat.ne_of_lt hl, if_false]

theorem links_of_count {is : List Nat} (h : slab.Walk slab.head is none)
    (hc : ∀ i next, slab.slots[i]? = some (.vacant next) → is.count i = 1) : slab.Links is := by
  refine ⟨h.chain, ?_⟩
  intro i next hi
  apply List.count_pos_iff.mp
  rw [hc i next hi]
  exact Nat.one_pos

theorem Finds.check_eq (h : slab.Finds verdict) : slab.check = verdict := by
  cases h with
  | misfit hr hs => exact check_of_misfit hr hs
  | outOfBounds hf hw hi =>
      rw [check_of_fits hf]
      apply checkLinks_of_error
      rw [hw.trail_capacity (stuck_of_capacity_le hi), trail_of_capacity_le hi]
      rfl
  | occupied hf hw hi =>
      rw [check_of_fits hf]
      apply checkLinks_of_error
      rw [hw.trail_capacity (stuck_of_get? hi), trail_of_get? hi]
      rfl
  | cycle hf he =>
      rw [check_of_fits hf]
      exact checkLinks_of_error (he.trail_eq slab.capacity)
  | unreached hf hw _ hl =>
      rw [check_of_fits hf]
      exact checkLinks_of_unreached hw.chain hl
  | accounted hf hw hc =>
      rw [check_of_fits hf]
      exact (links_of_count hw hc).checkLinks_eq

theorem exists_finds (slab : Slab Region) : ∃ verdict, slab.Finds verdict := by
  by_cases hf : ∀ j r, slab.get? j = some r → r.Fits
  · obtain ⟨is, rest, hw, hs⟩ | he := slab.walk_stuck_or_endless slab.head
    · obtain rfl | ⟨i, rfl, hi | ⟨r, hi⟩⟩ := hs.cases
      · have hd := hw.nodup_of_stuck stuck_none
        rcases Nat.lt_or_eq_of_le (hw.length_le hd) with hl | hl
        · exact ⟨_, .unreached hf hw hd hl⟩
        · refine ⟨_, .accounted hf hw ?_⟩
          intro i next hi
          exact hw.count_eq_one hd hl hi
      · exact ⟨_, .outOfBounds hf hw hi⟩
      · exact ⟨_, .occupied hf hw hi⟩
    · exact ⟨_, .cycle hf he⟩
  · simp only [not_forall, exists_prop] at hf
    obtain ⟨i, r, hr⟩ := exists_first_iff.mpr hf
    obtain ⟨s, hs⟩ := Region.exists_firstMisfit_iff.mpr hr.holds
    exact ⟨_, .misfit hr hs⟩

/-- Whatever a slab holds, the check comes to one verdict and it is the right one. -/
theorem check_finds_exactly (slab : Slab Region) :
    (∀ verdict, slab.check = verdict ↔ slab.Finds verdict) ∧
      (slab.Endless slab.head ↔ ∃ is rest, slab.Walk slab.head is rest ∧ ¬ is.Nodup) := by
  refine ⟨?_, endless_iff⟩
  intro verdict
  constructor
  · rintro rfl
    obtain ⟨verdict, h⟩ := slab.exists_finds
    rwa [h.check_eq]
  · exact Finds.check_eq

/-- Slot 1 leads back to itself, and slot 2 is never reached. -/
example : (⟨#[.vacant (some 1), .vacant (some 1), .vacant none], some 0⟩ : Slab Region).check =
    .error .cycle := rfl

end FaultRecovery.Slab
