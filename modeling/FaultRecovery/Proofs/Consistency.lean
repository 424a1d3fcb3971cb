import FaultRecovery.Proofs.Slab.Entries
import FaultRecovery.Proofs.Slab.Vacancies

namespace FaultRecovery

namespace Region

def Fits (r : Region) : Prop := ∀ s ∈ r.sites, s.fits r.size = true

def FirstMisfit (r : Region) (s : Site) : Prop :=
  ∃ before after, r.sites = before ++ s :: after ∧ s.fits r.size = false ∧
    ∀ t ∈ before, t.fits r.size = true

theorem Fits.movedTo {r : Region} (h : r.Fits) (base : Address) : (r.movedTo base).Fits := h

theorem misfit?_eq_none_iff {r : Region} : r.misfit? = none ↔ r.Fits := by
  simp [misfit?, Fits]

theorem misfit?_eq_some_iff {r : Region} {s : Site} : r.misfit? = some s ↔ r.FirstMisfit s := by
  rw [misfit?, List.find?_eq_some_iff_append, FirstMisfit]
  constructor
  · rintro ⟨hs, before, after, he, hb⟩
    exact ⟨before, after, he, by simpa using hs, fun t ht => by simpa using hb t ht⟩
  · rintro ⟨before, after, he, hs, hb⟩
    exact ⟨by simpa using hs, before, after, he, fun t ht => by simpa using hb t ht⟩

theorem exists_firstMisfit_iff {r : Region} : (∃ s, r.FirstMisfit s) ↔ ¬ r.Fits := by
  rw [← misfit?_eq_none_iff, ← ne_eq, Option.ne_none_iff_exists']
  simp only [misfit?_eq_some_iff]

theorem FirstMisfit.not_fits {r : Region} {s : Site} (h : r.FirstMisfit s) : ¬ r.Fits :=
  exists_firstMisfit_iff.mp ⟨s, h⟩

theorem FirstMisfit.unique {r : Region} {s t : Site} (hs : r.FirstMisfit s) (ht : r.FirstMisfit t) : s = t :=
  Option.some.inj ((misfit?_eq_some_iff.mpr hs).symm.trans (misfit?_eq_some_iff.mpr ht))

theorem checkSites_eq_ok_iff {r : Region} : r.checkSites = .ok () ↔ r.Fits := by
  rw [← misfit?_eq_none_iff, checkSites]
  cases r.misfit? <;> simp

theorem checkSites_eq_error {r : Region} {s : Site} (h : r.FirstMisfit s) :
    r.checkSites = .error (.misfit r.span s) := by
  rw [checkSites, misfit?_eq_some_iff.mpr h]

end Region

namespace Slab

theorem findSome?_entries_eq_some_iff {α β : Type} {slab : Slab α} {f : α → Option β} {b : β} :
    slab.entries.findSome? f = some b ↔
      ∃ i a, slab.First (fun _ a => (f a).isSome = true) i a ∧ f a = some b := by
  have hf : slab.entries.findSome? f = some b ↔
      ∃ a, slab.entries.find? (fun a => (f a).isSome) = some a ∧ f a = some b := by
    simp only [List.findSome?_eq_some_iff, List.find?_eq_some_iff_append]
    constructor
    · rintro ⟨before, a, after, he, ha, hb⟩
      exact ⟨a, ⟨by simp [ha], before, after, he, fun x hx => by simp [hb x hx]⟩, ha⟩
    · rintro ⟨a, ⟨-, before, after, he, hb⟩, ha⟩
      exact ⟨before, a, after, he, ha, fun x hx => by simpa using hb x hx⟩
  simp only [hf, find?_entries_eq_some_iff]
  constructor
  · rintro ⟨a, ⟨i, hi⟩, ha⟩
    exact ⟨i, a, hi, ha⟩
  · rintro ⟨i, a, hi, ha⟩
    exact ⟨a, ⟨i, hi⟩, ha⟩

theorem checkDisjoint_eq_ok_iff {slab : Slab Region} {new : Region} :
    slab.checkDisjoint new = .ok () ↔ ∀ i e, slab.get? i = some e → e.overlaps new = false := by
  rw [← find?_entries_eq_none_iff, checkDisjoint]
  cases slab.entries.find? fun e => e.overlaps new <;> simp

theorem checkDisjoint_eq_error {slab : Slab Region} {new e : Region} {i : Nat}
    (h : slab.First (fun _ e => e.overlaps new = true) i e) :
    slab.checkDisjoint new = .error (.overlap new.span e.span) := by
  rw [checkDisjoint, find?_entries_eq_some_iff.mpr ⟨i, h⟩]

theorem checkRelocation_of_get? {slab : Slab Region} {i : Nat} {base : Address} {r : Region}
    (h : slab.get? i = some r) :
    slab.checkRelocation i base = match (slab.others i).find? fun e => (r.movedTo base).overlaps e with
      | some e => .error (.overlap (r.movedTo base).span e.span)
      | none => .ok () := by
  rw [checkRelocation, h]
  rfl

theorem checkRelocation_eq_ok_iff {slab : Slab Region} {i : Nat} {base : Address} {r : Region}
    (h : slab.get? i = some r) :
    slab.checkRelocation i base = .ok () ↔
      ∀ j e, j ≠ i → slab.get? j = some e → (r.movedTo base).overlaps e = false := by
  rw [← find?_others_eq_none_iff, checkRelocation_of_get? h]
  cases (slab.others i).find? fun e => (r.movedTo base).overlaps e <;> simp

theorem checkRelocation_eq_error {slab : Slab Region} {i j : Nat} {base : Address} {r e : Region}
    (h : slab.get? i = some r)
    (he : slab.First (fun k e => k ≠ i ∧ (r.movedTo base).overlaps e = true) j e) :
    slab.checkRelocation i base = .error (.overlap (r.movedTo base).span e.span) := by
  rw [checkRelocation_of_get? h, find?_others_eq_some_iff.mpr ⟨j, he⟩]

def misfit? (slab : Slab Region) : Option Inconsistency :=
  slab.entries.findSome? fun r => r.misfit?.map (.misfit r.span)

theorem misfit?_eq_none_iff {slab : Slab Region} :
    slab.misfit? = none ↔ ∀ i r, slab.get? i = some r → r.Fits := by
  simp only [misfit?, List.findSome?_eq_none_iff, mem_entries_iff, Option.map_eq_none_iff,
    Region.misfit?_eq_none_iff]
  constructor
  · intro h i r hi
    exact h r ⟨i, hi⟩
  · rintro h r ⟨i, hi⟩
    exact h i r hi

theorem misfit?_eq_some_iff {slab : Slab Region} {cause : Inconsistency} :
    slab.misfit? = some cause ↔
      ∃ i r s, slab.First (fun _ r => ¬ r.Fits) i r ∧ r.FirstMisfit s ∧
        cause = .misfit ⟨r.base, r.base.addClamped r.size⟩ s := by
  simp only [misfit?, findSome?_entries_eq_some_iff, Option.isSome_map, Option.map_eq_some_iff,
    Region.misfit?_eq_some_iff, Option.isSome_iff_exists, Region.exists_firstMisfit_iff]
  apply exists_congr
  intro i
  apply exists_congr
  intro r
  simp only [exists_and_left, eq_comm, Region.span]

theorem check_of_links {slab : Slab Region} {is : List Nat} (hl : slab.Links is) :
    slab.check = match slab.misfit? with
      | some cause => .error cause
      | none => .ok () := by
  rw [check, hl.checkLinks_eq]
  rfl

theorem check_eq_ok_iff {slab : Slab Region} {is : List Nat} (hl : slab.Links is) :
    slab.check = .ok () ↔ ∀ i r, slab.get? i = some r → r.Fits := by
  rw [← misfit?_eq_none_iff, check_of_links hl]
  cases slab.misfit? <;> simp

end Slab

end FaultRecovery
