import FaultRecovery.Registry.Request
import Mathlib.Logic.Function.Basic

namespace FaultRecovery

abbrev Directory := Handle → Option Region

structure Exchange where
  request : Request
  outcome : Except Failure Reply

def Request.observes : Request → Bool
  | .resolve _ | .audit | .capacity | .size | .isEmpty | .vacancies => true
  | .register _ | .release _ | .relocate _ _ | .region _ => false

namespace Exchange

def Places (e : Exchange) (handle : Handle) (r : Region) : Prop :=
  ∃ growth, e = ⟨.register r, .ok (.placement (.placed handle growth))⟩

def Releases (e : Exchange) (handle : Handle) : Prop := e = ⟨.release handle, .ok .done⟩

def base? (handle : Handle) : Exchange → Option Address
  | ⟨.relocate h base, .ok _⟩ => if h = handle then some base else none
  | _ => none

theorem Places.unique {e : Exchange} {handle : Handle} {r s : Region} (hr : e.Places handle r)
    (hs : e.Places handle s) : r = s := by
  obtain ⟨growth, rfl⟩ := hr
  obtain ⟨-, ⟨⟩⟩ := hs
  rfl

theorem base?_eq_some_iff {e : Exchange} {handle : Handle} {base : Address} :
    e.base? handle = some base ↔ ∃ reply, e = ⟨.relocate handle base, .ok reply⟩ := by
  constructor
  · intro hb
    cases e with
    | mk request outcome =>
        cases request with
        | relocate k base' =>
            cases outcome with
            | ok reply =>
                obtain ⟨rfl, ⟨⟩⟩ := Option.ite_none_right_eq_some.mp hb
                exact ⟨reply, rfl⟩
            | error failure => cases hb
        | register | release | region | resolve | audit | capacity | size | isEmpty | vacancies => cases hb
  · rintro ⟨reply, rfl⟩
    exact if_pos rfl

end Exchange

namespace Directory

/-- What an exchange does to a directory. A handle that is given out had nothing under it. -/
inductive Step (d : Directory) : Exchange → Directory → Prop where
  | placed {r : Region} {handle : Handle} {growth : Option Growth} (hv : handle.isValid = true)
      (hn : d handle = none) :
      Step d ⟨.register r, .ok (.placement (.placed handle growth))⟩ (Function.update d handle (some r))
  | turnedAway {r : Region} {outcome : Except Failure Reply}
      (ho : ∀ handle growth, outcome ≠ .ok (.placement (.placed handle growth))) :
      Step d ⟨.register r, outcome⟩ d
  | released {handle : Handle} {r : Region} (hs : d handle = some r) :
      Step d ⟨.release handle, .ok .done⟩ (Function.update d handle none)
  | strayed {handle : Handle} {outcome : Except Failure Reply} (hn : d handle = none) :
      Step d ⟨.release handle, outcome⟩ d
  | moved {handle : Handle} {base : Address} {r : Region} (hs : d handle = some r) :
      Step d ⟨.relocate handle base, .ok .done⟩ (Function.update d handle (some ⟨base, r.size, r.sites⟩))
  | stayed {handle : Handle} {base : Address} {failure : Failure} :
      Step d ⟨.relocate handle base, .error failure⟩ d
  | looked {handle : Handle} : Step d ⟨.region handle, .ok (.region (d handle))⟩ d
  | observed {request : Request} {outcome : Except Failure Reply} (ho : request.observes = true) :
      Step d ⟨request, outcome⟩ d

end Directory

/-- By the exchanges of the past, the last first, the region was put under the handle and was not given back
since. It is where it was last moved. -/
def Registered (past : List Exchange) (handle : Handle) (r : Region) : Prop :=
  ∃ since e before s, past = since ++ e :: before ∧ e.Places handle s ∧ (∀ x ∈ since, ¬ x.Releases handle) ∧
    r = ⟨(since.findSome? (Exchange.base? handle)).getD s.base, s.size, s.sites⟩

section

variable {past : List Exchange} {e : Exchange} {handle : Handle} {r : Region}

theorem not_registered_nil : ¬ Registered [] handle r := by
  rintro ⟨since, e, before, s, he, -⟩
  simp at he

theorem registered_cons_iff :
    Registered (e :: past) handle r ↔ e.Places handle r ∨
      (¬ e.Releases handle ∧ ∃ s, Registered past handle s ∧
        r = ⟨(e.base? handle).getD s.base, s.size, s.sites⟩) := by
  constructor
  · rintro ⟨since, x, before, s, he, hx, hn, rfl⟩
    cases since with
    | nil =>
        obtain ⟨rfl, rfl⟩ := List.cons.inj he
        exact .inl hx
    | cons y since =>
        obtain ⟨rfl, rfl⟩ := List.cons.inj he
        obtain ⟨hy, hn⟩ := List.forall_mem_cons.mp hn
        refine .inr ⟨hy, _, ⟨since, x, before, s, rfl, hx, hn, rfl⟩, ?_⟩
        rw [List.findSome?_cons]
        cases e.base? handle <;> rfl
  · rintro (hp | ⟨hr, s, ⟨since, x, before, t, rfl, hx, hn, rfl⟩, rfl⟩)
    · exact ⟨[], e, past, r, rfl, hp, by simp, rfl⟩
    · refine ⟨e :: since, x, before, t, rfl, hx, List.forall_mem_cons.mpr ⟨hr, hn⟩, ?_⟩
      rw [List.findSome?_cons]
      cases e.base? handle <;> rfl

end

namespace Directory.Step

variable {d d' : Directory} {e : Exchange} {k : Handle}

theorem of_places (h : d.Step e d') {r : Region} (hp : e.Places k r) : d k = none ∧ d' k = some r := by
  obtain ⟨growth, rfl⟩ := hp
  cases h with
  | placed hv hn => exact ⟨hn, Function.update_self ..⟩
  | turnedAway ho => exact absurd rfl (ho k growth)
  | observed ho => exact Bool.noConfusion ho

theorem of_releases (h : d.Step e d') (hr : e.Releases k) : d' k = none := by
  obtain rfl := hr
  cases h with
  | released hs => exact Function.update_self ..
  | strayed hn => exact hn
  | observed ho => exact Bool.noConfusion ho

theorem of_base? (h : d.Step e d') {base : Address} (hb : e.base? k = some base) :
    ∃ r, d k = some r ∧ d' k = some ⟨base, r.size, r.sites⟩ := by
  obtain ⟨reply, rfl⟩ := Exchange.base?_eq_some_iff.mp hb
  cases h with
  | moved hs => exact ⟨_, hs, Function.update_self ..⟩
  | observed ho => exact Bool.noConfusion ho

theorem of_idle (h : d.Step e d') (hp : ∀ r, ¬ e.Places k r) (hr : ¬ e.Releases k)
    (hb : e.base? k = none) : d' k = d k := by
  cases h with
  | @placed r handle growth hv hn =>
      apply Function.update_of_ne
      rintro rfl
      exact hp r ⟨growth, rfl⟩
  | released hs =>
      apply Function.update_of_ne
      rintro rfl
      exact hr rfl
  | @moved handle base r hs =>
      apply Function.update_of_ne
      rintro rfl
      rw [Exchange.base?_eq_some_iff.mpr ⟨.done, rfl⟩] at hb
      simp at hb
  | turnedAway | strayed | stayed | looked | observed => rfl

/-- Nothing is placed where something is, so of several placements the last one counts. -/
theorem registered_iff {past : List Exchange} (h : d.Step e d')
    (hd : ∀ handle r, d handle = some r ↔ Registered past handle r) (k : Handle) (r : Region) :
    d' k = some r ↔ Registered (e :: past) k r := by
  rw [registered_cons_iff]
  by_cases hp : ∃ s, e.Places k s
  · obtain ⟨s, hs⟩ := hp
    obtain ⟨hn, hs'⟩ := h.of_places hs
    rw [hs']
    constructor
    · rintro ⟨rfl⟩
      exact .inl hs
    · rintro (hr | ⟨-, t, ht, -⟩)
      · rw [hs.unique hr]
      · simp [(hd k t).mpr ht] at hn
  · have hp (s : Region) : ¬ e.Places k s := fun hs => hp ⟨s, hs⟩
    by_cases hr : e.Releases k
    · simp [h.of_releases hr, hp, hr]
    · simp only [hp, hr, false_or, not_false_eq_true, true_and, ← hd]
      cases hb : e.base? k with
      | none =>
          rw [h.of_idle hp hr hb]
          constructor
          · intro hs
            exact ⟨r, hs, rfl⟩
          · rintro ⟨s, hs, rfl⟩
            exact hs
      | some base =>
          obtain ⟨s, hs, hs'⟩ := h.of_base? hb
          rw [hs', hs]
          constructor
          · rintro ⟨rfl⟩
            exact ⟨s, rfl, rfl⟩
          · rintro ⟨t, ⟨rfl⟩, rfl⟩
            rfl

end Directory.Step

end FaultRecovery
