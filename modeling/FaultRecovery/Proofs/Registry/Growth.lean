import FaultRecovery.Proofs.Allocator
import FaultRecovery.Proofs.Registry.Audit
import Mathlib.Order.Bounds.Basic
import Mathlib.Order.Monotone.Basic

namespace FaultRecovery

namespace Config

def ceiling (c : Config) : Nat := min c.maxCapacity.toNat Handle.maxCapacity

def stage (c : Config) : Nat → Nat
  | 0 => 0
  | k + 1 => c.target (c.stage k)

def Suits (c : Config) (p n : Nat) : Prop := IsLeast {m | m ∈ Set.range c.stage ∧ p ≤ m} n

variable {c : Config} {n p q : Nat}

theorem target_le_ceiling (c : Config) (n : Nat) : c.target n ≤ c.ceiling := Nat.min_le_right _ _

theorem le_target (h : n ≤ c.ceiling) : n ≤ c.target n := by
  refine Nat.le_min_of_le_of_le ?_ h
  omega

/-- Growth does not stall: zero is less than the initial capacity, and other numbers than their doubles. -/
theorem lt_target (h : n < c.ceiling) : n < c.target n := by
  refine Nat.lt_min.mpr ⟨?_, h⟩
  omega

theorem stage_le_ceiling (c : Config) (k : Nat) : c.stage k ≤ c.ceiling := by
  cases k with
  | zero => exact Nat.zero_le _
  | succ k => exact c.target_le_ceiling _

theorem stage_mono (c : Config) : Monotone c.stage :=
  monotone_nat_of_le_succ fun k => le_target (c.stage_le_ceiling k)

theorem two_mul_lt_size (h : n ≤ c.ceiling) : 2 * n < UInt64.size := by
  have hm : c.ceiling ≤ Handle.maxCapacity := Nat.min_le_right _ _
  have hs : 2 * Handle.maxCapacity < UInt64.size := by decide
  omega

namespace Suits

theorem zero (c : Config) : c.Suits 0 0 := ⟨⟨⟨0, rfl⟩, Nat.le_refl 0⟩, fun _ _ => Nat.zero_le _⟩

theorem mono (h : c.Suits p n) (hp : p ≤ q) (hq : q ≤ n) : c.Suits q n := by
  refine ⟨⟨h.1.1, hq⟩, ?_⟩
  rintro m ⟨hm, hqm⟩
  exact h.2 ⟨hm, Nat.le_trans hp hqm⟩

theorem target (h : c.Suits p n) (hn : n < q) (hq : q ≤ c.target n) : c.Suits q (c.target n) := by
  obtain ⟨⟨⟨k, rfl⟩, -⟩, -⟩ := h
  refine ⟨⟨⟨k + 1, rfl⟩, hq⟩, ?_⟩
  rintro m ⟨⟨j, rfl⟩, hj⟩
  -- A stage that has room for `q` comes after stage `k`, which has not.
  have hkj : k < j := c.stage_mono.reflect_lt (Nat.lt_of_lt_of_le hn hj)
  exact c.stage_mono hkj

end Suits

end Config

variable {c : Config} {slab : Slab Region}

theorem Effect.capacity_cases {request : Request} {report : Report Reply}
    (he : Effect c.clamped slab request report) :
    report.registry.metadata.value.capacity = slab.capacity ∨
      slab.capacity < c.target slab.capacity ∧
        report.registry.metadata.value.capacity = c.target slab.capacity ∧
        report.registry.metadata.value.entries.length = slab.capacity + 1 := by
  cases he with
  | @placed r room growth i is handle ha hr hl ho =>
      cases hr with
      | spare _ => exact .inl (slab.capacity_insert i r)
      | grown hn hlt =>
          have hcap := Slab.capacity_extend (Nat.le_of_lt hlt)
          refine .inr ⟨c.nextCapacity_clamped _ ▸ hlt, ?_, ?_⟩
          · exact (Slab.capacity_insert ..).trans (hcap.trans (c.nextCapacity_clamped _))
          · refine (hl.length_entries_insert r).trans ?_
            rw [hn.length_entries_extend hlt, ← hn.length_entries]
            rfl
  | released hi hr => exact .inl (Slab.capacity_of_vacate? hr)
  | moved hi hg ha => exact .inl (slab.capacity_put ..)
  | collided | misfit | refused | spared | strayIgnored | strayRejected | lost | obstructed | answered =>
      exact .inl rfl

namespace Registry

def population (registry : Registry) : Nat := registry.metadata.value.entries.length

def peak (registry : Registry) : List Request → Nat
  | [] => registry.population
  | request :: requests => max registry.population (peak (registry.perform request).registry requests)

variable {registry : Registry}

theorem population_le_peak (registry : Registry) (requests : List Request) :
    registry.population ≤ registry.peak requests := by
  cases requests with
  | nil => exact Nat.le_refl _
  | cons request requests => exact Nat.le_max_left _ _

theorem isGreatest_peak (registry : Registry) (requests : List Request) :
    IsGreatest (Set.range fun k => (registry.performAll (requests.take k)).population) (registry.peak requests) := by
  induction requests generalizing registry with
  | nil =>
      refine ⟨⟨0, rfl⟩, ?_⟩
      rintro _ ⟨k, rfl⟩
      exact Nat.le_of_eq (congrArg (fun l => (registry.performAll l).population) List.take_nil)
  | cons request requests ih =>
      obtain ⟨⟨k, hk⟩, hle⟩ := ih (registry.perform request).registry
      constructor
      · obtain hm | hm := Nat.le_total (peak (registry.perform request).registry requests) registry.population
        · exact ⟨0, (Nat.max_eq_left hm).symm⟩
        · exact ⟨k + 1, hk.trans (Nat.max_eq_right hm).symm⟩
      · rintro _ ⟨j, rfl⟩
        cases j with
        | zero => exact Nat.le_max_left _ _
        | succ j => exact Nat.le_trans (hle ⟨j, rfl⟩) (Nat.le_max_right _ _)

theorem population_le_capacity (registry : Registry) : registry.population ≤ registry.metadata.value.capacity := by
  rw [← registry.metadata.value.length_entries_add_vacancies]
  exact Nat.le_add_right _ _

theorem Reachable.suits_perform (h : Reachable c registry) {p : Nat}
    (hp : c.Suits p registry.metadata.value.capacity) (request : Request) :
    c.Suits (max p (registry.perform request).registry.population)
      (registry.perform request).registry.metadata.value.capacity := by
  have hpop := population_le_capacity (registry.perform request).registry
  obtain hc | ⟨hlt, hc, hn⟩ := (h.effect request).capacity_cases
  · rw [hc] at hpop ⊢
    exact hp.mono (Nat.le_max_left _ _) (Nat.max_le.mpr ⟨hp.1.2, hpop⟩)
  · rw [hc] at hpop ⊢
    -- The slab was full, so that the new region makes one more than there were slots.
    have hpop' : (registry.perform request).registry.population = registry.metadata.value.capacity + 1 := hn
    have hle := hp.1.2
    apply hp.target
    · omega
    · omega

theorem Reachable.suits_performAll (h : Reachable c registry) {p : Nat} (hpop : registry.population ≤ p)
    (hp : c.Suits p registry.metadata.value.capacity) (requests : List Request)
    (hs : (registry.serve requests).all Report.survived = true) :
    c.Suits (max p (registry.peak requests)) (registry.performAll requests).metadata.value.capacity := by
  induction requests generalizing registry p with
  | nil =>
      rw [peak, Nat.max_eq_left hpop]
      exact hp
  | cons request requests ih =>
      obtain ⟨hr, hs⟩ := survived_cons hs
      have hnext := ih (h.perform request hr) (Nat.le_max_right _ _) (h.suits_perform hp request) hs
      have hle := population_le_peak (registry.perform request).registry requests
      have hmax : max p (registry.peak (request :: requests)) =
          max (max p (registry.perform request).registry.population)
            ((registry.perform request).registry.peak requests) := by
        rw [peak]
        omega
      rw [hmax]
      exact hnext

theorem Reachable.register_cases (h : Reachable c registry) (r : Region) :
    (c.verify = true ∧ ∃ cause seen,
        (registry.perform (.register r)).outcome = .error ⟨.rejected (.inconsistent cause), seen⟩) ∨
      (registry.population = c.ceiling ∧
        (registry.perform (.register r)).outcome = .ok (.placement (.refused c.ceiling))) ∨
      (registry.population < c.ceiling ∧ ∃ handle growth,
        (registry.perform (.register r)).outcome = .ok (.placement (.placed handle growth))) := by
  have hle : registry.metadata.value.capacity ≤ c.ceiling := h.capacity_le
  have he := h.effect (.register r)
  generalize registry.perform (.register r) = report at he
  cases he with
  | collided hv he => exact .inl ⟨hv, _, _, rfl⟩
  | misfit hv ha hs => exact .inl ⟨hv, _, _, rfl⟩
  | refused ha hl hn =>
      have hpop : registry.population = registry.metadata.value.capacity := hl.length_entries
      have hc : registry.metadata.value.capacity = c.ceiling := by
        rw [c.nextCapacity_clamped] at hn
        exact Nat.le_antisymm hle (Nat.le_of_not_lt fun hlt => Nat.not_lt_of_le hn (Config.lt_target hlt))
      exact .inr (.inl ⟨hpop.trans hc, by rw [hc]; rfl⟩)
  | placed ha hr hl ho =>
      refine .inr (.inr ⟨?_, _, _, rfl⟩)
      rw [population]
      cases hr with
      | spare _ =>
          have hlen := hl.length_entries
          rw [List.length_cons] at hlen
          omega
      | grown hn hlt =>
          rw [c.nextCapacity_clamped] at hlt
          have hlen : registry.population = registry.metadata.value.capacity := hn.length_entries
          rw [population] at hlen
          have hceil := c.target_le_ceiling registry.metadata.value.capacity
          omega
  | answered ha => cases ha

theorem suits_peak {requests : List Request} (hs : ((new c).serve requests).all Report.survived = true) :
    c.Suits ((new c).peak requests) ((new c).performAll requests).metadata.value.capacity := by
  have h := Reachable.new.suits_performAll (p := 0) (Nat.le_refl 0) (.zero c) requests hs
  rwa [Nat.zero_max] at h

/-- The capacity after `requests` is the first stage with room for the most regions that were ever live at once,
whatever led to them, and slots run out only at the ceiling. -/
structure Follows (c : Config) (requests : List Request) (registry : Registry) : Prop where
  least : IsLeast {m | m ∈ Set.range c.stage ∧ (new c).peak requests ≤ m} registry.metadata.value.capacity
  capacity : (registry.perform .capacity).outcome = .ok (.count registry.metadata.value.capacity)
  size : (registry.perform .size).outcome = .ok (.count registry.population)
  grows : ∀ request, registry.metadata.value.capacity ≤ (registry.perform request).registry.metadata.value.capacity
  unique : ∀ requests', ((new c).serve requests').all Report.survived = true →
    (new c).peak requests' = (new c).peak requests →
      ((new c).performAll requests').metadata.value.capacity = registry.metadata.value.capacity
  register : ∀ r, (c.verify = true ∧ ∃ cause seen,
      (registry.perform (.register r)).outcome = .error ⟨.rejected (.inconsistent cause), seen⟩) ∨
    (registry.population = c.ceiling ∧
      (registry.perform (.register r)).outcome = .ok (.placement (.refused c.ceiling))) ∨
    (registry.population < c.ceiling ∧ ∃ handle growth,
      (registry.perform (.register r)).outcome = .ok (.placement (.placed handle growth)))

/-- A registry grows with its peak. Below the ceiling the next capacity is always larger, and no word overflows on
the way to it. -/
theorem capacity_follows_peak {requests : List Request} (hs : ((new c).serve requests).all Report.survived = true)
    (hr : (new c).performAll requests = registry) :
    registry.Follows c requests ∧
      ∀ n, n ≤ c.ceiling → 2 * n < UInt64.size ∧ c.clamped.nextCapacity n = c.target n ∧
        c.target n ≤ c.ceiling ∧ (n < c.ceiling → n < c.target n) := by
  have h : Reachable c registry := hr ▸ Reachable.new.performAll requests hs
  have hp := suits_peak hs
  subst hr
  constructor
  · constructor
    case least => exact hp
    case capacity => exact h.outcome_eq rfl
    case size =>
      rw [population, ← Slab.size_eq_length_entries]
      exact h.outcome_eq rfl
    case grows =>
      intro request
      obtain hc | ⟨hlt, hc, -⟩ := (h.effect request).capacity_cases
      · exact Nat.le_of_eq hc.symm
      · rw [hc]
        exact Nat.le_of_lt hlt
    case unique =>
      intro requests' hs' he
      have hp' := suits_peak hs'
      rw [he] at hp'
      exact hp'.unique hp
    case register => exact h.register_cases
  · intro n hn
    exact ⟨Config.two_mul_lt_size hn, c.nextCapacity_clamped n, c.target_le_ceiling n, Config.lt_target⟩

theorem capacity_follows_peak_of_four :
    ∃ requests registry, ((new ⟨false, 3, 7⟩).serve requests).all Report.survived = true ∧
      (new ⟨false, 3, 7⟩).performAll requests = registry ∧ registry.population = 2 ∧
      (registry.perform .capacity).outcome = .ok (.count 6) ∧
      IsLeast {m | m ∈ Set.range (Config.stage ⟨false, 3, 7⟩) ∧ 4 ≤ m} 6 := by
  obtain ⟨requests, hreq⟩ : ∃ requests : List Request, requests = [.register ⟨0x1000, 0x10, []⟩,
    .register ⟨0x1000, 0x10, [⟨8, 4⟩]⟩, .release ⟨0⟩, .release ⟨5⟩, .register ⟨0x2000, 0x10, []⟩,
    .register ⟨0x3000, 0x10, []⟩, .register ⟨0, 0, []⟩, .relocate ⟨3⟩ 0x1000, .release ⟨1⟩, .release ⟨0⟩] :=
    ⟨_, rfl⟩
  have hs : ((new ⟨false, 3, 7⟩).serve requests).all Report.survived = true := by subst hreq; decide +kernel
  have hpeak : (new ⟨false, 3, 7⟩).peak requests = 4 := by subst hreq; decide +kernel
  have hcap : ((new ⟨false, 3, 7⟩).performAll requests).metadata.value.capacity = 6 := by
    subst hreq; decide +kernel
  have hpop : ((new ⟨false, 3, 7⟩).performAll requests).population = 2 := by subst hreq; decide +kernel
  obtain ⟨hf, -⟩ := capacity_follows_peak hs rfl
  have hc := hf.capacity
  have hl := hf.least
  rw [hcap] at hc
  rw [hpeak, hcap] at hl
  exact ⟨requests, _, hs, rfl, hpop, hc, hl⟩

end Registry

end FaultRecovery
