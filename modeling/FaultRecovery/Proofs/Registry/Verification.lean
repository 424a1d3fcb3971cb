import FaultRecovery.Proofs.Registry.Execution

namespace FaultRecovery

namespace Report

variable {β : Type}

def isRejected (report : Report β) : Bool :=
  match report.outcome with
  | .ok _ => false
  | .error failure =>
      match failure.cause with
      | .rejected _ => true
      | .fatal _ => false
      | .blocked => false

def observed (report : Report β) : Except Failure β × List Record × Metadata :=
  (report.outcome, report.records, report.registry.metadata)

def under (c : Config) (report : Report β) : Report β :=
  { report with registry := ⟨c, report.registry.metadata⟩ }

theorem survived_under (c : Config) (report : Report β) : (report.under c).survived = report.survived := rfl

theorem observed_under (c : Config) (report : Report β) : (report.under c).observed = report.observed := rfl

end Report

def Config.unverified (c : Config) : Config := { c with verify := false }

variable {c : Config} {slab : Slab Region}

theorem Room.unverified {room : Slab Region} {growth : Option Growth} (h : Room c slab room growth) :
    Room c.unverified slab room growth := by
  cases h with
  | spare hl => exact .spare hl
  | grown hl hn => exact .grown (c := c.unverified) hl hn

theorem Sound.unverified (h : Sound c slab) : Sound c.unverified slab where
  ceiling := h.ceiling
  linked := h.linked
  bounded := h.bounded
  fits hv := Bool.noConfusion hv
  apart hv := Bool.noConfusion hv

theorem Effect.unverified {request : Request} {report : Report Reply} (he : Effect c slab request report)
    (hx : report.isRejected = false) : Effect c.unverified slab request (report.under c.unverified) := by
  have hf {p : Prop} (hv : c.unverified.verify = true) : p := Bool.noConfusion hv
  cases he with
  | refused ha hl hn => exact .refused hf hl hn
  | placed ha hr hl ho => exact .placed hf hr.unverified hl ho
  | spared => exact .spared
  | released hi hr => exact .released hi hr
  | strayIgnored hv hs hn => exact .strayIgnored rfl hs hn
  | lost hn => exact .lost hn
  | moved hi hg ha => exact .moved hi hg hf
  | answered ha => exact .answered ha
  | collided | misfit | strayRejected | obstructed => cases hx

namespace Registry

theorem perform_unverified (h : Sound c slab) (request : Request)
    (hx : (perform ⟨c, .free slab⟩ request).isRejected = false) :
    perform ⟨c.unverified, .free slab⟩ request = (perform ⟨c, .free slab⟩ request).under c.unverified :=
  perform_of_effect ((perform_effect h request).unverified hx) h.unverified

theorem serve_unverified (h : Sound c slab) (requests : List Request)
    (hx : ∀ report ∈ serve ⟨c, .free slab⟩ requests, report.isRejected = false) :
    serve ⟨c.unverified, .free slab⟩ requests =
      (serve ⟨c, .free slab⟩ requests).map (Report.under c.unverified) := by
  induction requests generalizing slab with
  | nil => rfl
  | cons request requests ih =>
      obtain ⟨hr, hrs⟩ := List.forall_mem_cons.mp hx
      have he := perform_effect h request
      rw [serve, serve, perform_unverified h request hr, List.map_cons, Report.survived_under]
      congr 1
      by_cases hs : (perform ⟨c, .free slab⟩ request).survived = true
      · rw [if_pos hs] at hrs ⊢
        rw [if_pos hs]
        have hreg := he.registry_eq hs
        rw [hreg] at hrs ⊢
        rw [Report.under, hreg]
        exact ih (he.sound h) hrs
      · rw [if_neg hs, if_neg hs]
        rfl

/-- A registry with verification that rejects none of the requests and one without it answer alike, log alike
and end alike, with the same slab after every step. -/
theorem verification_only_observes (c : Config) (requests : List Request)
    (hx : ∀ report ∈ (new { c with verify := true }).serve requests, report.isRejected = false) :
    ((new { c with verify := false }).serve requests).map Report.observed =
      ((new { c with verify := true }).serve requests).map Report.observed := by
  have h := serve_unverified (.empty { c with verify := true }) requests hx
  change serve (new { c with verify := false }) requests = _ at h
  rw [h, List.map_map]
  exact List.map_congr_left fun report _ => report.observed_under _

theorem verification_only_observes_abort :
    ∃ requests, (∀ report ∈ (new ⟨true, 1, 2⟩).serve requests, report.isRejected = false) ∧
      ((new ⟨false, 1, 2⟩).serve requests).map Report.observed =
        ((new ⟨true, 1, 2⟩).serve requests).map Report.observed ∧
      ((new ⟨false, 1, 2⟩).serve requests).map Report.survived =
        [true, true, true, true, true, true, true, false] := by
  refine ⟨[.register ⟨0x1000, 0x20, [⟨0, 8⟩]⟩, .register ⟨0x2000, 0x20, []⟩, .register ⟨0x3000, 0x20, []⟩,
    .relocate ⟨1⟩ 0x1020, .release .sentinel, .release ⟨0⟩, .audit, .relocate ⟨0⟩ 0x4000, .capacity], ?hx,
    verification_only_observes ⟨true, 1, 2⟩ _ ?hx, ?_⟩
  · decide +kernel
  · decide +kernel

end Registry

end FaultRecovery
