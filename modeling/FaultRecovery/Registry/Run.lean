import FaultRecovery.Registry.Request

namespace FaultRecovery.Registry

/-- The registries that requests can lead to, from a new one of the configuration `c`. -/
inductive Reachable (c : Config) : Registry → Prop where
  | new : Reachable c (Registry.new c)
  | perform {registry : Registry} (h : Reachable c registry) (request : Request)
      (hs : (registry.perform request).survived = true) : Reachable c (registry.perform request).registry

/-- The reports on requests that are served in turn, up to the first that the process does not outlive. -/
def serve (registry : Registry) : List Request → List (Report Reply)
  | [] => []
  | request :: requests =>
      let report := registry.perform request
      report :: if report.survived then serve report.registry requests else []

def performAll (registry : Registry) (requests : List Request) : Registry :=
  requests.foldl (fun registry request => (registry.perform request).registry) registry

variable {c : Config} {registry : Registry}

theorem survived_cons {request : Request} {requests : List Request}
    (hs : (registry.serve (request :: requests)).all Report.survived = true) :
    (registry.perform request).survived = true ∧
      ((registry.perform request).registry.serve requests).all Report.survived = true := by
  rw [serve, List.all_cons] at hs
  obtain ⟨hr, hs⟩ := Bool.and_eq_true_iff.mp hs
  rw [if_pos hr] at hs
  exact ⟨hr, hs⟩

theorem Reachable.performAll (h : Reachable c registry)
    (requests : List Request) (hs : (registry.serve requests).all Report.survived = true) :
    Reachable c (registry.performAll requests) := by
  induction requests generalizing registry with
  | nil => exact h
  | cons request requests ih =>
      obtain ⟨hr, hs⟩ := survived_cons hs
      exact ih (h.perform request hr) hs

end FaultRecovery.Registry
