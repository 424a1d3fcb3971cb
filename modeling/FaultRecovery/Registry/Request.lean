import FaultRecovery.Registry.Basic

namespace FaultRecovery

inductive Request where
  | register (region : Region)
  | release (handle : Handle)
  | relocate (handle : Handle) (base : Address)
  | region (handle : Handle)
  | resolve (pc : Address)
  | audit
  | capacity
  | size
  | isEmpty
  | vacancies
deriving DecidableEq, Repr

inductive Reply where
  | done
  | placement (placement : Placement)
  | region (region : Option Region)
  | lookup (lookup : Lookup)
  | verdict (cause : Option Inconsistency)
  | count (n : Nat)
  | flag (b : Bool)
deriving DecidableEq, Repr

/-- What came of an action: its answer or why it stopped, the records in their order, and the registry then. -/
structure Report (β : Type) where
  outcome : Except Failure β
  records : List Record
  registry : Registry

namespace Report

variable {β : Type}

/-- A process outlives all but a fatal cause and a lock that never becomes free. -/
def survived (report : Report β) : Bool :=
  match report.outcome with
  | .ok _ => true
  | .error failure =>
      match failure.cause with
      | .rejected _ => true
      | .fatal _ => false
      | .blocked => false

end Report

namespace Registry

def run {β : Type} (registry : Registry) (action : Action β) : Report β :=
  match action ⟨registry.metadata, []⟩ with
  | .ok b s => ⟨.ok b, s.records, { registry with metadata := s.metadata }⟩
  | .error failure s => ⟨.error failure, s.records, { registry with metadata := s.metadata }⟩

def action (c : Config) : Request → Action Reply
  | .register r => .placement <$> register c r
  | .release h => (fun _ => .done) <$> release c h
  | .relocate h base => (fun _ => .done) <$> relocate c h base
  | .region h => .region <$> region? h
  | .resolve pc => .lookup <$> resolve pc
  | .audit => (fun | .ok () => .verdict none | .error cause => .verdict (some cause)) <$> audit
  | .capacity => .count <$> capacity
  | .size => .count <$> size
  | .isEmpty => .flag <$> isEmpty
  | .vacancies => .count <$> vacancies

def perform (registry : Registry) (request : Request) : Report Reply :=
  registry.run (action registry.config request)

def registerAll (c : Config) : List Region → Action (List Placement)
  | [] => return []
  | r :: rs => do
      let placement ← register c r
      let placements ← registerAll c rs
      return placement :: placements

def releaseAll (c : Config) : List Handle → Action Unit
  | [] => return ()
  | h :: hs => do
      release c h
      releaseAll c hs

end Registry

end FaultRecovery
