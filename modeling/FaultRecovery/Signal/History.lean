import FaultRecovery.Signal.Host

namespace FaultRecovery

variable {δ : Type}

inductive Occurrence (δ : Type) where
  | install (refusal : Option Errno)
  | remove (refusal : Option Errno)
  | setDispatcher (which : δ)
  | setDisposition (d : Disposition)
  /-- A fault, with what dispatchers would answer to it at that time. -/
  | fault (respond : δ → Fault → Response) (refusal : Option Errno) (f : Fault)

namespace Host

def occur (depth : Nat) (p : Host δ) : Occurrence δ → Host δ × List (Call δ)
  | .install refusal => ((p.install refusal).2.1, [])
  | .remove refusal => ((p.remove refusal).1, [])
  | .setDispatcher which => ((p.setDispatcher which).2, [])
  | .setDisposition d => (p.setDisposition d, [])
  | .fault respond refusal f =>
      let delivery := p.deliver respond refusal depth f
      (delivery.host, delivery.calls)

def history (depth : Nat) (p : Host δ) : List (Occurrence δ) → Host δ × List (Call δ)
  | [] => (p, [])
  | o :: os =>
      let (next, calls) := p.occur depth o
      let (last, rest) := next.history depth os
      (last, calls ++ rest)

def Throughout (holds : Host δ → Occurrence δ → Prop) (depth : Nat) (p : Host δ) : List (Occurrence δ) → Prop
  | [] => True
  | o :: os => holds p o ∧ (p.occur depth o).1.Throughout holds depth os

theorem history_append (depth : Nat) (p : Host δ) (os rest : List (Occurrence δ)) :
    (p.history depth (os ++ rest)).1 = ((p.history depth os).1.history depth rest).1 := by
  induction os generalizing p with
  | nil => rfl
  | cons o os ih => exact ih (p.occur depth o).1

variable {p : Host δ} {depth : Nat} {os : List (Occurrence δ)}

theorem throughout_of_forall {holds : Occurrence δ → Prop} (h : ∀ o ∈ os, holds o) (depth : Nat) (p : Host δ) :
    p.Throughout (fun _ o => holds o) depth os := by
  induction os generalizing p with
  | nil => trivial
  | cons o os ih => exact ⟨h o List.mem_cons_self, ih (fun i hi => h i (List.mem_cons_of_mem o hi)) _⟩

theorem Throughout.keeps {holds : Host δ → Occurrence δ → Prop} {P : Host δ → Prop}
    (h : p.Throughout holds depth os) (hp : P p)
    (hs : ∀ q o, P q → holds q o → P (q.occur depth o).1) : P (p.history depth os).1 := by
  induction os generalizing p with
  | nil => exact hp
  | cons o os ih => exact ih h.2 (hs p o hp h.1)

end Host

end FaultRecovery
