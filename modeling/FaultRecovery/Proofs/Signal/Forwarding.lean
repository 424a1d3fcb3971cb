import FaultRecovery.Proofs.Signal.Host
import FaultRecovery.Signal.History

namespace FaultRecovery

variable {δ : Type}

/-- Nobody else puts the trap handler in place, and no removal is refused by the operating system. -/
def Occurrence.Orderly : Occurrence δ → Prop
  | .remove refusal => refusal = none
  | .setDisposition d => d.handler ≠ .trap
  | .install _ | .setDispatcher _ | .fault .. => True

namespace Host

variable {p : Host δ} {o : Occurrence δ} {os : List (Occurrence δ)}

/-- The trap handler is in place only while it counts as installed, and is not behind itself. -/
structure Settled (p : Host δ) : Prop where
  away : p.installed = false → p.disposition.handler ≠ .trap
  behind : p.installed = true → p.saved.handler ≠ .trap

theorem settled_new : ({} : Host δ).Settled := by
  constructor
  · intro _ hd
    cases hd
  · intro hi
    cases hi

namespace Settled

theorem install (h : p.Settled) (refusal : Option Errno) : (p.install refusal).2.1.Settled := by
  by_cases hd : (p.install refusal).1 = .done
  · obtain ⟨hi, rfl⟩ := install_eq_done_iff.mp hd
    rw [install_of_not_installed hi]
    exact ⟨fun hn => Bool.noConfusion hn, fun _ => h.away hi⟩
  · rw [install_of_ne_done hd]
    exact h

theorem remove (h : p.Settled) : (p.remove none).1.Settled := by
  cases hi : p.installed with
  | true =>
      rw [remove_of_installed hi]
      exact ⟨fun _ => h.behind hi, fun hn => Bool.noConfusion hn⟩
  | false =>
      rw [remove_of_not_installed hi]
      exact h

theorem setDispatcher (h : p.Settled) (which : δ) : (p.setDispatcher which).2.Settled := by
  rw [setDispatcher_eq]
  exact ⟨h.away, h.behind⟩

theorem setDisposition (h : p.Settled) {d : Disposition} (hd : d.handler ≠ .trap) : (p.setDisposition d).Settled :=
  ⟨fun _ => hd, h.behind⟩

theorem deliver (h : p.Settled) (respond : δ → Fault → Response) (refusal : Option Errno) (depth : Nat)
    (f : Fault) : (p.deliver respond refusal depth f).host.Settled := by
  have hk := p.deliver_kept respond refusal depth f
  constructor
  · rw [hk.installed]
    intro hi
    -- The trap handler is not in place then, so the fault runs none of it.
    rw [deliver_of_not_traps fun ht => h.away hi ht.2]
    exact h.away hi
  · rw [hk.installed, hk.saved]
    exact h.behind

theorem occur (h : p.Settled) (ho : o.Orderly) (depth : Nat) : (p.occur depth o).1.Settled := by
  cases o with
  | install refusal => exact h.install refusal
  | remove refusal =>
      obtain rfl : refusal = none := ho
      exact h.remove
  | setDispatcher which => exact h.setDispatcher which
  | setDisposition d => exact h.setDisposition ho
  | fault respond refusal f => exact h.deliver respond refusal depth f

theorem history (h : p.Settled) (ho : ∀ o ∈ os, o.Orderly) (depth : Nat) : (p.history depth os).1.Settled := by
  apply (throughout_of_forall ho depth p).keeps h
  intro q o hq hc
  exact hq.occur hc depth

end Settled

/-- Whatever came before, a fault that is not recovered goes to a foreign function, or what was no function is put
back. The trap handler then returns, and it has called itself at no depth. -/
theorem forwarded_once (depth : Nat) (ho : ∀ o ∈ os, o.Orderly)
    (hp : (({} : Host δ).history depth os).1 = p) :
    (p.installed = false → p.disposition.handler ≠ .trap) ∧ (p.installed = true → p.saved.handler ≠ .trap) ∧
      ∀ respond refusal f, p.disposition.Traps → f.signal = Fault.segv →
        (p.consult respond f).1.recovered = false →
        p.saved.handler ≠ .trap ∧ ∃ host calls, p.HandedOn refusal (p.left respond f) host calls ∧
          ∀ room, p.deliver respond refusal (room + 1) f =
            ⟨host, (p.left respond f).rip, (p.consult respond f).2 ++ calls, true⟩ := by
  subst hp
  have h := settled_new.history ho depth
  refine ⟨h.away, h.behind, ?_⟩
  intro respond refusal f hd hf hr
  have hs : (({} : Host δ).history depth os).1.saved.handler ≠ .trap := by
    cases hi : (({} : Host δ).history depth os).1.installed with
    | false => exact absurd hd.2 (h.away hi)
    | true => exact h.behind hi
  obtain ⟨host, calls, hh⟩ := exists_handedOn (fun ht => hs ht.2) refusal (left _ respond f)
  refine ⟨hs, host, calls, hh, ?_⟩
  intro room
  rw [deliver_of_traps hd]
  exact trap_of_handedOn hf hr hh

/-- The trap handler is installed, removed and installed again, with an attempt too many and a refused one, and
behind it comes what others had put in place in between. -/
theorem forwarded_once_after_reinstallation :
    ∃ (os : List (Occurrence Bool)) (p : Host Bool), (∀ o ∈ os, o.Orderly) ∧
      (({} : Host Bool).history 1 os).1 = p ∧ p.disposition = .trap ∧
      ∀ room, p.deliver (fun _ f => f.decline) none (room + 1) ⟨11, 0, 5⟩ =
        ⟨p, 5, [.dispatcher true ⟨11, 0, 5⟩ ⟨false, 5⟩, .siginfo 0x80 ⟨11, 0, 5⟩], true⟩ := by
  have ho : ∀ o ∈ ([.setDisposition (.plain 0x40), .install none, .install none,
      .fault (fun _ f => f.decline) none ⟨11, 0, 3⟩, .remove none, .setDispatcher true,
      .setDisposition (.siginfo 0x80), .install (some ⟨22⟩), .install none] : List (Occurrence Bool)), o.Orderly := by
    simp [Occurrence.Orderly, Disposition.plain, Disposition.siginfo]
  obtain ⟨-, -, hf⟩ := forwarded_once 1 ho rfl
  obtain ⟨-, host, calls, hh, hr⟩ := hf (fun _ f => f.decline) none ⟨11, 0, 5⟩ Disposition.traps_trap rfl rfl
  refine ⟨_, _, ho, rfl, rfl, ?_⟩
  cases hh with
  | siginfo _ hs =>
      obtain rfl := Handler.foreign.inj hs
      exact hr
  | plain hi => exact Bool.noConfusion hi
  | restored hs => exact Bool.noConfusion hs.1

end Host

end FaultRecovery
