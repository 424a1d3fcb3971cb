import FaultRecovery.Proofs.Signal.Host
import FaultRecovery.Signal.History

namespace FaultRecovery

variable {δ : Type}

def Occurrence.removes : Occurrence δ → Bool
  | .remove _ => true
  | .install _ | .setDispatcher _ | .setDisposition _ | .fault .. => false

namespace Host

variable {p q : Host δ} {d : Disposition} {respond : δ → Fault → Response} {refusal : Option Errno} {f : Fault}
  {o : Occurrence δ} {os before between : List (Occurrence δ)}

structure Replaces (p : Host δ) (d : Disposition) : Prop where
  installed : p.installed = true
  saved : p.saved = d

theorem replaces_of_install (h : (p.install refusal).1 = .done) :
    (p.install refusal).2.1.Replaces p.disposition := by
  obtain ⟨hi, rfl⟩ := install_eq_done_iff.mp h
  rw [install_of_not_installed hi]
  exact ⟨rfl, rfl⟩

namespace Replaces

theorem of_kept (h : p.Replaces d) (hk : p.Kept q) : q.Replaces d :=
  ⟨hk.installed.trans h.installed, hk.saved.trans h.saved⟩

theorem occur (h : p.Replaces d) (ho : o.removes = false) (depth : Nat) : (p.occur depth o).1.Replaces d := by
  cases o with
  | install refusal =>
      rw [Host.occur, install_of_installed h.installed]
      exact h
  | remove refusal => cases ho
  | setDispatcher which =>
      rw [Host.occur, setDispatcher_eq]
      exact ⟨h.installed, h.saved⟩
  | setDisposition other => exact ⟨h.installed, h.saved⟩
  | fault respond refusal f => exact h.of_kept (p.deliver_kept respond refusal depth f)

theorem history (h : p.Replaces d) (ho : ∀ o ∈ os, o.removes = false) (depth : Nat) :
    (p.history depth os).1.Replaces d := by
  apply (throughout_of_forall ho depth p).keeps (P := fun q => q.Replaces d) h
  intro q o hq hc
  exact hq.occur hc depth

theorem remove_eq (h : p.Replaces d) (refusal : Option Errno) :
    p.remove refusal = ({ p.sigaction refusal d with installed := false }, [.removed]) := by
  rw [remove_of_installed h.installed, h.saved]

theorem trap_of_unrecovered (h : p.Replaces d) (hf : f.signal = Fault.segv)
    (hr : (p.consult respond f).1.recovered = false) (room : Nat) :
    p.trap respond refusal (room + 1) f =
      (p.forward refusal (p.trap respond refusal room) d (p.left respond f)).after (p.consult respond f).2 := by
  rw [Host.trap_of_unrecovered hf hr, h.saved]

end Replaces

theorem replaces_of_history {depth : Nat} {start : Host δ} (hp : (start.history depth before).1 = p)
    (hd : (p.install refusal).1 = .done) (hb : ∀ o ∈ between, o.removes = false) :
    (start.history depth (before ++ .install refusal :: between)).1.Replaces p.disposition := by
  rw [history_append, hp]
  exact (replaces_of_install hd).history hb depth

theorem installed_cases {depth : Nat} (hi : (p.occur depth o).1.installed = true) :
    (p.installed = true ∧ o.removes = false) ∨ ∃ refusal, o = .install refusal ∧ (p.install refusal).1 = .done := by
  cases o with
  | install refusal =>
      by_cases hd : (p.install refusal).1 = .done
      · exact .inr ⟨refusal, rfl, hd⟩
      · rw [occur, install_of_ne_done hd] at hi
        exact .inl ⟨hi, rfl⟩
  | remove refusal => cases hi.symm.trans (p.installed_remove refusal)
  | setDispatcher which =>
      rw [occur, setDispatcher_eq] at hi
      exact .inl ⟨hi, rfl⟩
  | setDisposition other => exact .inl ⟨hi, rfl⟩
  | fault respond refusal f => exact .inl ⟨(p.deliver_kept respond refusal depth f).installed ▸ hi, rfl⟩

theorem exists_installation {depth : Nat} (hi : (p.history depth os).1.installed = true) :
    (p.installed = true ∧ ∀ o ∈ os, o.removes = false) ∨
      ∃ before refusal between, os = before ++ .install refusal :: between ∧
        ((p.history depth before).1.install refusal).1 = .done ∧ ∀ o ∈ between, o.removes = false := by
  induction os generalizing p with
  | nil => exact .inl ⟨hi, by simp⟩
  | cons o os ih =>
      rcases ih hi with ⟨hn, ho⟩ | ⟨before, refusal, between, rfl, hd, hb⟩
      -- It counts as installed from the first occurrence on, so that one tells where this comes from.
      · rcases installed_cases hn with ⟨hp, hc⟩ | ⟨refusal, rfl, hd⟩
        · exact .inl ⟨hp, List.forall_mem_cons.mpr ⟨hc, ho⟩⟩
        · exact .inr ⟨[], refusal, os, rfl, hd, ho⟩
      · exact .inr ⟨o :: before, refusal, between, rfl, hd, hb⟩

/-- Nothing but the mark changes, so the trap handler is saved as what was there before. -/
theorem install_after_refusal (hi : q.installed = true) (errno : Errno) :
    ((q.remove (some errno)).1.install none).2.1 = { q with disposition := .trap, saved := q.disposition } := by
  rw [remove_of_installed hi, install_of_not_installed rfl]
  simp only [sigaction, hi]

theorem not_returned_after_refusal (hi : q.installed = true) (hd : q.disposition.Traps) (errno : Errno)
    (hf : f.signal = Fault.segv) (hn : ∀ g, (q.consult respond g).1.recovered = false) (room : Nat) :
    (((q.remove (some errno)).1.install none).2.1.deliver respond refusal room f).returned = false := by
  rw [install_after_refusal hi, deliver_of_traps Disposition.traps_trap]
  exact (trap_handling _ respond refusal room f).not_returned hd hf hn

/-- A removal marks the trap handler as removed in any case, and what it took the place of is there again just if
the operating system puts it back, or it was there already. Where the trap handler stays instead, another
installation makes it its own predecessor, and a fault that is not recovered never comes to an end. -/
theorem removal_restores_where_granted (depth : Nat) (os : List (Occurrence δ))
    (hq : (({} : Host δ).history depth os).1 = q) (hi : q.installed = true) :
    ∃ before granted between p, os = before ++ .install granted :: between ∧
      (({} : Host δ).history depth before).1 = p ∧ (p.install granted).1 = .done ∧
      (∀ o ∈ between, o.removes = false) ∧
      ∀ refusal, (q.remove refusal).1.installed = false ∧
        ((q.remove refusal).1.disposition = p.disposition ↔ refusal = none ∨ q.disposition = p.disposition) ∧
        (refusal ≠ none → q.disposition.Traps → ∀ respond again room f, f.signal = Fault.segv →
          (∀ g, (q.consult respond g).1.recovered = false) →
          (((q.remove refusal).1.install none).2.1.deliver respond again room f).returned = false) := by
  subst hq
  rcases exists_installation hi with ⟨hn, -⟩ | ⟨before, granted, between, rfl, hd, hb⟩
  · cases hn
  · refine ⟨before, granted, between, _, rfl, rfl, hd, hb, ?_⟩
    intro refusal
    refine ⟨installed_remove _ refusal, ?_, ?_⟩
    · rw [(replaces_of_history rfl hd hb).remove_eq refusal]
      cases refusal with
      | none => simp [sigaction, setDisposition]
      | some errno => simp [sigaction]
    · intro hr ht respond again room f hf hn
      obtain ⟨errno, rfl⟩ := Option.ne_none_iff_exists'.mp hr
      exact not_returned_after_refusal hi ht errno hf hn room

theorem trap_stays_after_refused_removal :
    (({} : Host Unit).history 1 [.install none]).1.installed = true ∧
      (({} : Host Unit).history 1 [.install none, .remove (some ⟨1⟩)]).1.installed = false ∧
      (({} : Host Unit).history 1 [.install none, .remove (some ⟨1⟩)]).1.disposition = .trap ∧
      Disposition.trap ≠ ({} : Host Unit).disposition :=
  ⟨rfl, rfl, rfl, by decide⟩

theorem removal_restores_foreign_handler :
    ∃ p q : Host Unit, (({} : Host Unit).history 1 [.setDisposition (.plain 0x40), .install none, .install none]).1 = q ∧
      p.disposition = .plain 0x40 ∧ (q.remove none).1.disposition = p.disposition ∧
      (q.remove (some ⟨1⟩)).1.disposition ≠ p.disposition ∧
      ∀ room, (((q.remove (some ⟨1⟩)).1.install none).2.1.deliver (fun _ f => f.decline) none room ⟨11, 0, 5⟩).returned =
        false := by
  obtain ⟨-, -, -, p, -, -, -, -, h⟩ := removal_restores_where_granted (δ := Unit) 1
    [.setDisposition (.plain 0x40), .install none, .install none] rfl rfl
  have hp := (h none).2.1.mpr (.inl rfl)
  refine ⟨p, _, rfl, hp.symm, hp, ?_, ?_⟩
  · rw [← hp]
    decide
  · intro room
    exact (h (some ⟨1⟩)).2.2 (by simp) Disposition.traps_trap _ none room _ rfl fun _ => rfl

end Host

end FaultRecovery
