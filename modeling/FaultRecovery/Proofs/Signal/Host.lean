import FaultRecovery.Signal.Host

namespace FaultRecovery

variable {δ : Type}

namespace Host

variable {p : Host δ} {respond : δ → Fault → Response} {refusal : Option Errno} {f : Fault} {depth : Nat}

theorem install_of_installed (h : p.installed = true) : p.install refusal = (.repeated, p, []) := by
  simp [install, h]

theorem install_of_refusal (h : p.installed = false) (errno : Errno) :
    p.install (some errno) = (.failed (.refused errno), p, [.notInstalled errno]) := by
  simp [install, h]

theorem install_of_not_installed (h : p.installed = false) :
    p.install none =
      (.done, { p with disposition := .trap, installed := true, saved := p.disposition }, [.installed]) := by
  simp [install, h]

theorem install_eq_done_iff : (p.install refusal).1 = .done ↔ p.installed = false ∧ refusal = none := by
  cases hi : p.installed with
  | true => simp [install_of_installed hi]
  | false =>
      cases refusal with
      | none => simp [install_of_not_installed hi]
      | some errno => simp [install_of_refusal hi]

theorem install_of_ne_done (h : (p.install refusal).1 ≠ .done) : (p.install refusal).2.1 = p := by
  cases hi : p.installed with
  | true => rw [install_of_installed hi]
  | false =>
      cases refusal with
      | none => exact absurd (install_eq_done_iff.mpr ⟨hi, rfl⟩) h
      | some errno => rw [install_of_refusal hi]

theorem remove_of_installed (h : p.installed = true) :
    p.remove refusal = ({ p.sigaction refusal p.saved with installed := false }, [.removed]) := by
  rw [remove, if_pos h]

theorem remove_of_not_installed (h : p.installed = false) : p.remove refusal = (p, []) := by
  simp [remove, h]

theorem installed_remove (p : Host δ) (refusal : Option Errno) : (p.remove refusal).1.installed = false := by
  cases hi : p.installed with
  | true => rw [remove_of_installed hi]
  | false => rw [remove_of_not_installed hi, hi]

theorem setDispatcher_eq (p : Host δ) (which : δ) :
    p.setDispatcher which = (p.dispatcher.isNone, { p with dispatcher := some (p.dispatcher.getD which) }) := by
  cases p with
  | mk disposition installed saved dispatcher recovered => cases dispatcher <;> rfl

theorem consult_of_dispatcher {which : δ} (h : p.dispatcher = some which) :
    p.consult respond f = (respond which f, [.dispatcher which f (respond which f)]) := by
  rw [consult, h]

theorem consult_of_none (h : p.dispatcher = none) : p.consult respond f = (f.decline, []) := by
  rw [consult, h]

def left (p : Host δ) (respond : δ → Fault → Response) (f : Fault) : Fault :=
  { f with rip := (p.consult respond f).1.rip }

theorem left_eq_self (h : (p.consult respond f).1 = f.decline) : p.left respond f = f := by
  rw [left, h]
  rfl

/-- A fault goes to the function that was there before, or that was none and is put back. -/
inductive HandedOn (p : Host δ) (refusal : Option Errno) (f : Fault) : Host δ → List (Call δ) → Prop where
  | siginfo {entry : Address} (hi : p.saved.takesInfo = true) (hs : p.saved.handler = .foreign entry) :
      HandedOn p refusal f p [.siginfo entry f]
  | plain (hi : p.saved.takesInfo = false) (hs : ¬ p.saved.handler.Standard) :
      HandedOn p refusal f p [.plain p.saved.handler f.signal]
  | restored (hs : p.saved.Passive) : HandedOn p refusal f (p.sigaction refusal p.saved) []

structure Kept (p q : Host δ) : Prop where
  installed : q.installed = p.installed
  saved : q.saved = p.saved
  dispatcher : q.dispatcher = p.dispatcher

theorem Kept.refl (p : Host δ) : p.Kept p := ⟨rfl, rfl, rfl⟩

theorem sigaction_kept (p : Host δ) (refusal : Option Errno) (d : Disposition) :
    p.Kept (p.sigaction refusal d) := by
  cases refusal <;> exact ⟨rfl, rfl, rfl⟩

theorem trap_of_foreign (hf : f.signal ≠ Fault.segv) :
    p.trap respond refusal (depth + 1) f = ⟨p, f.rip, [], true⟩ := by
  rw [trap, if_pos hf]

theorem trap_of_recovered (hf : f.signal = Fault.segv) (hr : (p.consult respond f).1.recovered = true) :
    p.trap respond refusal (depth + 1) f =
      ⟨{ p with recovered := p.recovered + 1 }, (p.consult respond f).1.rip, (p.consult respond f).2, true⟩ := by
  rw [trap, if_neg (not_not_intro hf)]
  exact if_pos hr

theorem trap_of_unrecovered (hf : f.signal = Fault.segv) (hr : (p.consult respond f).1.recovered = false) :
    p.trap respond refusal (depth + 1) f =
      (p.forward refusal (p.trap respond refusal depth) p.saved (p.left respond f)).after
        (p.consult respond f).2 := by
  have hn : ¬ (p.consult respond f).1.recovered = true := by simp [hr]
  rw [trap, if_neg (not_not_intro hf)]
  exact if_neg hn

theorem forward_of_traps {itself : Fault → Delivery δ} {d : Disposition} (hd : d.Traps) :
    p.forward refusal itself d f = itself f := by
  rw [forward, if_pos hd.1, hd.2, callInfo]

theorem exists_handedOn (hs : ¬ p.saved.Traps) (refusal : Option Errno) (f : Fault) :
    ∃ host calls, p.HandedOn refusal f host calls := by
  cases hi : p.saved.takesInfo with
  | true =>
      cases hh : p.saved.handler with
      | trap => exact absurd ⟨hi, hh⟩ hs
      | foreign entry => exact ⟨_, _, .siginfo hi hh⟩
  | false =>
      by_cases hh : p.saved.handler.Standard
      · exact ⟨_, _, .restored ⟨hi, hh⟩⟩
      · exact ⟨_, _, .plain hi hh⟩

namespace HandedOn

variable {host : Host δ} {calls : List (Call δ)}

theorem forward_eq (h : p.HandedOn refusal f host calls) (itself : Fault → Delivery δ) :
    p.forward refusal itself p.saved f = ⟨host, f.rip, calls, true⟩ := by
  rw [forward]
  cases h with
  | siginfo hi hs => rw [if_pos hi, hs, callInfo]
  | plain hi hs => rw [if_neg (Bool.not_eq_true _ ▸ hi), if_neg hs, callPlain]
  | restored hs => rw [if_neg (Bool.not_eq_true _ ▸ hs.1), if_pos hs.2]

theorem not_traps (h : p.HandedOn refusal f host calls) : ¬ p.saved.Traps := by
  rintro ⟨hi, hh⟩
  cases h with
  | siginfo _ hs => cases hh.symm.trans hs
  | plain hn => cases hi.symm.trans hn
  | restored hs => cases hi.symm.trans hs.1

theorem kept (h : p.HandedOn refusal f host calls) : p.Kept host := by
  cases h with
  | siginfo | plain => exact .refl p
  | restored => exact p.sigaction_kept refusal p.saved

end HandedOn

theorem trap_of_handedOn (hf : f.signal = Fault.segv) (hr : (p.consult respond f).1.recovered = false)
    {host : Host δ} {calls : List (Call δ)} (hh : p.HandedOn refusal (p.left respond f) host calls) :
    p.trap respond refusal (depth + 1) f =
      ⟨host, (p.left respond f).rip, (p.consult respond f).2 ++ calls, true⟩ := by
  rw [trap_of_unrecovered hf hr, hh.forward_eq, Delivery.after]

/-- All that can come of an invocation of the trap handler. As its own predecessor it calls itself, with the
fault as its dispatcher left it. -/
inductive Handling (p : Host δ) (respond : δ → Fault → Response) (refusal : Option Errno) :
    Nat → Fault → Delivery δ → Prop where
  | exhausted {f : Fault} : Handling p respond refusal 0 f ⟨p, f.rip, [], false⟩
  | foreign {room : Nat} {f : Fault} (hf : f.signal ≠ Fault.segv) :
      Handling p respond refusal (room + 1) f ⟨p, f.rip, [], true⟩
  | recovered {room : Nat} {f : Fault} (hf : f.signal = Fault.segv) (hr : (p.consult respond f).1.recovered = true) :
      Handling p respond refusal (room + 1) f
        ⟨{ p with recovered := p.recovered + 1 }, (p.consult respond f).1.rip, (p.consult respond f).2, true⟩
  | handedOn {room : Nat} {f : Fault} {host : Host δ} {calls : List (Call δ)} (hf : f.signal = Fault.segv)
      (hr : (p.consult respond f).1.recovered = false) (hh : p.HandedOn refusal (p.left respond f) host calls) :
      Handling p respond refusal (room + 1) f
        ⟨host, (p.left respond f).rip, (p.consult respond f).2 ++ calls, true⟩
  | looped {room : Nat} {f : Fault} {d : Delivery δ} (hf : f.signal = Fault.segv)
      (hr : (p.consult respond f).1.recovered = false) (hs : p.saved.Traps)
      (hd : Handling p respond refusal room (p.left respond f) d) :
      Handling p respond refusal (room + 1) f (d.after (p.consult respond f).2)

theorem trap_handling (p : Host δ) (respond : δ → Fault → Response) (refusal : Option Errno) (depth : Nat)
    (f : Fault) : p.Handling respond refusal depth f (p.trap respond refusal depth f) := by
  induction depth generalizing f with
  | zero => exact .exhausted
  | succ depth ih =>
      by_cases hf : f.signal = Fault.segv
      · cases hr : (p.consult respond f).1.recovered with
        | true =>
            rw [trap_of_recovered hf hr]
            exact .recovered hf hr
        | false =>
            by_cases hs : p.saved.Traps
            · rw [trap_of_unrecovered hf hr, forward_of_traps hs]
              exact .looped hf hr hs (ih (p.left respond f))
            · obtain ⟨host, calls, hh⟩ := exists_handedOn hs refusal (p.left respond f)
              rw [trap_of_handedOn hf hr hh]
              exact .handedOn hf hr hh
      · rw [trap_of_foreign hf]
        exact .foreign hf

namespace Handling

variable {d : Delivery δ}

theorem kept (h : p.Handling respond refusal depth f d) : p.Kept d.host := by
  induction h with
  | exhausted | foreign => exact .refl p
  | recovered => exact ⟨rfl, rfl, rfl⟩
  | handedOn _ _ hh => exact hh.kept
  | looped _ _ _ _ ih => exact ih

theorem of_decline (h : p.Handling respond refusal depth f d)
    (hn : f.signal = Fault.segv → (p.consult respond f).1 = f.decline) :
    d.rip = f.rip ∧ (d.host = p ∨ (p.saved.Passive ∧ d.host = p.sigaction refusal p.saved)) := by
  induction h with
  | exhausted | foreign => exact ⟨rfl, .inl rfl⟩
  | recovered hf hr =>
      rw [hn hf] at hr
      cases hr
  | handedOn hf _ hh =>
      refine ⟨congrArg Fault.rip (left_eq_self (hn hf)), ?_⟩
      cases hh with
      | siginfo | plain => exact .inl rfl
      | restored hs => exact .inr ⟨hs, rfl⟩
  | looped hf _ _ _ ih =>
      rw [left_eq_self (hn hf)] at ih
      exact ih hn

/-- The trap handler as its own predecessor calls itself until the stack is used up. -/
theorem not_returned (h : p.Handling respond refusal depth f d) (hs : p.saved.Traps) (hf : f.signal = Fault.segv)
    (hn : ∀ g, (p.consult respond g).1.recovered = false) : d.returned = false := by
  induction h with
  | exhausted => rfl
  | foreign hx => exact absurd hf hx
  | recovered _ hr => cases hr.symm.trans (hn _)
  | handedOn _ _ hh => exact absurd hs hh.not_traps
  | looped _ _ _ _ ih => exact ih hf

end Handling

theorem deliver_of_traps (hd : p.disposition.Traps) :
    p.deliver respond refusal depth f = p.trap respond refusal depth f := by
  rw [deliver, if_neg fun hs => hs.ne_trap hd.2, if_pos hd.1, hd.2, callInfo]

theorem exists_deliver_of_not_traps (hd : ¬ p.disposition.Traps) :
    ∃ calls, p.deliver respond refusal depth f = ⟨p, f.rip, calls, true⟩ ∧
      ∀ which g response, .dispatcher which g response ∉ calls := by
  rw [deliver]
  by_cases hs : p.disposition.handler.Standard
  · rw [if_pos hs]
    exact ⟨[], rfl, by simp⟩
  · rw [if_neg hs]
    cases hi : p.disposition.takesInfo with
    | true =>
        cases hh : p.disposition.handler with
        | trap => exact absurd ⟨hi, hh⟩ hd
        | foreign entry => exact ⟨[.siginfo entry f], rfl, by simp⟩
    | false => exact ⟨[.plain p.disposition.handler f.signal], rfl, by simp⟩

theorem deliver_of_not_traps (hd : ¬ p.disposition.Traps) : (p.deliver respond refusal depth f).host = p := by
  obtain ⟨calls, h, -⟩ : ∃ calls, p.deliver respond refusal depth f = _ ∧ _ := exists_deliver_of_not_traps hd
  rw [h]

theorem deliver_kept (p : Host δ) (respond : δ → Fault → Response) (refusal : Option Errno) (depth : Nat)
    (f : Fault) : p.Kept (p.deliver respond refusal depth f).host := by
  by_cases hd : p.disposition.Traps
  · rw [deliver_of_traps hd]
    exact (p.trap_handling respond refusal depth f).kept
  · rw [deliver_of_not_traps hd]
    exact .refl p

end Host

end FaultRecovery
