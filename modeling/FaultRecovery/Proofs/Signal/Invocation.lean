import FaultRecovery.Proofs.Signal.Recoveries

namespace FaultRecovery

variable {δ : Type}

inductive Ending where
  | resumed
  | calledSiginfo
  | calledPlain
  | restored
deriving DecidableEq, Repr

def Disposition.ending (d : Disposition) : Ending :=
  if d.takesInfo then .calledSiginfo else if d.handler.Standard then .restored else .calledPlain

namespace Host

variable {p : Host δ} {m : Metadata} {refusal : Option Errno} {room : Nat} {f : Fault} {e e' : Ending} {d d' : Delivery δ}

def asked (p : Host δ) (f : Fault) : List (Call δ) :=
  match p.dispatcher with
  | none => []
  | some which => [.dispatcher which f f.decline]

def Recovers (p : Host δ) (m : Metadata) (f : Fault) : Prop :=
  ∃ which target, p.dispatcher = some which ∧ m.Redirects f target

/-- The fault is recovered, or it goes unchanged to the function that was there before, or what was there before
is put back. The trap handler itself is a function that takes a fault with its context. -/
inductive Ends (p : Host δ) (m : Metadata) (refusal : Option Errno) (room : Nat) (f : Fault) :
    Ending → Delivery δ → Prop where
  | resumed {which : δ} {target : Address} (hw : p.dispatcher = some which) (ht : m.Redirects f target) :
      Ends p m refusal room f .resumed ⟨{ p with recovered := p.recovered + 1 }, target.toInt64,
        [.dispatcher which f ⟨true, target.toInt64⟩], true⟩
  | siginfo {entry : Address} (hn : ¬ p.Recovers m f) (hi : p.saved.takesInfo = true)
      (hs : p.saved.handler = .foreign entry) :
      Ends p m refusal room f .calledSiginfo ⟨p, f.rip, p.asked f ++ [.siginfo entry f], true⟩
  | itself (hn : ¬ p.Recovers m f) (hs : p.saved.Traps) :
      Ends p m refusal room f .calledSiginfo ((p.trap (fun _ => m.respond) refusal room f).after (p.asked f))
  | plain (hn : ¬ p.Recovers m f) (hi : p.saved.takesInfo = false) (hs : ¬ p.saved.handler.Standard) :
      Ends p m refusal room f .calledPlain ⟨p, f.rip, p.asked f ++ [.plain p.saved.handler f.signal], true⟩
  | restored (hn : ¬ p.Recovers m f) (hs : p.saved.Passive) :
      Ends p m refusal room f .restored ⟨p.sigaction refusal p.saved, f.rip, p.asked f, true⟩

theorem consult_eq_asked (hn : ¬ p.Recovers m f) : p.consult (fun _ => m.respond) f = (f.decline, p.asked f) := by
  cases hw : p.dispatcher with
  | none => rw [consult_of_none hw, asked, hw]
  | some which =>
      rw [consult_of_not_redirects hw rfl fun target ht => hn ⟨which, target, hw, ht⟩, asked, hw]

theorem trap_ends (p : Host δ) (m : Metadata) (refusal : Option Errno) (room : Nat) (hf : f.signal = Fault.segv) :
    ∃ e, p.Ends m refusal room f e (p.trap (fun _ => m.respond) refusal (room + 1) f) := by
  by_cases hr : p.Recovers m f
  · obtain ⟨which, target, hw, ht⟩ := hr
    rw [trap_of_redirects hf hw rfl ht]
    exact ⟨_, .resumed hw ht⟩
  · have hc := consult_eq_asked hr
    have hd : (p.consult (fun _ => m.respond) f).1.recovered = false := by rw [hc]; rfl
    have hl : p.left (fun _ => m.respond) f = f := left_eq_self (by rw [hc])
    -- As its own predecessor the trap handler is called once more, and that call is not unfolded here.
    by_cases hs : p.saved.Traps
    · rw [trap_of_unrecovered hf hd, hl, hc, forward_of_traps hs]
      exact ⟨_, .itself hr hs⟩
    · obtain ⟨host, calls, hh⟩ := exists_handedOn hs refusal f
      rw [trap_of_handedOn hf hd (hl.symm ▸ hh), hl, hc]
      cases hh with
      | siginfo hi hs => exact ⟨_, .siginfo hr hi hs⟩
      | plain hi hs => exact ⟨_, .plain hr hi hs⟩
      | restored hs =>
          rw [List.append_nil]
          exact ⟨_, .restored hr hs⟩

namespace Ends

theorem ending_cases (h : p.Ends m refusal room f e d) :
    (p.Recovers m f ∧ e = .resumed) ∨ (¬ p.Recovers m f ∧ e = p.saved.ending) := by
  rw [Disposition.ending]
  cases h with
  | resumed hw ht => exact .inl ⟨⟨_, _, hw, ht⟩, rfl⟩
  | siginfo hn hi => exact .inr ⟨hn, (if_pos hi).symm⟩
  | itself hn hs => exact .inr ⟨hn, (if_pos hs.1).symm⟩
  | plain hn hi hs => exact .inr ⟨hn, by rw [if_neg (Bool.not_eq_true _ ▸ hi), if_neg hs]⟩
  | restored hn hs => exact .inr ⟨hn, by rw [if_neg (Bool.not_eq_true _ ▸ hs.1), if_pos hs.2]⟩

theorem unique (h : p.Ends m refusal room f e d) (h' : p.Ends m refusal room f e' d') : e' = e := by
  rcases h.ending_cases with ⟨hr, rfl⟩ | ⟨hn, rfl⟩ <;> rcases h'.ending_cases with ⟨hr', rfl⟩ | ⟨hn', rfl⟩
  · rfl
  · exact absurd hr hn'
  · exact absurd hr' hn
  · rfl

theorem resumed_eq (h : p.Ends m refusal room f e d) (he : e = .resumed)
    {target : Address} (ht : m.resolve f.rip.toUInt64 = .recover target) :
    d.rip.toInt = target.toNat ∧ d.host = { p with recovered := p.recovered + 1 } := by
  cases h with
  | resumed hw hx =>
      obtain rfl := Lookup.recover.inj (ht.symm.trans hx.2.1)
      exact ⟨Address.toInt_toInt64 hx.2.2, rfl⟩
  | siginfo | itself | plain | restored => cases he

theorem rip_eq (h : p.Ends m refusal room f e d) (he : e ≠ .resumed) : d.rip = f.rip := by
  cases h with
  | resumed => exact absurd rfl he
  | siginfo | plain | restored => rfl
  | itself hn =>
      exact ((p.trap_handling _ refusal room f).of_decline fun _ => by rw [consult_eq_asked hn]).1

theorem host_eq (h : p.Ends m refusal room f e d) (he : e ≠ .resumed) (hr : e ≠ .restored) : d.host = p := by
  cases h with
  | resumed => exact absurd rfl he
  | siginfo | plain => rfl
  | itself hn hs =>
      have hd := (p.trap_handling (fun _ => m.respond) refusal room f).of_decline fun _ => by
        rw [consult_eq_asked hn]
      rcases hd.2 with hd | ⟨hx, -⟩
      · exact hd
      · cases hs.1.symm.trans hx.1
  | restored => exact absurd rfl hr

theorem restored_eq (h : p.Ends m refusal room f e d) (he : e = .restored) :
    d.host = p.sigaction refusal p.saved := by
  cases h with
  | resumed | siginfo | itself | plain => cases he
  | restored => rfl

theorem recovered_eq (h : p.Ends m refusal room f e d) (he : e ≠ .resumed) : d.host.recovered = p.recovered := by
  by_cases hr : e = .restored
  · rw [h.restored_eq hr, (p.sigaction_tally refusal p.saved).recovered]
  · rw [h.host_eq he hr]

theorem disposition_eq (h : p.Ends m refusal room f e d) (hr : e ≠ .restored) :
    d.host.disposition = p.disposition := by
  by_cases he : e = .resumed
  · cases h with
    | resumed => rfl
    | siginfo | itself | plain | restored => cases he
  · rw [h.host_eq he hr]

end Ends

/-- An invocation comes to the end `e` and to no other, and changes only what this takes. -/
structure Finishes (p : Host δ) (registry : Registry) (refusal : Option Errno) (room : Nat) (f : Fault) (e : Ending)
    (d : Delivery δ) : Prop where
  ends : p.Ends registry.metadata refusal room f e d
  unique : ∀ e', p.Ends registry.metadata refusal room f e' d → e' = e
  resumed : ∀ target, e = .resumed → registry.metadata.resolve f.rip.toUInt64 = .recover target →
    d.rip.toInt = target.toNat ∧ d.host = { p with recovered := p.recovered + 1 }
  unrecovered : e ≠ .resumed → d.rip = f.rip ∧ d.host.recovered = p.recovered
  disposition : e ≠ .restored → d.host.disposition = p.disposition
  restored : e = .restored → refusal = none → d.host.disposition = p.saved
  kept : p.Kept d.host
  answered : registry.run (Registry.respond f) = ⟨.ok (registry.metadata.respond f), [], registry⟩

/-- An invocation for a bad access to memory recovers the fault, calls the function that was there before, or puts
back what was none. -/
theorem invocation_ends_one_way (p : Host δ) (registry : Registry) (refusal : Option Errno) (room : Nat)
    (hf : f.signal = Fault.segv) :
    ∃ d e, p.trap (fun _ => registry.metadata.respond) refusal (room + 1) f = d ∧
      p.Finishes registry refusal room f e d := by
  obtain ⟨e, h⟩ := p.trap_ends registry.metadata refusal room hf
  refine ⟨_, e, rfl, ?_⟩
  constructor
  case ends => exact h
  case unique => exact fun e' h' => h.unique h'
  case resumed => exact fun target he ht => h.resumed_eq he ht
  case unrecovered => exact fun he => ⟨h.rip_eq he, h.recovered_eq he⟩
  case disposition => exact h.disposition_eq
  case restored =>
    rintro he rfl
    rw [h.restored_eq he]
    rfl
  case kept => exact (p.trap_handling _ refusal (room + 1) f).kept
  case answered => exact Registry.run_respond registry f

/-- The fault is at a protected site, but it comes while the lock is held, and goes to the foreign handler. -/
theorem invocation_ends_with_lock_held :
    ∃ (p : Host Unit) (registry : Registry) (d : Delivery Unit), p.disposition = .trap ∧ p.dispatcher = some () ∧
      registry.metadata.locked = true ∧ registry.metadata.value.landingPad? 0x1004 = some 0x1008 ∧
      p.trap (fun _ => registry.metadata.respond) none 1 ⟨11, 0, 0x1004⟩ = d ∧ d.rip = 0x1004 ∧
      d.host.recovered = 3 ∧ d.host.disposition = .trap ∧ p.Ends registry.metadata none 0 ⟨11, 0, 0x1004⟩ .calledSiginfo d := by
  obtain ⟨d, e, hd, h⟩ := invocation_ends_one_way (p := ⟨.trap, true, .siginfo 0x80, some (), 3⟩)
    ⟨⟨true, 1, 2⟩, true, ⟨#[.occupied ⟨0x1000, 0x20, [⟨4, 8⟩]⟩], none⟩⟩ none 0 (f := ⟨11, 0, 0x1004⟩) rfl
  obtain rfl : e = .calledSiginfo := by
    rcases h.ends.ending_cases with ⟨⟨-, target, -, hx⟩, -⟩ | ⟨-, hx⟩
    · cases (Metadata.resolve_of_locked rfl _).symm.trans hx.2.1
    · exact hx
  obtain ⟨hrip, hrec⟩ := h.unrecovered (by decide)
  exact ⟨_, _, d, rfl, rfl, rfl, by decide +kernel, hd, hrip, hrec, h.disposition (by decide), h.ends⟩

end Host

end FaultRecovery
