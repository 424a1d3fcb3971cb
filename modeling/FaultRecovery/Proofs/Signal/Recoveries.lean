import FaultRecovery.Proofs.Signal.Host
import FaultRecovery.Proofs.Signal.Redirection
import FaultRecovery.Signal.Process

namespace FaultRecovery

variable {δ : Type}

def Call.recovers : Call δ → Bool
  | .dispatcher _ _ response => response.recovered
  | .plain .. | .siginfo .. => false

theorem Call.recovers_iff {call : Call δ} :
    call.recovers = true ↔ ∃ which f response, call = .dispatcher which f response ∧ response.recovered = true := by
  cases call with
  | dispatcher which f response =>
      constructor
      · intro hr
        exact ⟨which, f, response, rfl, hr⟩
      · rintro ⟨_, _, _, he, hr⟩
        obtain ⟨-, -, rfl⟩ := Call.dispatcher.inj he
        exact hr
  | plain | siginfo => simp [recovers]

def Occurrence.dispatcher? : Occurrence δ → Option δ
  | .setDispatcher which => some which
  | .install _ | .remove _ | .setDisposition _ | .fault .. => none

def Incident.dispatcher? : Incident δ → Option δ
  | .request _ => none
  | .occurrence o => o.dispatcher?

namespace Host

variable {p : Host δ} {respond : δ → Fault → Response} {refusal : Option Errno} {f g : Fault} {depth : Nat}
  {d : Delivery δ} {which : δ} {response : Response} {o : Occurrence δ}

theorem countP_consult (p : Host δ) (respond : δ → Fault → Response) (f : Fault) :
    (p.consult respond f).2.countP Call.recovers = if (p.consult respond f).1.recovered then 1 else 0 := by
  cases h : p.dispatcher with
  | none =>
      rw [consult_of_none h]
      rfl
  | some which =>
      rw [consult_of_dispatcher h]
      exact List.countP_singleton

theorem trap_asks (hf : f.signal = Fault.segv) (hw : p.dispatcher = some which) :
    ∃ rest, (p.trap respond refusal (depth + 1) f).calls = .dispatcher which f (respond which f) :: rest := by
  have hc : p.consult respond f = _ := consult_of_dispatcher hw
  cases hr : (p.consult respond f).1.recovered with
  | true =>
      rw [trap_of_recovered hf hr, hc]
      exact ⟨[], rfl⟩
  | false =>
      rw [trap_of_unrecovered hf hr, hc]
      exact ⟨_, rfl⟩

theorem asked_of_consult (hf : f.signal = Fault.segv) (h : .dispatcher which g response ∈ (p.consult respond f).2) :
    p.dispatcher = some which ∧ g.signal = Fault.segv ∧ response = respond which g := by
  cases hd : p.dispatcher with
  | none =>
      rw [consult_of_none hd] at h
      cases h
  | some first =>
      rw [consult_of_dispatcher hd] at h
      obtain ⟨rfl, rfl, rfl⟩ := Call.dispatcher.inj (List.mem_singleton.mp h)
      exact ⟨rfl, hf, rfl⟩

theorem HandedOn.recovered_eq {host : Host δ} {calls : List (Call δ)} (h : p.HandedOn refusal f host calls) :
    host.recovered = p.recovered := by
  cases h with
  | siginfo | plain => rfl
  | restored => cases refusal <;> rfl

theorem HandedOn.not_dispatcher {host : Host δ} {calls : List (Call δ)} (h : p.HandedOn refusal f host calls) :
    .dispatcher which g response ∉ calls := by
  cases h <;> simp

theorem HandedOn.countP_eq {host : Host δ} {calls : List (Call δ)} (h : p.HandedOn refusal f host calls) :
    calls.countP Call.recovers = 0 := by
  cases h <;> rfl

namespace Handling

theorem recovered_eq (h : p.Handling respond refusal depth f d) :
    d.host.recovered = p.recovered + .ofNat (d.calls.countP Call.recovers) := by
  induction h with
  | exhausted | foreign => simp
  | recovered _ hr => rw [countP_consult, if_pos hr]; rfl
  | handedOn _ hr hh => rw [List.countP_append, countP_consult, hr, hh.countP_eq, hh.recovered_eq]; simp
  | looped _ hr _ _ ih => rw [Delivery.after, List.countP_append, countP_consult, hr]; simpa using ih

theorem asked (h : p.Handling respond refusal depth f d) (hc : .dispatcher which g response ∈ d.calls) :
    p.dispatcher = some which ∧ g.signal = Fault.segv ∧ response = respond which g := by
  induction h with
  | exhausted | foreign => cases hc
  | recovered hf _ => exact asked_of_consult hf hc
  | handedOn hf _ hh =>
      rcases List.mem_append.mp hc with hc | hc
      · exact asked_of_consult hf hc
      · exact absurd hc hh.not_dispatcher
  | looped hf _ _ _ ih =>
      rcases List.mem_append.mp hc with hc | hc
      · exact asked_of_consult hf hc
      · exact ih hc

end Handling

structure SameTally (p q : Host δ) : Prop where
  dispatcher : q.dispatcher = p.dispatcher
  recovered : q.recovered = p.recovered

theorem sigaction_tally (p : Host δ) (refusal : Option Errno) (d : Disposition) :
    p.SameTally (p.sigaction refusal d) := by
  cases refusal <;> exact ⟨rfl, rfl⟩

theorem install_tally (p : Host δ) (refusal : Option Errno) : p.SameTally (p.install refusal).2.1 := by
  by_cases hd : (p.install refusal).1 = .done
  · obtain ⟨hi, rfl⟩ := install_eq_done_iff.mp hd
    rw [install_of_not_installed hi]
    exact ⟨rfl, rfl⟩
  · rw [install_of_ne_done hd]
    exact ⟨rfl, rfl⟩

theorem remove_tally (p : Host δ) (refusal : Option Errno) : p.SameTally (p.remove refusal).1 := by
  cases hi : p.installed with
  | true =>
      rw [remove_of_installed hi]
      exact ⟨(p.sigaction_tally refusal p.saved).dispatcher, (p.sigaction_tally refusal p.saved).recovered⟩
  | false =>
      rw [remove_of_not_installed hi]
      exact ⟨rfl, rfl⟩

theorem occur_dispatcher (p : Host δ) (depth : Nat) (o : Occurrence δ) :
    (p.occur depth o).1.dispatcher = p.dispatcher.or o.dispatcher? := by
  cases o with
  | install refusal => exact (p.install_tally refusal).dispatcher.trans Option.or_none.symm
  | remove refusal => exact (p.remove_tally refusal).dispatcher.trans Option.or_none.symm
  | setDispatcher which =>
      rw [occur, setDispatcher_eq]
      cases p.dispatcher <;> rfl
  | setDisposition d => exact Option.or_none.symm
  | fault respond refusal f =>
      exact (p.deliver_kept respond refusal depth f).dispatcher.trans Option.or_none.symm

theorem asked_of_occur (h : .dispatcher which g response ∈ (p.occur depth o).2) :
    p.dispatcher = some which ∧ g.signal = Fault.segv ∧ p.disposition.Traps ∧
      ∃ respond refusal f, o = .fault respond refusal f ∧ response = respond which g := by
  cases o with
  | install | remove | setDispatcher | setDisposition => cases h
  | fault respond refusal f =>
      by_cases hd : p.disposition.Traps
      · rw [occur, deliver_of_traps hd] at h
        obtain ⟨hw, hs, hr⟩ := (p.trap_handling respond refusal depth f).asked h
        exact ⟨hw, hs, hd, respond, refusal, f, rfl, hr⟩
      · obtain ⟨calls, hx, hn⟩ := exists_deliver_of_not_traps hd
        rw [occur, hx] at h
        exact absurd h (hn which g response)

theorem occur_recovered (p : Host δ) (depth : Nat) (o : Occurrence δ) :
    (p.occur depth o).1.recovered = p.recovered + .ofNat ((p.occur depth o).2.countP Call.recovers) := by
  cases o with
  | install refusal => simpa [occur] using (p.install_tally refusal).recovered
  | remove refusal => simpa [occur] using (p.remove_tally refusal).recovered
  | setDispatcher which => simp [occur, setDispatcher_eq]
  | setDisposition d => simp [occur, setDisposition]
  | fault respond refusal f =>
      by_cases hd : p.disposition.Traps
      · rw [occur, deliver_of_traps hd]
        exact (p.trap_handling respond refusal depth f).recovered_eq
      · obtain ⟨calls, hx, hn⟩ := exists_deliver_of_not_traps hd
        have hz : calls.countP Call.recovers = 0 := by
          rw [List.countP_eq_zero]
          intro call hc hr
          obtain ⟨which, g, response, rfl, -⟩ := Call.recovers_iff.mp hr
          exact hn which g response hc
        rw [occur, hx, hz]
        exact (UInt64.add_zero p.recovered).symm

variable {m : Metadata} {target : Address}

theorem consult_of_redirects (hw : p.dispatcher = some which) (hr : respond which = m.respond)
    (ht : m.Redirects f target) :
    p.consult respond f = (⟨true, target.toInt64⟩, [.dispatcher which f ⟨true, target.toInt64⟩]) := by
  rw [consult_of_dispatcher hw, hr, ht.respond_eq]

theorem consult_of_not_redirects (hw : p.dispatcher = some which) (hr : respond which = m.respond)
    (hn : ∀ target, ¬ m.Redirects f target) :
    p.consult respond f = (f.decline, [.dispatcher which f f.decline]) := by
  rw [consult_of_dispatcher hw, hr, Metadata.respond_eq_decline hn]

theorem trap_of_redirects (hf : f.signal = Fault.segv) (hw : p.dispatcher = some which)
    (hr : respond which = m.respond) (ht : m.Redirects f target) (room : Nat) :
    p.trap respond refusal (room + 1) f = ⟨{ p with recovered := p.recovered + 1 }, target.toInt64,
      [.dispatcher which f ⟨true, target.toInt64⟩], true⟩ := by
  have hc := consult_of_redirects hw hr ht
  rw [trap_of_recovered hf (by rw [hc]), hc]

theorem deliver_of_decline
    (hn : p.disposition.Traps → f.signal = Fault.segv → (p.consult respond f).1 = f.decline) :
    (p.deliver respond refusal depth f).host.recovered = p.recovered ∧
      (p.deliver respond refusal depth f).rip = f.rip := by
  by_cases hd : p.disposition.Traps
  · rw [deliver_of_traps hd]
    obtain ⟨hr, hh⟩ := (p.trap_handling respond refusal depth f).of_decline (hn hd)
    refine ⟨?_, hr⟩
    rcases hh with hh | ⟨-, hh⟩
    · rw [hh]
    · rw [hh, (p.sigaction_tally refusal p.saved).recovered]
  · obtain ⟨calls, hx, -⟩ := exists_deliver_of_not_traps hd
    rw [hx]
    exact ⟨rfl, rfl⟩

end Host

namespace Process

variable {p : Process δ} {depth : Nat} {is : List (Incident δ)} {which : δ} {g : Fault} {response : Response}

theorem meet_dispatcher (p : Process δ) (depth : Nat) (i : Incident δ) :
    (p.meet depth i).1.host.dispatcher = p.host.dispatcher.or i.dispatcher? := by
  cases i with
  | request request => exact Option.or_none.symm
  | occurrence o => exact p.host.occur_dispatcher depth o

theorem meet_recovered (p : Process δ) (depth : Nat) (i : Incident δ) :
    (p.meet depth i).1.host.recovered = p.host.recovered + .ofNat ((p.meet depth i).2.countP Call.recovers) := by
  cases i with
  | request request => simp [meet]
  | occurrence o => exact p.host.occur_recovered depth o

theorem meetAll_dispatcher (p : Process δ) (depth : Nat) (is : List (Incident δ)) :
    (p.meetAll depth is).1.host.dispatcher = p.host.dispatcher.or (is.findSome? Incident.dispatcher?) := by
  induction is generalizing p with
  | nil => exact Option.or_none.symm
  | cons i is ih =>
      refine (ih (p.meet depth i).1).trans ?_
      rw [meet_dispatcher, Option.or_assoc, List.findSome?_cons]
      cases i.dispatcher? <;> rfl

theorem meetAll_recovered (p : Process δ) (depth : Nat) (is : List (Incident δ)) :
    (p.meetAll depth is).1.host.recovered =
      p.host.recovered + .ofNat ((p.meetAll depth is).2.countP Call.recovers) := by
  induction is generalizing p with
  | nil => simp [meetAll]
  | cons i is ih =>
      refine (ih (p.meet depth i).1).trans ?_
      rw [meet_recovered]
      simp [meetAll, List.countP_append, UInt64.ofNat_add, UInt64.add_assoc]

theorem asked_of_meetAll (h : .dispatcher which g response ∈ (p.meetAll depth is).2) :
    (p.meetAll depth is).1.host.dispatcher = some which ∧ g.signal = Fault.segv := by
  induction is generalizing p with
  | nil => cases h
  | cons i is ih =>
      rcases List.mem_append.mp h with h | h
      · cases i with
        | request request => cases h
        | occurrence o =>
            obtain ⟨hw, hs, -⟩ := Host.asked_of_occur h
            -- It was set before it was asked, and no later incident takes its place.
            refine ⟨?_, hs⟩
            rw [meetAll_dispatcher, hw, Option.some_or]
      · exact ih h

theorem recovery_of_ne {i : Incident δ} (h : (p.meet depth i).1.host.recovered ≠ p.host.recovered) :
    p.host.disposition.Traps ∧ ∃ which respond refusal f g, i = .occurrence (.fault respond refusal f) ∧
      p.host.dispatcher = some which ∧ g.signal = Fault.segv ∧ (respond which g).recovered = true ∧
      .dispatcher which g (respond which g) ∈ (p.meet depth i).2 := by
  have hn : (p.meet depth i).2.countP Call.recovers ≠ 0 := by
    intro hz
    rw [meet_recovered, hz] at h
    exact h (UInt64.add_zero _)
  obtain ⟨call, hc, hr⟩ := List.countP_pos_iff.mp (Nat.pos_of_ne_zero hn)
  obtain ⟨which, g, response, rfl, hrec⟩ := Call.recovers_iff.mp hr
  cases i with
  | request request => cases hc
  | occurrence o =>
      obtain ⟨hw, hs, hd, respond, refusal, f, rfl, rfl⟩ := Host.asked_of_occur hc
      exact ⟨hd, which, respond, refusal, f, g, rfl, hw, hs, hrec, hc⟩

/-- Who is asked about faults, and which answers were counted, after the incidents `is` with their calls. -/
structure Tallies (depth : Nat) (p : Process δ) (is : List (Incident δ)) (calls : List (Call δ)) : Prop where
  first : p.host.dispatcher = is.findSome? Incident.dispatcher?
  unset : ∀ which, (p.host.setDispatcher which).1 = true ↔ ∀ i ∈ is, i.dispatcher? = none
  asks : ∀ which respond refusal room f, p.host.dispatcher = some which → f.signal = Fault.segv →
    ∃ rest, (p.host.trap respond refusal (room + 1) f).calls = .dispatcher which f (respond which f) :: rest
  counts : ∀ which respond refusal room f, p.host.dispatcher = some which → f.signal = Fault.segv →
    (respond which f).recovered = true →
      (p.host.trap respond refusal (room + 1) f).host.recovered = p.host.recovered + 1
  asked : ∀ which g response, .dispatcher which g response ∈ calls →
    p.host.dispatcher = some which ∧ g.signal = Fault.segv
  total : p.host.recovered.toNat = calls.countP Call.recovers % 18446744073709551616
  cause : ∀ i, (p.meet depth i).1.host.recovered ≠ p.host.recovered →
    p.host.disposition.Traps ∧ ∃ which respond refusal f g, i = .occurrence (.fault respond refusal f) ∧
      p.host.dispatcher = some which ∧ g.signal = Fault.segv ∧ (respond which g).recovered = true ∧
      .dispatcher which g (respond which g) ∈ (p.meet depth i).2
  redirected : ∀ which held (respond : δ → Fault → Response) refusal room f target,
    p.host.dispatcher = some which → respond which = (p.found held).respond → p.host.disposition.Traps →
      f.signal = Fault.segv → (p.found held).Redirects f target →
        (p.host.deliver respond refusal (room + 1) f).host.recovered = p.host.recovered + 1 ∧
          (p.host.deliver respond refusal (room + 1) f).rip.toInt = target.toNat
  declined : ∀ which held (respond : δ → Fault → Response) refusal room f,
    p.host.dispatcher = some which → respond which = (p.found held).respond →
      (∀ target, p.host.disposition.Traps → f.signal = Fault.segv → ¬ (p.found held).Redirects f target) →
        (p.host.deliver respond refusal (room + 1) f).host.recovered = p.host.recovered ∧
          (p.host.deliver respond refusal (room + 1) f).rip = f.rip

/-- Whatever happens, the dispatcher that was set first is the one that is asked, and the count is the number of
times that it recovered a fault. A registry does so just where the fault is redirected. -/
theorem recoveries_counted (depth : Nat) (registry : Registry) (is : List (Incident δ)) {p : Process δ}
    {calls : List (Call δ)} (h : Process.meetAll depth ⟨registry, {}⟩ is = (p, calls)) :
    p.Tallies depth is calls := by
  obtain ⟨rfl, rfl⟩ := Prod.mk.inj h
  have hd := meetAll_dispatcher ⟨registry, {}⟩ depth is
  rw [Option.none_or] at hd
  constructor
  case first => exact hd
  case unset =>
    intro which
    rw [Host.setDispatcher_eq, hd, Option.isNone_iff_eq_none, List.findSome?_eq_none_iff]
  case asks =>
    intro which respond refusal room f hw hf
    exact Host.trap_asks hf hw
  case counts =>
    intro which respond refusal room f hw hf hr
    rw [Host.trap_of_recovered hf (by rw [Host.consult_of_dispatcher hw, hr])]
  case asked =>
    intro which g response hc
    exact asked_of_meetAll hc
  case total =>
    rw [meetAll_recovered]
    simp
  case cause =>
    intro i hi
    exact recovery_of_ne hi
  case redirected =>
    intro which held respond refusal room f target hw hr hp hf ht
    rw [Host.deliver_of_traps hp, Host.trap_of_redirects hf hw hr ht room]
    exact ⟨rfl, Address.toInt_toInt64 ht.2.2⟩
  case declined =>
    intro which held respond refusal room f hw hr hn
    apply Host.deliver_of_decline
    intro hp hf
    rw [Host.consult_of_not_redirects hw hr fun target => hn target hp hf]

theorem recoveries_counted_beside_requests :
    ∃ (is : List (Incident Bool)) (p : Process Bool), (Process.meetAll 1 ⟨.new ⟨true, 1, 2⟩, {}⟩ is).1 = p ∧
      p.host.dispatcher = some true ∧ (p.host.setDispatcher false).1 = false ∧ p.host.recovered.toNat = 1 ∧
      ∀ respond : Bool → Fault → Response, respond true = (p.found false).respond →
        (p.host.deliver respond none 1 ⟨11, 0, 0x1004⟩).host.recovered = p.host.recovered + 1 ∧
          (p.host.deliver respond none 1 ⟨11, 0, 0x1004⟩).rip.toInt = 0x1008 := by
  have h := recoveries_counted 1 (.new ⟨true, 1, 2⟩)
    [.occurrence (.setDispatcher true), .occurrence (.setDispatcher false), .occurrence (.install none),
      .occurrence (.fault (fun which _ => ⟨which, 7⟩) none ⟨11, 0, 5⟩),
      .occurrence (.fault (fun _ f => f.decline) none ⟨7, 0, 5⟩), .occurrence (.install (some ⟨12⟩)),
      .request (.register ⟨0x1000, 0x20, [⟨4, 8⟩]⟩)] (Prod.eta _).symm
  refine ⟨_, _, rfl, h.first, ?_, h.total, ?_⟩
  · rw [Bool.eq_false_iff, Ne, h.unset false]
    simp [Incident.dispatcher?, Occurrence.dispatcher?]
  · intro respond hw
    refine h.redirected true false respond none 0 ⟨11, 0, 0x1004⟩ 0x1008 h.first hw Disposition.traps_trap rfl
      ⟨by decide, ?_, by decide⟩
    decide +kernel

end Process

end FaultRecovery
