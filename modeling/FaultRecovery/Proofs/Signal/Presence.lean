import FaultRecovery.Proofs.Signal.Forwarding
import FaultRecovery.Proofs.Signal.Installation

namespace FaultRecovery

variable {δ : Type}

namespace Host

variable {p q : Host δ} {respond : δ → Fault → Response} {refusal : Option Errno} {f : Fault} {d : Delivery δ}
  {depth : Nat} {o : Occurrence δ} {os : List (Occurrence δ)} {gone : Prop}

/-- Others keep off the disposition while the trap handler counts as installed, and the operating system refuses
nothing but installations. -/
def Undisturbed (p : Host δ) : Occurrence δ → Prop
  | .setDisposition _ => p.installed = false
  | .remove refusal | .fault _ refusal _ => refusal = none
  | .install _ | .setDispatcher _ => True

/-- A fault gets to the trap handler and is not recovered, and what was there before is no function. -/
def GivesWay (p : Host δ) : Occurrence δ → Prop
  | .fault respond _ f => p.disposition.Traps ∧ f.signal = Fault.segv ∧
      (p.consult respond f).1.recovered = false ∧ p.saved.Passive
  | .install _ | .remove _ | .setDispatcher _ | .setDisposition _ => False

def NotInstalling (p : Host δ) : Occurrence δ → Prop
  | .install refusal => (p.install refusal).1 ≠ .done
  | .remove _ | .setDispatcher _ | .setDisposition _ | .fault .. => True

/-- A fault made the trap handler give way, and no installation has been successful since. -/
def GivenWay (depth : Nat) (p : Host δ) : List (Occurrence δ) → Prop
  | [] => False
  | o :: os =>
      (p.GivesWay o ∧ (p.occur depth o).1.Throughout NotInstalling depth os) ∨ (p.occur depth o).1.GivenWay depth os

theorem Throughout.orderly (h : p.Throughout Undisturbed depth os)
    (hn : ∀ d, .setDisposition d ∈ os → d.handler ≠ .trap) : ∀ o ∈ os, o.Orderly := by
  induction os generalizing p with
  | nil => simp
  | cons o os ih =>
      obtain ⟨hc, h⟩ := h
      refine List.forall_mem_cons.mpr ⟨?_, ih h fun d hd => hn d (List.mem_cons_of_mem o hd)⟩
      cases o with
      | remove refusal => exact hc
      | setDisposition d => exact hn d List.mem_cons_self
      | install | setDispatcher | fault => trivial

theorem installed_of_throughout (hi : p.installed = false) (h : p.Throughout NotInstalling depth os) :
    (p.history depth os).1.installed = false := by
  apply h.keeps (P := fun q => q.installed = false) hi
  intro q o hq ho
  rw [Bool.eq_false_iff]
  intro hn
  rcases installed_cases hn with ⟨hp, -⟩ | ⟨refusal, rfl, hd⟩
  · cases hq.symm.trans hp
  · exact ho hd

theorem Replaces.throughout_notInstalling {s : Disposition} (h : p.Replaces s) (ho : ∀ o ∈ os, o.removes = false)
    (depth : Nat) : p.Throughout NotInstalling depth os := by
  induction os generalizing p with
  | nil => trivial
  | cons o os ih =>
      obtain ⟨hc, ho⟩ := List.forall_mem_cons.mp ho
      refine ⟨?_, ih (h.occur hc depth) ho⟩
      cases o with
      | install refusal =>
          intro hd
          cases h.installed.symm.trans (install_eq_done_iff.mp hd).1
      | remove | setDispatcher | setDisposition | fault => trivial

theorem Handling.disposition_eq (h : p.Handling respond refusal depth f d) :
    d.host.disposition = p.disposition ∨
      (f.signal = Fault.segv ∧ (p.consult respond f).1.recovered = false ∧ p.saved.Passive) := by
  induction h with
  | exhausted | foreign | recovered => exact .inl rfl
  | handedOn hf hr hh =>
      cases hh with
      | siginfo | plain => exact .inl rfl
      | restored hs => exact .inr ⟨hf, hr, hs⟩
  | looped _ _ hs _ ih =>
      rcases ih with he | ⟨-, -, hx⟩
      · exact .inl he
      · cases hs.1.symm.trans hx.1

theorem deliver_of_givesWay (h : p.GivesWay (.fault respond none f)) (room : Nat) :
    (p.deliver respond none (room + 1) f).host = p.setDisposition p.saved := by
  obtain ⟨hd, hf, hr, hs⟩ := h
  rw [deliver_of_traps hd, trap_of_handedOn hf hr (.restored hs)]
  rfl

theorem disposition_deliver (hn : ¬ p.GivesWay (.fault respond refusal f)) (depth : Nat) :
    (p.deliver respond refusal depth f).host.disposition = p.disposition := by
  by_cases hd : p.disposition.Traps
  · rw [deliver_of_traps hd]
    exact (p.trap_handling respond refusal depth f).disposition_eq.resolve_right fun h => hn ⟨hd, h⟩
  · rw [deliver_of_not_traps hd]

/-- While it counts as installed, the trap handler is in place unless it has gone, and then what it took the place of
is there instead. -/
structure Standing (p : Host δ) (gone : Prop) : Prop where
  present : p.installed = true → ¬ gone → p.disposition = .trap
  replaced : p.installed = true → gone → p.disposition = p.saved ∧ p.saved.Passive

theorem standing_of_not_installed (hi : p.installed = false) : p.Standing gone :=
  ⟨fun h => Bool.noConfusion (hi.symm.trans h), fun h => Bool.noConfusion (hi.symm.trans h)⟩

namespace Standing

theorem congr {lost : Prop} (h : p.Standing gone) (hg : gone ↔ lost) : p.Standing lost :=
  propext hg ▸ h

theorem of_same (h : p.Standing gone) (hi : q.installed = p.installed) (hs : q.saved = p.saved)
    (hd : q.disposition = p.disposition) : q.Standing gone := by
  constructor
  · rw [hi, hd]
    exact h.present
  · rw [hi, hs, hd]
    exact h.replaced

theorem install (h : p.Standing gone) (refusal : Option Errno) :
    (p.install refusal).2.1.Standing (gone ∧ (p.install refusal).1 ≠ .done) := by
  by_cases hd : (p.install refusal).1 = .done
  · obtain ⟨hi, rfl⟩ := install_eq_done_iff.mp hd
    rw [install_of_not_installed hi]
    exact ⟨fun _ _ => rfl, fun _ hg => absurd rfl hg.2⟩
  · rw [install_of_ne_done hd, and_iff_left hd]
    exact h

theorem deliver (h : p.Standing gone) (respond : δ → Fault → Response) (room : Nat) (f : Fault) :
    (p.deliver respond none (room + 1) f).host.Standing (p.GivesWay (.fault respond none f) ∨ gone) := by
  by_cases hg : p.GivesWay (.fault respond none f)
  · rw [deliver_of_givesWay hg]
    exact ⟨fun _ hn => absurd (.inl hg) hn, fun _ _ => ⟨rfl, hg.2.2.2⟩⟩
  · rw [or_iff_right hg]
    have hk := p.deliver_kept respond none (room + 1) f
    exact h.of_same hk.installed hk.saved (disposition_deliver hg (room + 1))

theorem occur (h : p.Standing gone) (ho : p.Undisturbed o) (room : Nat) :
    (p.occur (room + 1) o).1.Standing (p.GivesWay o ∨ gone ∧ p.NotInstalling o) := by
  cases o with
  | install refusal => exact (h.install refusal).congr (by simp only [GivesWay, NotInstalling, false_or])
  | remove refusal => exact standing_of_not_installed (p.installed_remove refusal)
  | setDispatcher which =>
      rw [Host.occur, setDispatcher_eq]
      exact (h.congr (by simp only [GivesWay, NotInstalling, false_or, and_true])).of_same rfl rfl rfl
  | setDisposition d => exact standing_of_not_installed ho
  | fault respond refusal f =>
      obtain rfl : refusal = none := ho
      exact (h.deliver respond room f).congr (by simp only [NotInstalling, and_true])

theorem history (h : p.Standing gone) {room : Nat} (ho : p.Throughout Undisturbed (room + 1) os) :
    (p.history (room + 1) os).1.Standing
      (p.GivenWay (room + 1) os ∨ gone ∧ p.Throughout NotInstalling (room + 1) os) := by
  induction os generalizing p gone with
  | nil => exact h.congr (by simp only [GivenWay, Throughout, false_or, and_true])
  | cons o os ih =>
      -- What is gone at the end went before `o` or at `o`, and nothing brought it back, or it goes later.
      refine (ih (h.occur ho.1 room) ho.2).congr ?_
      rw [GivenWay, Throughout, or_and_right, and_assoc, or_left_comm, or_assoc]

theorem handler_eq_trap_iff (h : p.Standing gone) (hi : p.installed = true) :
    p.disposition.handler = .trap ↔ ¬ gone := by
  constructor
  · intro hd hg
    obtain ⟨he, hs⟩ := h.replaced hi hg
    rw [he] at hd
    exact hs.2.ne_trap hd
  · intro hn
    rw [h.present hi hn]
    rfl

end Standing

theorem standing_of_history (hu : ({} : Host δ).Throughout Undisturbed (depth + 1) os) :
    (({} : Host δ).history (depth + 1) os).1.Standing (({} : Host δ).GivenWay (depth + 1) os) := by
  have h : ({} : Host δ).Standing False := standing_of_not_installed rfl
  exact (h.history hu).congr (or_iff_left And.left)

/-- The trap handler counts as installed, but `d` is there again. It stays so until a removal, and the next
installation that is granted after it brings the trap handler back. -/
structure Aside (depth : Nat) (q : Host δ) (d : Disposition) : Prop extends q.Replaces d where
  disposition : q.disposition = d
  repeated : ∀ refusal, q.install refusal = (.repeated, q, [])
  cleared : (q.remove none).1.installed = false
  back : ∀ later r, (q.remove none).1.Throughout NotInstalling (depth + 1) later →
    ((q.remove none).1.history (depth + 1) later).1 = r →
      (r.install none).1 = .done ∧ (r.install none).2.1.disposition = .trap ∧ (r.install none).2.1.installed = true

theorem Replaces.aside {s : Disposition} (h : q.Replaces s) (hd : q.disposition = s) (depth : Nat) :
    q.Aside depth s where
  toReplaces := h
  disposition := hd
  repeated _ := install_of_installed h.installed
  cleared := q.installed_remove none
  back := by
    rintro later r hl rfl
    have hr := installed_of_throughout (q.installed_remove none) hl
    rw [install_of_not_installed hr]
    exact ⟨rfl, rfl, rfl⟩

theorem Standing.aside (h : p.Standing gone) (hi : p.installed = true) (hg : gone)
    (hu : p.Throughout Undisturbed (depth + 1) os) (ho : ∀ o ∈ os, o.removes = false) :
    (p.history (depth + 1) os).1.Aside depth p.saved := by
  have hr : p.Replaces p.saved := ⟨hi, rfl⟩
  have hq := hr.history ho (depth + 1)
  refine hq.aside ?_ depth
  rw [← hq.saved]
  exact ((h.history hu).replaced hq.installed (.inr ⟨hg, hr.throughout_notInstalling ho (depth + 1)⟩)).1

/-- The trap handler is in place just while it counts as installed and has not given way, unless others put it there
while it does not. Once it has given way, what it took the place of stays there until a removal. -/
theorem in_place_unless_given_way (depth : Nat) (hu : ({} : Host δ).Throughout Undisturbed (depth + 1) os)
    (hp : (({} : Host δ).history (depth + 1) os).1 = p) :
    ((p.installed = true ∨ ∀ d, .setDisposition d ∈ os → d.handler ≠ .trap) →
        (p.disposition.handler = .trap ↔ p.installed = true ∧ ¬ ({} : Host δ).GivenWay (depth + 1) os)) ∧
      (p.installed = true → ¬ ({} : Host δ).GivenWay (depth + 1) os → p.disposition = .trap) ∧
      (p.installed = true → ({} : Host δ).GivenWay (depth + 1) os → p.saved.Passive ∧
        ∀ after q, p.Throughout Undisturbed (depth + 1) after → (∀ o ∈ after, o.removes = false) →
          (p.history (depth + 1) after).1 = q → q.Aside depth p.saved) := by
  subst hp
  have h := standing_of_history hu
  refine ⟨?_, h.present, ?_⟩
  · intro ho
    cases hi : (({} : Host δ).history (depth + 1) os).1.installed with
    | true => simpa only [true_and] using h.handler_eq_trap_iff hi
    | false =>
        have hn := ho.resolve_left (by simp [hi])
        have hd := (settled_new.history (hu.orderly hn) (depth + 1)).away hi
        exact iff_of_false hd fun hc => Bool.noConfusion hc.1
  · intro hi hg
    refine ⟨(h.replaced hi hg).2, ?_⟩
    rintro after q ha hb rfl
    exact h.aside hi hg ha hb

theorem in_place_again_after_removal :
    ∃ (os after later : List (Occurrence Bool)) (p q r : Host Bool), (({} : Host Bool).history 1 os).1 = p ∧
      p.installed = true ∧ p.disposition.handler ≠ .trap ∧ p.recovered = 1 ∧ (p.history 1 after).1 = q ∧
      q.disposition = .ignore ∧ q.install none = (.repeated, q, []) ∧
      ((q.remove none).1.history 1 later).1 = r ∧ r.disposition = .plain 0x40 ∧
      (r.install none).1 = .done ∧ (r.install none).2.1.disposition = .trap := by
  have hu : ({} : Host Bool).Throughout Undisturbed 1 [.setDisposition .ignore, .install none, .setDispatcher true,
      .fault (fun _ _ => ⟨true, 9⟩) none ⟨11, 0, 4⟩, .fault (fun _ f => f.decline) none ⟨11, 0, 5⟩] :=
    ⟨rfl, trivial, trivial, rfl, rfl, trivial⟩
  have hg : ({} : Host Bool).GivenWay 1 [.setDisposition .ignore, .install none, .setDispatcher true,
      .fault (fun _ _ => ⟨true, 9⟩) none ⟨11, 0, 4⟩, .fault (fun _ f => f.decline) none ⟨11, 0, 5⟩] :=
    .inr (.inr (.inr (.inr (.inl ⟨⟨Disposition.traps_trap, rfl, rfl, rfl, .inr rfl⟩, trivial⟩))))
  obtain ⟨hd, -, hs⟩ := in_place_unless_given_way 0 hu rfl
  have hq := (hs rfl hg).2 [.install none, .fault (fun _ _ => ⟨true, 9⟩) none ⟨11, 0, 4⟩] _
    ⟨trivial, rfl, trivial⟩ (by simp [Occurrence.removes]) rfl
  obtain ⟨hr, ht, -⟩ := hq.back [.setDisposition (.plain 0x40), .install (some ⟨12⟩)] _
    ⟨trivial, Installation.noConfusion, trivial⟩ rfl
  refine ⟨_, _, _, _, _, _, rfl, rfl, ?_, rfl, rfl, hq.disposition, hq.repeated none, rfl, rfl, hr, ht⟩
  rw [Ne, hd (.inl rfl)]
  exact fun hc => hc.2 hg

/-- Others put the trap handler there while it does not count as installed. And it does not give way to a signal that
it is not meant for. -/
theorem trap_in_place_otherwise :
    (({} : Host Unit).Throughout Undisturbed 1 [.install none, .remove none, .setDisposition .trap] ∧
        ¬ ((({} : Host Unit).history 1 [.install none, .remove none, .setDisposition .trap]).1.disposition = .trap ↔
          (({} : Host Unit).history 1 [.install none, .remove none, .setDisposition .trap]).1.installed = true ∧
            ¬ ({} : Host Unit).GivenWay 1 [.install none, .remove none, .setDisposition .trap])) ∧
      ({} : Host Unit).Throughout Undisturbed 1 [.install none, .fault (fun _ f => f.decline) none ⟨7, 0, 0x1000⟩] ∧
      (({} : Host Unit).history 1 [.install none]).1.disposition.Traps ∧
      (({} : Host Unit).history 1 [.install none]).1.saved = .default ∧
      (({} : Host Unit).history 1
        [.install none, .fault (fun _ f => f.decline) none ⟨7, 0, 0x1000⟩]).1.disposition = .trap := by
  refine ⟨⟨⟨trivial, rfl, rfl, trivial⟩, ?_⟩, ⟨trivial, rfl, trivial⟩, Disposition.traps_trap, rfl, rfl⟩
  intro h
  exact Bool.noConfusion (h.mp rfl).1

end Host

end FaultRecovery
