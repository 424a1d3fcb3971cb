import FaultRecovery.Spinlock.Crowd
import Mathlib.Algebra.BigOperators.Group.List.Basic

namespace FaultRecovery.Spinlock

variable {α : Type}

def Access.addend? : Access α → Option α
  | .added n => some n
  | .silent | .exchange _ | .load _ | .store | .read _ => none

/-- The thread goes on and is no nearer to the value: it holds the lock just if it did, and has not read. -/
structure Thread.Passes (t next : Thread α) : Prop where
  holds_eq : next.holds = t.holds
  phase : next.phase = t.phase ∨ ∀ seen, next.phase ≠ .adding seen

/-- All that a step of a thread can do to the lock and to the thread. -/
inductive Move [Add α] (m : Spinlock α) (t : Thread α) : Spinlock α → Thread α → Access α → Prop where
  | silent {next : Thread α} (hp : t.Passes next) : Move m t m next .silent
  | looked {next : Thread α} (hp : t.Passes next) : Move m t m next (.load m.locked)
  | missed {next : Thread α} (hm : m.locked = true) (hp : t.Passes next) : Move m t m next (.exchange false)
  | took (hm : m.locked = false) : Move m t ⟨true, m.value⟩ { t.done with holds := true } (.exchange true)
  | read (hh : t.holds = true) : Move m t m { t with phase := .adding m.value } (.read m.value)
  | added {seen n : α} (hp : t.phase = .adding seen) : Move m t { m with value := seen + n } t.done (.added n)
  | gaveBack (hh : t.holds = true) : Move m t m.unlock { t.done with holds := false } .store

namespace Thread

theorem passes_self (t : Thread α) : t.Passes t := ⟨rfl, .inl rfl⟩

theorem passes_phase (t : Thread α) {phase : Phase α} (hp : ∀ seen, phase ≠ .adding seen) :
    t.Passes { t with phase := phase } := ⟨rfl, .inr hp⟩

theorem passes_done (t : Thread α) : t.Passes t.done := ⟨rfl, .inr fun _ => nofun⟩

theorem attempt_move [Add α] (m : Spinlock α) {t missed : Thread α} (hp : t.Passes missed) :
    Move m t (attempt m t missed).1 (attempt m t missed).2.1 (attempt m t missed).2.2 := by
  cases hm : m.locked with
  | false =>
      simp only [attempt, tryLock, hm]
      exact .took hm
  | true =>
      simp only [attempt, tryLock, hm]
      exact .missed hm hp

theorem bounded_move [Add α] (m : Spinlock α) (t : Thread α) (attempts : Nat) :
    Move m t (bounded m t attempts).1 (bounded m t attempts).2.1 (bounded m t attempts).2.2 := by
  cases attempts with
  | zero => exact .silent t.passes_done
  | succ attempts => exact attempt_move m (t.passes_phase fun _ => nofun)

theorem step_move [Add α] (m : Spinlock α) (t : Thread α) :
    Move m t (t.step m).1 (t.step m).2.1 (t.step m).2.2 := by
  unfold step
  split
  · exact .silent t.passes_self
  · split
    · exact .looked t.passes_self
    · exact .looked (t.passes_phase fun _ => nofun)
  · exact attempt_move m (t.passes_phase fun _ => nofun)
  · exact attempt_move m t.passes_done
  · exact bounded_move m t _
  · exact bounded_move m t _
  · rename_i hp
    exact .added hp
  · split
    · rename_i hh
      exact .read hh
    · exact .silent t.passes_done
  · split
    · rename_i hh
      exact .gaveBack hh
    · exact .silent t.passes_done

end Thread

namespace Crowd

variable {c : Crowd α} {i j : Nat} {t next : Thread α} {owner : Option Nat}

def Holds (c : Crowd α) (i : Nat) : Prop := ∃ t, c.threads[i]? = some t ∧ t.holds = true

/-- Nobody holds the lock but the owner, of whom there is one just while the flag is set. -/
structure OwnedBy (c : Crowd α) (owner : Option Nat) : Prop where
  locked_eq : c.mutex.locked = owner.isSome
  holds_iff : ∀ i, c.Holds i ↔ owner = some i
  /-- What was read for an addition is what the value still is. -/
  current : ∀ (i : Nat) (t : Thread α) (seen : α), c.threads[i]? = some t → t.phase = .adding seen →
    t.holds = true ∧ seen = c.mutex.value

theorem getElem?_set (hi : c.threads[i]? = some t) (next : Thread α) (j : Nat) :
    (c.threads.set i next)[j]? = if i = j then some next else c.threads[j]? := by
  rw [List.getElem?_set, if_pos (List.getElem?_eq_some_iff.mp hi).1]

theorem holds_set_iff (hi : c.threads[i]? = some t) (m : Spinlock α) :
    Holds ⟨m, c.threads.set i next⟩ j ↔ if i = j then next.holds = true else c.Holds j := by
  simp only [Holds, getElem?_set hi]
  by_cases hj : i = j
  · simp [hj]
  · simp [hj]

theorem step_of_none [Add α] (hi : c.threads[i]? = none) : c.step i = (c, .silent) := by
  simp only [step, hi]

theorem step_of_some [Add α] (hi : c.threads[i]? = some t) :
    c.step i = (⟨(t.step c.mutex).1, c.threads.set i (t.step c.mutex).2.1⟩, (t.step c.mutex).2.2) := by
  simp only [step, hi]

theorem holds_iff_of_some (hi : c.threads[i]? = some t) : c.Holds i ↔ t.holds = true := by
  simp [Holds, hi]

namespace OwnedBy

theorem set (h : c.OwnedBy owner) (hi : c.threads[i]? = some t) {m : Spinlock α} {owner' : Option Nat}
    (hm : m.locked = owner'.isSome) (hh : next.holds = true ↔ owner' = some i)
    (ho : ∀ j, i ≠ j → (owner' = some j ↔ owner = some j))
    (hc : ∀ seen, next.phase = .adding seen → next.holds = true ∧ seen = m.value)
    (hv : ∀ j, i ≠ j → owner = some j → m.value = c.mutex.value) :
    OwnedBy ⟨m, c.threads.set i next⟩ owner' where
  locked_eq := hm
  holds_iff j := by
    rw [holds_set_iff hi]
    split
    · rename_i hj
      rw [hh, hj]
    · rename_i hj
      rw [ho j hj, h.holds_iff]
  current j u seen hj hs := by
    rw [getElem?_set hi] at hj
    split at hj
    · obtain rfl := Option.some.inj hj
      exact hc seen hs
    · rename_i hne
      obtain ⟨hu, rfl⟩ := h.current j u seen hj hs
      exact ⟨hu, (hv j hne ((h.holds_iff j).mp ⟨u, hj, hu⟩)).symm⟩

theorem owner_iff (h : c.OwnedBy owner) (hi : c.threads[i]? = some t) : t.holds = true ↔ owner = some i := by
  rw [← holds_iff_of_some hi, h.holds_iff]

theorem passes (h : c.OwnedBy owner) (hi : c.threads[i]? = some t) (hp : t.Passes next) :
    OwnedBy ⟨c.mutex, c.threads.set i next⟩ owner := by
  apply h.set hi h.locked_eq
  · rw [hp.holds_eq, h.owner_iff hi]
  · intro j _
    rfl
  · intro seen hs
    obtain he | hn := hp.phase
    · rw [hp.holds_eq]
      exact h.current i t seen hi (he ▸ hs)
    · exact absurd hs (hn seen)
  · intro j _ _
    rfl

theorem not_locked_iff (h : c.OwnedBy owner) : c.mutex.locked = false ↔ owner = none := by
  rw [h.locked_eq]
  cases owner <;> simp

theorem move [Add α] (h : c.OwnedBy owner) (hi : c.threads[i]? = some t) {m : Spinlock α} {access : Access α}
    (hm : Move c.mutex t m next access) : ∃ owner', OwnedBy ⟨m, c.threads.set i next⟩ owner' := by
  have hown := h.owner_iff hi
  cases hm with
  | silent hp | looked hp | missed _ hp => exact ⟨owner, h.passes hi hp⟩
  | took hm =>
      obtain rfl := h.not_locked_iff.mp hm
      exact ⟨some i, h.set hi rfl (by simp) (by simp) (fun _ => nofun) (fun _ _ => nofun)⟩
  | read hh =>
      refine ⟨owner, h.set hi h.locked_eq hown (fun _ _ => Iff.rfl) ?_ (fun _ _ _ => rfl)⟩
      rintro seen ⟨⟩
      exact ⟨hh, rfl⟩
  | @added seen n hp =>
      -- Whoever adds is the owner, so nobody else has read the old value.
      have hi' := hown.mp (h.current i t seen hi hp).1
      refine ⟨owner, h.set hi h.locked_eq hown (fun _ _ => Iff.rfl) (fun _ => nofun) ?_⟩
      intro j hj hoj
      exact absurd (Option.some.inj (hi'.symm.trans hoj)) hj
  | gaveBack hh =>
      obtain rfl := hown.mp hh
      refine ⟨none, h.set hi rfl (by simp) ?_ (fun _ => nofun) (fun _ _ _ => rfl)⟩
      intro j hj
      simp [hj]

theorem step [Add α] (h : c.OwnedBy owner) (i : Nat) : ∃ owner', (c.step i).1.OwnedBy owner' := by
  cases hi : c.threads[i]? with
  | none =>
      rw [step_of_none hi]
      exact ⟨owner, h⟩
  | some t =>
      rw [step_of_some hi]
      exact h.move hi (t.step_move c.mutex)

theorem run [Add α] (h : c.OwnedBy owner) (schedule : List Nat) : ∃ owner', (c.run schedule).1.OwnedBy owner' := by
  induction schedule generalizing c owner with
  | nil => exact ⟨owner, h⟩
  | cons i schedule ih =>
      obtain ⟨owner', h'⟩ := h.step i
      exact ih h'

theorem start (a : α) (programs : List (List (Instr α))) : OwnedBy ⟨.free a, programs.map .start⟩ none where
  locked_eq := rfl
  holds_iff i := by
    simp [Holds, Thread.start]
  current i t seen hi hs := by
    obtain ⟨program, -, rfl⟩ := List.mem_map.mp (List.mem_of_getElem? hi)
    cases hs

theorem unique (h : c.OwnedBy owner) (hi : c.Holds i) (hj : c.Holds j) : i = j :=
  Option.some.inj (((h.holds_iff i).mp hi).symm.trans ((h.holds_iff j).mp hj))

theorem locked_iff (h : c.OwnedBy owner) : c.mutex.locked = true ↔ ∃ i, c.Holds i := by
  simp only [h.locked_eq, h.holds_iff, Option.isSome_iff_exists]

end OwnedBy

/-- What was added, in the order in which the additions were completed. -/
def addends (trace : List (Nat × Access α)) : List α := trace.filterMap fun s => s.2.addend?

theorem addends_cons (i : Nat) (access : Access α) (trace : List (Nat × Access α)) :
    addends ((i, access) :: trace) = access.addend?.toList ++ addends trace := by
  cases h : access.addend? <;> simp [addends, h]

variable [AddMonoid α]

theorem OwnedBy.value_step (h : c.OwnedBy owner) (i : Nat) :
    (c.step i).1.mutex.value = c.mutex.value + (c.step i).2.addend?.toList.sum := by
  cases hi : c.threads[i]? with
  | none => simp [step_of_none hi, Access.addend?]
  | some t =>
      have hm := t.step_move c.mutex
      rw [step_of_some hi]
      generalize t.step c.mutex = s at hm
      obtain ⟨m, next, access⟩ := s
      cases hm with
      | added hp =>
          obtain ⟨-, rfl⟩ := h.current i t _ hi hp
          simp [Access.addend?]
      | silent | looked | missed | took | read | gaveBack => simp [Access.addend?]

theorem OwnedBy.value_run (h : c.OwnedBy owner) (schedule : List Nat) :
    (c.run schedule).1.mutex.value = c.mutex.value + (addends (c.run schedule).2).sum := by
  induction schedule generalizing c owner with
  | nil => exact (add_zero _).symm
  | cons i schedule ih =>
      obtain ⟨owner', h'⟩ := h.step i
      calc ((c.step i).1.run schedule).1.mutex.value
        _ = (c.step i).1.mutex.value + (addends ((c.step i).1.run schedule).2).sum := ih h'
        _ = c.mutex.value + (addends (c.run (i :: schedule)).2).sum := by
          rw [h.value_step, add_assoc, Crowd.run, addends_cons, List.sum_append]

end Crowd

end FaultRecovery.Spinlock
