import FaultRecovery.Proofs.Spinlock.Exclusion
import Mathlib.Data.List.Induction

namespace FaultRecovery.Spinlock

variable {α : Type}

/-- The thread after so many of its tries of a bounded attempt have missed. -/
def Thread.tried (t : Thread α) (attempts : Nat) : Nat → Thread α
  | 0 => t
  | misses + 1 => { t with phase := .trying (attempts - (misses + 1)) }

namespace Thread

variable {t : Thread α} {attempts misses : Nat}

theorem tried_holds : (t.tried attempts misses).holds = t.holds := by
  cases misses <;> rfl

theorem tried_done : (t.tried attempts misses).done = t.done := by
  cases misses <;> rfl

variable [Add α] {m : Spinlock α} {rest : List (Instr α)}

theorem step_tried (hp : t.program = .tryBounded attempts :: rest) (hf : t.phase = .fresh) :
    (t.tried attempts misses).step m = bounded m (t.tried attempts misses) (attempts - misses) := by
  cases misses with
  | zero => simp only [tried, step, hp, hf, Nat.sub_zero]
  | succ misses => simp only [tried, step, hp]

theorem step_tried_last (hp : t.program = .tryBounded attempts :: rest) (hf : t.phase = .fresh) :
    (t.tried attempts attempts).step m = (m, t.done, .silent) := by
  rw [step_tried hp hf, Nat.sub_self, bounded, tried_done]

theorem step_tried_of_held (hp : t.program = .tryBounded attempts :: rest) (hf : t.phase = .fresh)
    (hk : misses < attempts) (hm : m.locked = true) :
    (t.tried attempts misses).step m = (m, t.tried attempts (misses + 1), .exchange false) := by
  obtain ⟨left, rfl⟩ := Nat.exists_eq_add_of_lt hk
  rw [step_tried hp hf, show misses + left + 1 - misses = left + 1 by omega, bounded]
  have hleft : misses + left + 1 - (misses + 1) = left := by omega
  cases misses <;> simp only [attempt, Spinlock.tryLock, hm, tried, hleft, if_true]

theorem step_tried_of_free (hp : t.program = .tryBounded attempts :: rest) (hf : t.phase = .fresh)
    (hk : misses < attempts) (hm : m.locked = false) :
    (t.tried attempts misses).step m = (⟨true, m.value⟩, { t.done with holds := true }, .exchange true) := by
  obtain ⟨left, rfl⟩ := Nat.exists_eq_add_of_lt hk
  rw [step_tried hp hf, show misses + left + 1 - misses = left + 1 by omega, bounded]
  simp [attempt, Spinlock.tryLock, hm, tried_done]

end Thread

namespace Crowd

variable {c : Crowd α} {i j attempts : Nat} {t : Thread α} {owner : Option Nat} {schedule : List Nat}

theorem run_append [Add α] (c : Crowd α) (before after : List Nat) :
    (c.run (before ++ after)).1 = ((c.run before).1.run after).1 := by
  induction before generalizing c with
  | nil => rfl
  | cons i before ih => exact ih (c.step i).1

theorem run_concat [Add α] (c : Crowd α) (schedule : List Nat) (j : Nat) :
    (c.run (schedule ++ [j])).1 = ((c.run schedule).1.step j).1 := run_append c schedule [j]

theorem step_threads_of_ne [Add α] (c : Crowd α) (h : j ≠ i) : (c.step j).1.threads[i]? = c.threads[i]? := by
  cases hj : c.threads[j]? with
  | none => rw [step_of_none hj]
  | some u => rw [step_of_some hj, getElem?_set hj, if_neg h]

theorem cases_of_concat_eq {earlier later : List Nat} (h : schedule ++ [j] = earlier ++ i :: later) :
    earlier = schedule ∧ j = i ∨ ∃ later, schedule = earlier ++ i :: later := by
  obtain rfl | ⟨later, k, rfl⟩ := List.eq_nil_or_concat later
  · obtain ⟨hs, hj⟩ := List.append_inj' h rfl
    exact .inl ⟨hs.symm, List.singleton_inj.mp hj⟩
  · rw [List.concat_eq_append, ← List.cons_append, ← List.append_assoc] at h
    exact .inr ⟨later, List.append_inj_left' h rfl⟩

/-- All that the thread has done are tries of its bounded attempt, and each met the lock held. -/
structure Missed [Add α] (c : Crowd α) (i attempts : Nat) (t : Thread α) (schedule : List Nat) : Prop where
  turns_le : schedule.count i ≤ attempts
  thread : (c.run schedule).1.threads[i]? = some (t.tried attempts (schedule.count i))
  each : ∀ earlier later, schedule = earlier ++ i :: later → (c.run earlier).1.mutex.locked = true ∧
    ((c.run earlier).1.step i).1.mutex = (c.run earlier).1.mutex ∧
    ((c.run earlier).1.step i).2 = .exchange false

/-- What has come of a bounded attempt that is the thread's next instruction when the schedule begins. -/
inductive Trial [Add α] (c : Crowd α) (i attempts : Nat) (t : Thread α) (schedule : List Nat) : Prop where
  | going (hm : c.Missed i attempts t schedule)
  /-- One more try, that the bound allows, met the lock free. The thread goes on with the guard. -/
  | took (before after : List Nat) (hs : schedule = before ++ i :: after) (hm : c.Missed i attempts t before)
      (hk : before.count i < attempts) (hl : (c.run before).1.mutex.locked = false) (hh : t.holds = false)
      (hi : (c.run before).1.step i = (⟨⟨true, (c.run before).1.mutex.value⟩,
        (c.run before).1.threads.set i { t.done with holds := true }⟩, .exchange true))
  /-- Every try the bound allows met the lock held. The thread goes on without, and nothing else changed. -/
  | gaveUp (before after : List Nat) (hs : schedule = before ++ i :: after) (hm : c.Missed i attempts t before)
      (hk : before.count i = attempts)
      (hi : (c.run before).1.step i = (⟨(c.run before).1.mutex, (c.run before).1.threads.set i t.done⟩, .silent))

namespace Missed

variable [Add α] {rest : List (Instr α)}

theorem start (hi : c.threads[i]? = some t) : c.Missed i attempts t [] where
  turns_le := Nat.zero_le _
  thread := hi
  each earlier later h := by simp at h

theorem concat_of_ne (h : c.Missed i attempts t schedule) (hj : j ≠ i) :
    c.Missed i attempts t (schedule ++ [j]) := by
  have hcount : (schedule ++ [j]).count i = schedule.count i := by
    rw [List.count_append, List.count_singleton, if_neg (by simpa using hj), Nat.add_zero]
  constructor
  · exact hcount ▸ h.turns_le
  · rw [run_concat, step_threads_of_ne _ hj, h.thread, hcount]
  · intro earlier later hs
    obtain ⟨-, hji⟩ | ⟨later, hs⟩ := cases_of_concat_eq hs
    · exact absurd hji hj
    · exact h.each earlier later hs

theorem concat_self (h : c.Missed i attempts t schedule) (hk : schedule.count i < attempts)
    (hm : (c.run schedule).1.mutex.locked = true)
    (hi : (c.run schedule).1.step i = (⟨(c.run schedule).1.mutex,
      (c.run schedule).1.threads.set i (t.tried attempts (schedule.count i + 1))⟩, .exchange false)) :
    c.Missed i attempts t (schedule ++ [i]) := by
  have hcount : (schedule ++ [i]).count i = schedule.count i + 1 := by
    rw [List.count_append, List.count_singleton_self]
  constructor
  · rw [hcount]
    exact hk
  · rw [run_concat, hi, hcount, getElem?_set h.thread, if_pos rfl]
  · intro earlier later hs
    obtain ⟨rfl, -⟩ | ⟨later, hs⟩ := cases_of_concat_eq hs
    · rw [hi]
      exact ⟨hm, rfl, rfl⟩
    · exact h.each earlier later hs

theorem trial (h : c.Missed i attempts t schedule) (hc : c.OwnedBy owner)
    (hp : t.program = .tryBounded attempts :: rest) (hf : t.phase = .fresh) :
    c.Trial i attempts t (schedule ++ [i]) := by
  have hstep := step_of_some h.thread
  obtain hk | hk := Nat.lt_or_eq_of_le h.turns_le
  · cases hm : (c.run schedule).1.mutex.locked with
    | true =>
        rw [Thread.step_tried_of_held hp hf hk hm] at hstep
        exact .going (h.concat_self hk hm hstep)
    | false =>
        rw [Thread.step_tried_of_free hp hf hk hm] at hstep
        refine .took schedule [] rfl h hk hm ?_ hstep
        -- Who holds the guard would keep the lock from being free.
        obtain ⟨owner', hr⟩ := hc.run schedule
        have hown := hr.owner_iff h.thread
        rw [hr.not_locked_iff.mp hm, Thread.tried_holds] at hown
        simpa using hown
  · rw [hk, Thread.step_tried_last hp hf] at hstep
    exact .gaveUp schedule [] rfl h hk hstep

end Missed

theorem OwnedBy.trial [Add α] (h : c.OwnedBy owner) {rest : List (Instr α)} (hi : c.threads[i]? = some t)
    (hp : t.program = .tryBounded attempts :: rest) (hf : t.phase = .fresh) (schedule : List Nat) :
    c.Trial i attempts t schedule := by
  -- The induction goes from the end, as the outcome is told by the last step of the thread that matters.
  induction schedule using List.reverseRecOn with
  | nil => exact .going (.start hi)
  | append_singleton schedule j ih =>
      cases ih with
      | going hm =>
          by_cases hj : j = i
          · exact hj ▸ hm.trial h hp hf
          · exact .going (hm.concat_of_ne hj)
      | took before after hs hm hk hl hh hstep =>
          exact .took before (after ++ [j]) (by simp [hs]) hm hk hl hh hstep
      | gaveUp before after hs hm hk hstep =>
          exact .gaveUp before (after ++ [j]) (by simp [hs]) hm hk hstep

end Crowd

end FaultRecovery.Spinlock
