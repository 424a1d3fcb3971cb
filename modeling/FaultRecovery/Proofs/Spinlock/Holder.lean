import FaultRecovery.Proofs.Spinlock.Workers

namespace FaultRecovery.Spinlock

variable {α : Type}

namespace Holder

variable {h : Holder α} {rest : List (Instr α)}

def Exact (h : Holder α) : Prop := h.mutex.locked = h.holds

def alone (h : Holder α) (program : List (Instr α)) : Crowd α := ⟨h.mutex, [⟨program, .fresh, h.holds⟩]⟩

def perform [Add α] (h : Holder α) : Instr α → Holder α
  | .lock | .tryLock => h.tryLock.2
  | .tryBounded attempts => (h.tryBounded attempts).2
  | .add n => (h.add n).2
  | .unlock => h.unlock

theorem tryBounded_zero (h : Holder α) : h.tryBounded 0 = (false, h) := rfl

theorem tryBounded_succ (h : Holder α) (attempts : Nat) : h.tryBounded (attempts + 1) = h.tryLock := by
  rw [tryBounded, tryLockBounded_succ, tryLock]

theorem tryLock_of_locked (hl : h.mutex.locked = true) : h.tryLock = (false, h) := by
  simp [tryLock, took, Spinlock.tryLock, hl]

theorem tryLock_of_free (hl : h.mutex.locked = false) : h.tryLock = (true, ⟨⟨true, h.mutex.value⟩, true⟩) := by
  simp [tryLock, took, Spinlock.tryLock, hl]

theorem tryBounded_of_locked (hl : h.mutex.locked = true) (attempts : Nat) : h.tryBounded attempts = (false, h) := by
  cases attempts with
  | zero => exact h.tryBounded_zero
  | succ attempts => rw [tryBounded_succ, tryLock_of_locked hl]

theorem exact_free (a : α) : Exact ⟨.free a, false⟩ := rfl

theorem Exact.tryLock (he : h.Exact) : h.tryLock.2.Exact := by
  cases hl : h.mutex.locked with
  | true =>
      rw [tryLock_of_locked hl]
      exact he
  | false =>
      rw [tryLock_of_free hl]
      rfl

theorem Exact.perform [Add α] (he : h.Exact) (instr : Instr α) : (h.perform instr).Exact := by
  cases instr with
  | lock | tryLock => exact he.tryLock
  | tryBounded attempts =>
      cases attempts with
      | zero => exact he
      | succ attempts =>
          rw [Holder.perform, tryBounded_succ]
          exact he.tryLock
  | add n =>
      rw [Holder.perform, add]
      split <;> exact he
  | unlock =>
      rw [Holder.perform, unlock]
      split
      · rfl
      · exact he

variable [Add α]

theorem exact_foldl_perform (a : α) (program : List (Instr α)) :
    (program.foldl perform ⟨.free a, false⟩).Exact :=
  List.foldlRecOn program perform (exact_free a) fun _ he instr _ => he.perform instr

theorem run_trying {m : Spinlock α} (hl : m.locked = true) (holds : Bool) (attempts left : Nat) :
    (Crowd.run ⟨m, [⟨.tryBounded attempts :: rest, .trying left, holds⟩]⟩ (List.replicate (left + 1) 0)).1 =
      ⟨m, [⟨rest, .fresh, holds⟩]⟩ := by
  obtain ⟨locked, value⟩ := m
  obtain rfl : locked = true := hl
  induction left with
  | zero => rfl
  | succ left ih => exact ih

theorem run_tryBounded (h : Holder α) (attempts : Nat) :
    ∃ turns, ((h.alone (.tryBounded attempts :: rest)).run (List.replicate turns 0)).1 =
      (h.tryBounded attempts).2.alone rest := by
  cases attempts with
  | zero => exact ⟨1, rfl⟩
  | succ attempts =>
      cases hl : h.mutex.locked with
      | true =>
          rw [tryBounded_of_locked hl]
          obtain ⟨⟨locked, value⟩, holds⟩ := h
          obtain rfl : locked = true := hl
          exact ⟨attempts + 2, run_trying rfl holds (attempts + 1) attempts⟩
      | false =>
          refine ⟨1, ?_⟩
          rw [tryBounded_succ, tryLock_of_free hl]
          obtain ⟨⟨locked, value⟩, holds⟩ := h
          obtain rfl : locked = false := hl
          rfl

theorem exists_run_instr (h : Holder α) {instr : Instr α} (rest : List (Instr α))
    (hw : instr = .lock → h.mutex.locked = false) :
    ∃ turns, ((h.alone (instr :: rest)).run (List.replicate turns 0)).1 = (h.perform instr).alone rest := by
  obtain ⟨⟨locked, value⟩, holds⟩ := h
  cases instr with
  | lock =>
      obtain rfl : locked = false := hw rfl
      exact ⟨1, rfl⟩
  | tryLock => exact ⟨1, by cases locked <;> rfl⟩
  | tryBounded attempts => exact run_tryBounded _ attempts
  | add n =>
      cases holds with
      | true => exact ⟨2, rfl⟩
      | false => exact ⟨1, rfl⟩
  | unlock => exact ⟨1, by cases holds <;> rfl⟩

/-- A program that never waits does to the lock what its instructions do one by one. -/
theorem exists_run_alone (h : Holder α) {program : List (Instr α)} (hw : .lock ∉ program) :
    ∃ turns, ((h.alone program).run (List.replicate turns 0)).1 = (program.foldl perform h).alone [] := by
  induction program generalizing h with
  | nil => exact ⟨0, rfl⟩
  | cons instr program ih =>
      obtain ⟨hn, hw⟩ := not_or.mp (mt List.mem_cons.mpr hw)
      obtain ⟨first, hf⟩ := h.exists_run_instr program fun hi => absurd hi.symm hn
      obtain ⟨later, hl⟩ := ih (h.perform instr) hw
      refine ⟨first + later, ?_⟩
      rw [← List.replicate_append_replicate, Crowd.run_append, hf, hl, List.foldl_cons]

end Holder

section Contend

variable {h : Holder α}

theorem Holder.crewed (h : Holder α) (workers times : Nat) (n : α) :
    (h.crowd workers times n).Crewed n
      ((if h.holds then .leaving 0 else .outside 0) :: List.replicate workers (.outside times)) := by
  rw [Crowd.Crewed, List.map_cons, List.map_replicate, crowd]
  cases h.holds <;> rfl

theorem Holder.Exact.ownedBy (he : h.Exact) (workers times : Nat) (n : α) :
    (h.crowd workers times n).OwnedBy (if h.holds then some 0 else none) where
  locked_eq := by
    rw [Holder.crowd, he]
    cases h.holds <;> rfl
  holds_iff i := by
    cases i with
    | zero => cases hh : h.holds <;> simp [Crowd.Holds, Holder.crowd, hh]
    | succ i =>
        have hn : ¬ (h.crowd workers times n).Holds (i + 1) := by
          rintro ⟨t, ht, hh⟩
          rw [List.eq_of_mem_replicate (List.mem_of_getElem? ht)] at hh
          cases hh
        cases h.holds <;> simpa using hn
  current i t seen hi hs := by
    rcases List.mem_cons.mp (List.mem_of_getElem? hi) with rfl | ht
    · cases hs
    · rw [List.eq_of_mem_replicate ht] at hs
      cases hs

theorem two_le_count_everybody {workers i : Nat} (hi : i < workers + 1) :
    2 ≤ (List.range (workers + 1) ++ List.range (workers + 1)).count i := by
  have hpos := List.count_pos_iff.mpr (List.mem_range.mpr hi)
  rw [List.count_append]
  omega

theorem Holder.left_le (h : Holder α) (workers times : Nat) :
    addsLeft ((if h.holds then .leaving 0 else .outside 0) :: List.replicate workers (.outside times : Stage α)) =
        workers * times ∧
      workLeft ((if h.holds then .leaving 0 else .outside 0) :: List.replicate workers (.outside times : Stage α)) ≤
        4 * (workers * times) + 1 := by
  have ha : addsLeft (List.replicate workers (.outside times : Stage α)) = _ := addsLeft_start
  have hw : workLeft (List.replicate workers (.outside times : Stage α)) = _ := workLeft_start
  rw [addsLeft] at ha ⊢
  rw [workLeft] at hw ⊢
  rw [List.map_cons, List.sum_cons, ha, List.map_cons, List.sum_cons, hw]
  cases h.holds <;> simp [Stage.adds, Stage.work, Nat.add_comm]

theorem Holder.Exact.contend_eq [AddMonoid α] (he : h.Exact) (workers times : Nat) (n : α) :
    h.contend workers times n = ⟨.free (h.mutex.value + (workers * times) • n), false⟩ := by
  have hc := h.crewed workers times n
  have ho := he.ownedBy workers times n
  obtain ⟨hadds, hwork⟩ := h.left_le workers times
  obtain ⟨stages, hc', ht⟩ := hc.run (List.range (workers + 1)).tail
  obtain ⟨owner, ho'⟩ := ho.run (List.range (workers + 1)).tail
  have hf : (((h.crowd workers times n).run (List.range (workers + 1)).tail).1.run (List.replicate
      (4 * (workers * times) + 1) (List.range (workers + 1) ++ List.range (workers + 1))).flatten).1.Finished := by
    apply hc'.finished_of_rounds ho'
    · intro round hr i hi
      rw [List.eq_of_mem_replicate hr]
      apply two_le_count_everybody
      simpa [Crowd.run_threads_length, crowd] using hi
    · rw [List.length_replicate]
      exact Nat.le_trans ht.work_le hwork
  rw [← Crowd.run_append] at hf
  rw [contend, hc.mutex_of_finished ho hf, hadds]
  rfl

/-- Whatever the user does before, everybody has turns enough then: all additions are made and the lock is free in
the end. -/
theorem Holder.contend_of_free [AddMonoid α] (a : α) (program : List (Instr α)) (workers times : Nat) (n : α) :
    ∃ h, program.foldl perform ⟨.free a, false⟩ = h ∧
      h.contend workers times n = ⟨.free (h.mutex.value + (workers * times) • n), false⟩ :=
  ⟨_, rfl, (exact_foldl_perform a program).contend_eq workers times n⟩

end Contend

end FaultRecovery.Spinlock
