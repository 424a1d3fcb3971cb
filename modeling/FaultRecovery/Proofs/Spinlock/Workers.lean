import FaultRecovery.Proofs.Spinlock.Attempts
import Mathlib.Algebra.Ring.Int.Defs
import Mathlib.Algebra.Ring.Nat

namespace FaultRecovery.Spinlock

variable {α : Type}

/-- How far a worker is, with the additions that come after the one it is at. -/
inductive Stage (α : Type) where
  | outside (n : Nat)
  | waiting (n : Nat)
  | inside (n : Nat)
  | adding (n : Nat) (seen : α)
  | leaving (n : Nat)

namespace Stage

def program (n : Nat) (d : α) : List (Instr α) := (List.replicate n [.lock, .add d, .unlock]).flatten

def thread (d : α) : Stage α → Thread α
  | outside n => .start (program n d)
  | waiting n => ⟨program (n + 1) d, .watching, false⟩
  | inside n => ⟨.add d :: .unlock :: program n d, .fresh, true⟩
  | adding n seen => ⟨.add d :: .unlock :: program n d, .adding seen, true⟩
  | leaving n => ⟨.unlock :: program n d, .fresh, true⟩

def adds : Stage α → Nat
  | outside n | leaving n => n
  | waiting n | inside n | adding n _ => n + 1

/-- The steps that are left, but for those spent on waiting. -/
def work : Stage α → Nat
  | outside n => 4 * n
  | waiting n => 4 * n + 4
  | inside n => 4 * n + 3
  | adding n _ => 4 * n + 2
  | leaving n => 4 * n + 1

/-- The steps before the next try of the lock, once it is free. -/
def delay : Stage α → Nat
  | waiting _ => 1
  | outside _ | inside _ | adding _ _ | leaving _ => 0

def holds : Stage α → Bool
  | outside _ | waiting _ => false
  | inside _ | adding _ _ | leaving _ => true

inductive Turn [Add α] (d : α) (m : Spinlock α) : Stage α → Spinlock α → Stage α → Access α → Prop where
  | ended : Turn d m (outside 0) m (outside 0) .silent
  | missed (n : Nat) (hm : m.locked = true) : Turn d m (outside (n + 1)) m (waiting n) (.exchange false)
  | took (n : Nat) (hm : m.locked = false) :
      Turn d m (outside (n + 1)) ⟨true, m.value⟩ (inside n) (.exchange true)
  | watched (n : Nat) (hm : m.locked = true) : Turn d m (waiting n) m (waiting n) (.load true)
  | woke (n : Nat) (hm : m.locked = false) : Turn d m (waiting n) m (outside (n + 1)) (.load false)
  | read (n : Nat) : Turn d m (inside n) m (adding n m.value) (.read m.value)
  | added (n : Nat) (seen : α) : Turn d m (adding n seen) { m with value := seen + d } (leaving n) (.added d)
  | gaveBack (n : Nat) : Turn d m (leaving n) m.unlock (outside n) .store

variable {d : α} {m m' : Spinlock α} {s s' : Stage α} {access : Access α}

theorem thread_holds : (s.thread d).holds = s.holds := by
  cases s <;> rfl

theorem work_pos_of_holds (h : s.holds = true) : 0 < s.work := by
  cases s with
  | outside n | waiting n => cases h
  | inside n | adding n seen | leaving n => exact Nat.succ_pos _

theorem delay_le (s : Stage α) : s.delay ≤ 1 := by
  cases s <;> simp [delay]

theorem program_eq_nil_iff : (s.thread d).program = [] ↔ s.work = 0 := by
  cases s with
  | outside n => cases n <;> simp [thread, work, Thread.start, program]
  | waiting n | inside n | adding n seen | leaving n => simp [thread, work, program]

theorem adds_eq_zero (h : s.work = 0) : s.adds = 0 := by
  cases s with
  | outside n =>
      simp only [work] at h
      simp only [adds]
      omega
  | waiting n | inside n | adding n seen | leaving n => cases h

theorem exists_turn [Add α] (d : α) (m : Spinlock α) (s : Stage α) :
    ∃ m' s' access, Turn d m s m' s' access ∧ (s.thread d).step m = (m', s'.thread d, access) := by
  obtain ⟨locked, value⟩ := m
  cases s with
  | outside n =>
      cases n with
      | zero => exact ⟨_, _, _, .ended, rfl⟩
      | succ n =>
          cases locked with
          | true => exact ⟨_, _, _, .missed n rfl, rfl⟩
          | false => exact ⟨_, _, _, .took n rfl, rfl⟩
  | waiting n =>
      cases locked with
      | true => exact ⟨_, _, _, .watched n rfl, rfl⟩
      | false => exact ⟨_, _, _, .woke n rfl, rfl⟩
  | inside n => exact ⟨_, _, _, .read n, rfl⟩
  | adding n seen => exact ⟨_, _, _, .added n seen, rfl⟩
  | leaving n => exact ⟨_, _, _, .gaveBack n, rfl⟩

namespace Turn

variable [Add α]

theorem adds_eq (h : Turn d m s m' s' access) :
    ∃ n, access.addend?.toList = List.replicate n d ∧ s.adds = n + s'.adds := by
  cases h with
  | added n seen => exact ⟨1, rfl, Nat.add_comm n 1⟩
  | ended | missed | took | watched | woke | read | gaveBack => exact ⟨0, rfl, (Nat.zero_add _).symm⟩

theorem work_or (h : Turn d m s m' s' access) : s'.work < s.work ∨ s'.work = s.work ∧ m' = m := by
  cases h with
  | ended | missed | watched | woke => exact .inr ⟨rfl, rfl⟩
  | took | read | added | gaveBack => exact .inl (Nat.lt_succ_self _)

theorem work_or_delay (h : Turn d m s m' s' access) (hw : 0 < s.work) (hm : s.holds = true ∨ m.locked = false) :
    s'.work < s.work ∨ s'.delay < s.delay ∧ m.locked = false := by
  cases h with
  | ended => cases hw
  | missed n hl | watched n hl => simp [holds, hl] at hm
  | woke n hl => exact .inr ⟨Nat.zero_lt_one, hl⟩
  | took | read | added | gaveBack => exact .inl (Nat.lt_succ_self _)

end Turn

end Stage

def workLeft (stages : List (Stage α)) : Nat := (stages.map Stage.work).sum

def addsLeft (stages : List (Stage α)) : Nat := (stages.map Stage.adds).sum

variable {d : α} {stages : List (Stage α)} {s : Stage α} {i j : Nat}

theorem sum_map_set (f : Stage α → Nat) (hi : stages[i]? = some s) (s' : Stage α) :
    ((stages.set i s').map f).sum + f s = (stages.map f).sum + f s' := by
  induction stages generalizing i with
  | nil => cases hi
  | cons u stages ih =>
      cases i with
      | zero =>
          obtain rfl := Option.some.inj hi
          simp only [List.set_cons_zero, List.map_cons, List.sum_cons]
          omega
      | succ i =>
          have hr := ih (i := i) hi
          simp only [List.set_cons_succ, List.map_cons, List.sum_cons]
          omega

theorem work_of_workLeft_eq_zero (h : workLeft stages = 0) (hs : s ∈ stages) : s.work = 0 :=
  List.sum_eq_zero_iff_forall_eq_nat.mp h _ (List.mem_map_of_mem hs)

theorem addsLeft_eq_zero (h : ∀ s ∈ stages, s.work = 0) : addsLeft stages = 0 := by
  apply List.sum_eq_zero_iff_forall_eq_nat.mpr
  intro n hn
  obtain ⟨s, hs, rfl⟩ := List.mem_map.mp hn
  exact Stage.adds_eq_zero (h s hs)

/-- What was added is taken off from the additions that are left, and no work came up. -/
structure Toward (d : α) (added : List α) (stages stages' : List (Stage α)) : Prop where
  exists_adds : ∃ n, added = List.replicate n d ∧ addsLeft stages = n + addsLeft stages'
  work_le : workLeft stages' ≤ workLeft stages

namespace Toward

variable {stages' stages'' : List (Stage α)} {added added' : List α}

theorem refl (d : α) (stages : List (Stage α)) : Toward d [] stages stages :=
  ⟨⟨0, rfl, (Nat.zero_add _).symm⟩, Nat.le_refl _⟩

theorem trans (h : Toward d added stages stages') (h' : Toward d added' stages' stages'') :
    Toward d (added ++ added') stages stages'' := by
  obtain ⟨n, rfl, hn⟩ := h.exists_adds
  obtain ⟨n', rfl, hn'⟩ := h'.exists_adds
  refine ⟨⟨n + n', List.replicate_append_replicate, ?_⟩, Nat.le_trans h'.work_le h.work_le⟩
  rw [hn, hn', Nat.add_assoc]

theorem of_turn [Add α] {m m' : Spinlock α} {s' : Stage α} {access : Access α} (hi : stages[i]? = some s)
    (ht : Stage.Turn d m s m' s' access) : Toward d access.addend?.toList stages (stages.set i s') := by
  obtain ⟨n, ha, hn⟩ := ht.adds_eq
  have hadds : addsLeft (stages.set i s') + s.adds = addsLeft stages + s'.adds := sum_map_set Stage.adds hi s'
  have hwork : workLeft (stages.set i s') + s.work = workLeft stages + s'.work := sum_map_set Stage.work hi s'
  have hle : s'.work ≤ s.work := ht.work_or.elim Nat.le_of_lt fun he => Nat.le_of_eq he.1
  exact ⟨⟨n, ha, by omega⟩, by omega⟩

end Toward

namespace Crowd

variable {c : Crowd α} {owner : Option Nat} {schedule : List Nat}

theorem step_threads_length [Add α] (c : Crowd α) (i : Nat) : (c.step i).1.threads.length = c.threads.length := by
  cases hi : c.threads[i]? with
  | none => rw [step_of_none hi]
  | some t => rw [step_of_some hi, List.length_set]

theorem run_threads_length [Add α] (c : Crowd α) (schedule : List Nat) :
    (c.run schedule).1.threads.length = c.threads.length := by
  induction schedule generalizing c with
  | nil => rfl
  | cons i schedule ih => exact (ih (c.step i).1).trans (c.step_threads_length i)

theorem OwnedBy.start_workers (a : α) (workers times : Nat) (d : α) :
    OwnedBy ⟨.free a, List.replicate workers (worker times d)⟩ none := by
  have h := OwnedBy.start a (List.replicate workers (Stage.program times d))
  rwa [List.map_replicate] at h

def Finished (c : Crowd α) : Prop := ∀ t ∈ c.threads, t.program = []

def Crewed (c : Crowd α) (d : α) (stages : List (Stage α)) : Prop := c.threads = stages.map (Stage.thread d)

namespace Crewed

theorem start (m : Spinlock α) (workers times : Nat) (d : α) :
    Crewed ⟨m, List.replicate workers (worker times d)⟩ d (List.replicate workers (.outside times)) := by
  rw [Crewed, List.map_replicate]
  rfl

theorem threads_eq (h : c.Crewed d stages) : c.threads = stages.map (Stage.thread d) := h

theorem getElem?_eq (h : c.Crewed d stages) (i : Nat) : c.threads[i]? = stages[i]?.map (Stage.thread d) := by
  rw [h.threads_eq, List.getElem?_map]

theorem length_eq (h : c.Crewed d stages) : c.threads.length = stages.length := by
  rw [h.threads_eq, List.length_map]

theorem finished_iff (h : c.Crewed d stages) : c.Finished ↔ ∀ s ∈ stages, s.work = 0 := by
  simp only [Finished, h.threads_eq, List.forall_mem_map, Stage.program_eq_nil_iff]

variable [Add α]

theorem step_of_none (h : c.Crewed d stages) (hi : stages[i]? = none) : c.step i = (c, .silent) := by
  apply Crowd.step_of_none
  rw [h.getElem?_eq, hi, Option.map_none]

theorem exists_turn (h : c.Crewed d stages) (hi : stages[i]? = some s) :
    ∃ s', Stage.Turn d c.mutex s (c.step i).1.mutex s' (c.step i).2 ∧ (c.step i).1.Crewed d (stages.set i s') := by
  obtain ⟨m', s', access, ht, hs⟩ := Stage.exists_turn d c.mutex s
  have hi' : c.threads[i]? = some (s.thread d) := by rw [h.getElem?_eq, hi, Option.map_some]
  rw [step_of_some hi', hs, h.threads_eq, ← List.map_set]
  exact ⟨s', ht, rfl⟩

theorem step (h : c.Crewed d stages) (i : Nat) :
    ∃ stages', (c.step i).1.Crewed d stages' ∧ Toward d (c.step i).2.addend?.toList stages stages' := by
  cases hi : stages[i]? with
  | none =>
      rw [h.step_of_none hi]
      exact ⟨stages, h, .refl d stages⟩
  | some s =>
      obtain ⟨s', ht, h'⟩ := h.exists_turn hi
      exact ⟨stages.set i s', h', .of_turn hi ht⟩

theorem run (h : c.Crewed d stages) (schedule : List Nat) :
    ∃ stages', (c.run schedule).1.Crewed d stages' ∧ Toward d (addends (c.run schedule).2) stages stages' := by
  induction schedule generalizing c stages with
  | nil => exact ⟨stages, h, .refl d stages⟩
  | cons i schedule ih =>
      obtain ⟨mid, hmid, ht⟩ := h.step i
      obtain ⟨last, hlast, ht'⟩ := ih hmid
      refine ⟨last, hlast, ?_⟩
      rw [Crowd.run, addends_cons]
      exact ht.trans ht'

theorem addends_of_finished (h : c.Crewed d stages) (hf : (c.run schedule).1.Finished) :
    addends (c.run schedule).2 = List.replicate (addsLeft stages) d := by
  obtain ⟨stages', h', ht⟩ := h.run schedule
  obtain ⟨n, ha, hn⟩ := ht.exists_adds
  rw [ha, hn, addsLeft_eq_zero (h'.finished_iff.mp hf), Nat.add_zero]

end Crewed

theorem Crewed.not_locked_of_finished (h : c.Crewed d stages) (ho : c.OwnedBy owner) (hf : c.Finished) :
    c.mutex.locked = false := by
  rw [Bool.eq_false_iff]
  intro hm
  obtain ⟨i, t, hi, hh⟩ := ho.locked_iff.mp hm
  rw [h.getElem?_eq] at hi
  obtain ⟨s, hs, rfl⟩ := Option.map_eq_some_iff.mp hi
  rw [Stage.thread_holds] at hh
  exact Nat.ne_of_gt (Stage.work_pos_of_holds hh) (h.finished_iff.mp hf s (List.mem_of_getElem? hs))

theorem Crewed.mutex_of_finished [AddMonoid α] (h : c.Crewed d stages) (ho : c.OwnedBy owner)
    (hf : (c.run schedule).1.Finished) : (c.run schedule).1.mutex = .free (c.mutex.value + addsLeft stages • d) := by
  obtain ⟨stages', h', -⟩ := h.run schedule
  obtain ⟨owner', ho'⟩ := ho.run schedule
  have hv : (c.run schedule).1.mutex.value = c.mutex.value + addsLeft stages • d := by
    rw [ho.value_run, h.addends_of_finished hf, List.sum_replicate]
  exact congrArg₂ Spinlock.mk (h'.not_locked_of_finished ho' hf) hv

/-- A worker has the lock or may take it, and gets work done with so many turns unless another one does. -/
def Ready (c : Crowd α) (stages : List (Stage α)) (i turns : Nat) : Prop :=
  ∃ s, stages[i]? = some s ∧ 0 < s.work ∧ (s.holds = true ∨ c.mutex.locked = false) ∧ s.delay < turns

variable [Add α]

theorem Ready.step (hr : c.Ready stages i ((j :: schedule).count i)) (h : c.Crewed d stages) :
    ∃ stages', (c.step j).1.Crewed d stages' ∧ (workLeft stages' < workLeft stages ∨
      workLeft stages' = workLeft stages ∧ (c.step j).1.Ready stages' i (schedule.count i)) := by
  obtain ⟨s, hi, hw, hm, hd⟩ := hr
  cases hj : stages[j]? with
  | none =>
      have hji : j ≠ i := by
        intro he
        rw [he, hi] at hj
        cases hj
      rw [List.count_cons_of_ne hji] at hd
      rw [h.step_of_none hj]
      exact ⟨stages, h, .inr ⟨rfl, s, hi, hw, hm, hd⟩⟩
  | some u =>
      obtain ⟨u', ht, h'⟩ := h.exists_turn hj
      have hsum : workLeft (stages.set j u') + u.work = workLeft stages + u'.work := sum_map_set Stage.work hj u'
      refine ⟨stages.set j u', h', ?_⟩
      obtain hlt | ⟨heq, hmutex⟩ := ht.work_or
      · exact .inl (by omega)
      · refine .inr ⟨by omega, ?_⟩
        by_cases hji : j = i
        · -- Its own turn got nothing done, so it was the look at the lock.
          subst hji
          obtain rfl := Option.some.inj (hj.symm.trans hi)
          obtain hlt | ⟨hdelay, hfree⟩ := ht.work_or_delay hw hm
          · omega
          · rw [List.count_cons_self] at hd
            refine ⟨u', ?_, heq ▸ hw, .inr (hmutex ▸ hfree), by omega⟩
            exact List.getElem?_set_self (List.getElem?_eq_some_iff.mp hj).1
        · rw [List.count_cons_of_ne hji] at hd
          exact ⟨s, (List.getElem?_set_ne hji).trans hi, hw, hmutex ▸ hm, hd⟩

theorem Ready.run (hr : c.Ready stages i (schedule.count i)) (h : c.Crewed d stages) :
    ∃ stages', (c.run schedule).1.Crewed d stages' ∧ workLeft stages' < workLeft stages := by
  induction schedule generalizing c stages with
  | nil =>
      obtain ⟨s, -, -, -, hd⟩ := hr
      cases hd
  | cons j schedule ih =>
      obtain ⟨mid, hmid, hlt | ⟨heq, hr'⟩⟩ := hr.step h
      · obtain ⟨last, hlast, ht⟩ := hmid.run schedule
        exact ⟨last, hlast, Nat.lt_of_le_of_lt ht.work_le hlt⟩
      · exact heq ▸ ih hr' hmid

namespace Crewed

/-- Either somebody has the lock or it is free for anybody, so two turns for each are enough. -/
theorem exists_workLeft_lt (h : c.Crewed d stages) (ho : c.OwnedBy owner) (hw : 0 < workLeft stages)
    {round : List Nat} (hr : ∀ i < c.threads.length, 2 ≤ round.count i) :
    ∃ stages', (c.run round).1.Crewed d stages' ∧ workLeft stages' < workLeft stages := by
  have hlt {s : Stage α} {i : Nat} (hi : stages[i]? = some s) : s.delay < round.count i := by
    have hi' : i < c.threads.length := h.length_eq ▸ (List.getElem?_eq_some_iff.mp hi).1
    exact Nat.lt_of_le_of_lt s.delay_le (hr i hi')
  cases hm : c.mutex.locked with
  | true =>
      obtain ⟨i, t, ht, hh⟩ := ho.locked_iff.mp hm
      rw [h.getElem?_eq] at ht
      obtain ⟨s, hi, rfl⟩ := Option.map_eq_some_iff.mp ht
      rw [Stage.thread_holds] at hh
      exact Ready.run ⟨s, hi, Stage.work_pos_of_holds hh, .inl hh, hlt hi⟩ h
  | false =>
      obtain ⟨n, hn, hpos⟩ := List.sum_pos_iff_exists_pos_nat.mp hw
      obtain ⟨s, hs, rfl⟩ := List.mem_map.mp hn
      obtain ⟨i, hi⟩ := List.mem_iff_getElem?.mp hs
      exact Ready.run ⟨s, hi, hpos, .inr hm, hlt hi⟩ h

theorem finished_of_rounds (h : c.Crewed d stages) (ho : c.OwnedBy owner) {rounds : List (List Nat)}
    (hr : ∀ round ∈ rounds, ∀ i < c.threads.length, 2 ≤ round.count i) (hw : workLeft stages ≤ rounds.length) :
    (c.run rounds.flatten).1.Finished := by
  induction rounds generalizing c stages owner with
  | nil =>
      apply h.finished_iff.mpr
      intro s hs
      exact work_of_workLeft_eq_zero (Nat.le_zero.mp hw) hs
  | cons round rounds ih =>
      have hlt : ∃ stages', (c.run round).1.Crewed d stages' ∧ workLeft stages' ≤ rounds.length := by
        obtain hz | hpos := Nat.eq_zero_or_pos (workLeft stages)
        · obtain ⟨stages', h', ht⟩ := h.run round
          exact ⟨stages', h', Nat.le_trans (hz ▸ ht.work_le) (Nat.zero_le _)⟩
        · obtain ⟨stages', h', hlt⟩ := h.exists_workLeft_lt ho hpos (hr round List.mem_cons_self)
          exact ⟨stages', h', Nat.le_of_lt_succ (Nat.lt_of_lt_of_le hlt hw)⟩
      obtain ⟨stages', h', hle⟩ := hlt
      obtain ⟨owner', ho'⟩ := ho.run round
      rw [List.flatten_cons, run_append]
      apply ih h' ho' _ hle
      intro later hl
      rw [run_threads_length]
      exact hr later (List.mem_cons_of_mem _ hl)

end Crewed

end Crowd

section Workers

variable {workers times : Nat}

theorem addsLeft_start : addsLeft (List.replicate workers (Stage.outside times : Stage α)) = workers * times := by
  rw [addsLeft, List.map_replicate, List.sum_replicate_nat, Stage.adds]

theorem workLeft_start : workLeft (List.replicate workers (Stage.outside times : Stage α)) = 4 * (workers * times) := by
  rw [workLeft, List.map_replicate, List.sum_replicate_nat, Stage.work, Nat.mul_left_comm]

theorem finished_workers_of_rounds [Add α] (v d : α) (schedule : List Nat) {rounds : List (List Nat)}
    (hr : ∀ round ∈ rounds, ∀ i < workers, 2 ≤ round.count i) (hw : 4 * (workers * times) ≤ rounds.length) :
    ((Crowd.run ⟨.free v, List.replicate workers (worker times d)⟩ schedule).1.run rounds.flatten).1.Finished := by
  obtain ⟨owner, ho⟩ := (Crowd.OwnedBy.start_workers v workers times d).run schedule
  obtain ⟨stages, hc, ht⟩ := (Crowd.Crewed.start (.free v) workers times d).run schedule
  have hle : workLeft stages ≤ 4 * (workers * times) := workLeft_start ▸ ht.work_le
  apply hc.finished_of_rounds ho _ (Nat.le_trans hle hw)
  simpa only [Crowd.run_threads_length, List.length_replicate] using hr

theorem value_of_finished_workers [AddMonoid α] {v : α} {schedule : List Nat}
    (hf : (Crowd.run ⟨.free v, List.replicate workers (worker times d)⟩ schedule).1.Finished) :
    (Crowd.run ⟨.free v, List.replicate workers (worker times d)⟩ schedule).1.mutex.value =
      v + (workers * times) • d := by
  have ho := Crowd.OwnedBy.start_workers v workers times d
  have hc := Crowd.Crewed.start (.free v) workers times d
  rw [hc.mutex_of_finished ho hf, addsLeft_start]
  rfl

end Workers

/-- Threads share a lock, and every one of them may take it in any way, add to the value while it has it, and give
it back. However their steps are interleaved, no two hold a guard at once, the flag is set just while one does,
and the value is the first one with every completed addition on it. A bounded attempt ends with the guard at the
first of its tries that meets the lock free, and otherwise changes nothing. Workers that all end have made all
their additions, and they do end when all of them keep getting turns. -/
theorem guards_exclude_and_additions_stay [AddMonoid α] (v : α) (schedule : List Nat) :
    (∀ (programs : List (List (Instr α))) (c : Crowd α) (trace : List (Nat × Access α)),
        Crowd.run ⟨.free v, programs.map .start⟩ schedule = (c, trace) →
      (∀ i j, c.Holds i → c.Holds j → i = j) ∧ (c.mutex.locked = true ↔ ∃ i, c.Holds i) ∧
      c.mutex.value = v + (Crowd.addends trace).sum ∧
      ∀ i t attempts rest, c.threads[i]? = some t → t.program = .tryBounded attempts :: rest →
        t.phase = .fresh → ∀ later, c.Trial i attempts t later) ∧
    ∀ (workers times : Nat) (d : α) (c : Crowd α) (trace : List (Nat × Access α)),
        Crowd.run ⟨.free v, List.replicate workers (worker times d)⟩ schedule = (c, trace) →
      (c.Finished → c.mutex.value = v + (workers * times) • d) ∧
      ∀ rounds : List (List Nat), (∀ round ∈ rounds, ∀ i < workers, 2 ≤ round.count i) →
        4 * (workers * times) ≤ rounds.length →
        (c.run rounds.flatten).1.Finished ∧
        (c.run rounds.flatten).1.mutex.value = v + (workers * times) • d := by
  constructor
  · intro programs c trace hrun
    obtain rfl : _ = c := congrArg Prod.fst hrun
    obtain rfl : _ = trace := congrArg Prod.snd hrun
    have ho := Crowd.OwnedBy.start v programs
    obtain ⟨owner, hc⟩ := ho.run schedule
    refine ⟨fun i j => hc.unique, hc.locked_iff, ho.value_run schedule, ?_⟩
    intro i t attempts rest hi hp hf later
    exact hc.trial hi hp hf later
  · intro workers times d c trace hrun
    obtain rfl : _ = c := congrArg Prod.fst hrun
    refine ⟨value_of_finished_workers, ?_⟩
    intro rounds hr hlen
    have hf := finished_workers_of_rounds v d schedule hr hlen
    refine ⟨hf, ?_⟩
    rw [← Crowd.run_append] at hf ⊢
    exact value_of_finished_workers hf

theorem guards_exclude_and_additions_stay_of_three :
    let bounded : List (Instr Int) := [.tryBounded 2, .add 7, .unlock]
    let programs : List (List (Instr Int)) := [[.lock, .add 5, .unlock], bounded, [.lock, .unlock]]
    let early := Crowd.run ⟨.free 10, programs.map .start⟩ [0, 2, 0]
    let late := Crowd.run ⟨.free 10, programs.map .start⟩ [0, 2, 0, 1, 0, 0, 1, 1, 1]
    let workers := Crowd.run ⟨.free (10 : Int), List.replicate 2 (worker 2 3)⟩ [0, 1, 0]
    let ended := (workers.1.run (List.replicate 16 [0, 1, 1, 0]).flatten).1
    early.1.Trial 1 2 (.start bounded) [1, 0, 0, 1] ∧ (∃ i, early.1.Holds i) ∧
      late.1.mutex.value = 10 + [5, 7].sum ∧ ended.Finished ∧ ended.mutex.value = 22 := by
  intro bounded programs early late workers ended
  obtain ⟨-, hlocked, -, htrial⟩ := (guards_exclude_and_additions_stay 10 [0, 2, 0]).1 programs early.1 early.2 rfl
  obtain ⟨-, -, hvalue, -⟩ :=
    (guards_exclude_and_additions_stay 10 [0, 2, 0, 1, 0, 0, 1, 1, 1]).1 programs late.1 late.2 rfl
  obtain ⟨-, hrounds⟩ := (guards_exclude_and_additions_stay 10 [0, 1, 0]).2 2 2 3 workers.1 workers.2 rfl
  have hfair : ∀ round ∈ List.replicate 16 [0, 1, 1, 0], ∀ i < 2, 2 ≤ round.count i := by
    intro round hr
    rw [List.eq_of_mem_replicate hr]
    decide
  obtain ⟨hf, hsum⟩ := hrounds _ hfair (by decide)
  have hl : early.1.mutex.locked = true := rfl
  have h22 : (10 : Int) + (2 * 2) • 3 = 22 := by decide
  refine ⟨htrial 1 _ 2 _ rfl rfl rfl _, hlocked.mp hl, hvalue, hf, ?_⟩
  -- Nothing here has to be evaluated.
  with_reducible exact hsum.trans h22

end FaultRecovery.Spinlock
