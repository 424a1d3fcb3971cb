import FaultRecovery.Proofs.Registry.Execution

namespace FaultRecovery

variable {β γ : Type}

namespace Action

/-- What comes of an action that finds some records written already. -/
def behind (records : List Record) : EStateM.Result Failure Session β → EStateM.Result Failure Session β
  | .ok b s => .ok b { s with records := records ++ s.records }
  | .error failure s => .error failure { s with records := records ++ s.records }

/-- The action does not look at the records there are, and writes its own at the end. -/
def Appends (x : Action β) : Prop := ∀ m records, x ⟨m, records⟩ = behind records (x ⟨m, []⟩)

theorem appends_pure (b : β) : Appends (pure b) := by
  intro m records
  change EStateM.Result.ok b _ = .ok b _
  rw [List.append_nil]

theorem appends_write (event : Event) : Appends (write event) := by
  intro m records
  rfl

theorem appends_locked (body : Slab.Step Region β) : Appends (locked body) := by
  intro m records
  rw [locked, locked]
  cases m.tryLock with
  | none => simp only [behind, List.append_nil]
  | some held =>
      dsimp only
      cases body held.value with
      | ok b slab => simp only [behind, List.append_nil]
      | error cause slab => cases cause <;> simp only [behind, List.append_nil, List.nil_append]

theorem Appends.bind {x : Action β} {f : β → Action γ} (hx : x.Appends) (hf : ∀ b, (f b).Appends) :
    Appends (x >>= f) := by
  intro m records
  have hm := hx m records
  cases h : x ⟨m, []⟩ with
  | ok b s =>
      rw [h] at hm
      rw [bind_of_ok h, bind_of_ok hm, hf b s.metadata (records ++ s.records), hf b s.metadata s.records]
      cases f b ⟨s.metadata, []⟩ <;> simp only [behind, List.append_assoc]
  | error failure s =>
      rw [h] at hm
      rw [bind_of_error h, bind_of_error hm, behind]

end Action

def Report.andThen (report : Report β) (next : β → Registry → Report γ) : Report γ :=
  match report.outcome with
  | .error failure => ⟨.error failure, report.records, report.registry⟩
  | .ok b =>
      let rest := next b report.registry
      ⟨rest.outcome, report.records ++ rest.records, rest.registry⟩

def Report.Answers (report : Report β) (b : β) (last : Registry) : Prop :=
  report.outcome = .ok b ∧ report.registry = last

theorem Report.andThen_answers_iff {report : Report β} {next : β → Registry → Report γ} {a : γ} {last : Registry} :
    (report.andThen next).Answers a last ↔
      ∃ b, report.outcome = .ok b ∧ (next b report.registry).Answers a last := by
  rw [andThen]
  cases report.outcome <;> simp [Answers]

namespace Registry

variable {registry last : Registry} {r : Region} {p : Placement} {handle : Handle}

theorem appends_tell (p : Placement) (r : Region) : (tell p r).Appends := by
  cases p with
  | refused capacity => exact Action.appends_write _
  | placed handle growth =>
      cases growth with
      | none => exact Action.appends_write _
      | some growth => exact (Action.appends_write _).bind fun _ => Action.appends_write _

theorem appends_register (c : Config) (r : Region) : (register c r).Appends :=
  (Action.appends_locked _).bind fun p => (appends_tell p r).bind fun _ => Action.appends_pure p

theorem appends_release (c : Config) (handle : Handle) : (release c handle).Appends := by
  rw [release]
  split
  · exact Action.appends_pure ()
  · refine (Action.appends_locked _).bind ?_
    rintro (_ | r) <;> exact Action.appends_write _

theorem appends_registerAll (c : Config) (rs : List Region) : (registerAll c rs).Appends := by
  induction rs with
  | nil => exact Action.appends_pure []
  | cons r rs ih => exact (appends_register c r).bind fun _ => ih.bind fun _ => Action.appends_pure _

theorem appends_releaseAll (c : Config) (handles : List Handle) : (releaseAll c handles).Appends := by
  induction handles with
  | nil => exact Action.appends_pure ()
  | cons handle handles ih => exact (appends_release c handle).bind fun _ => ih

theorem run_map (registry : Registry) (f : β → γ) (x : Action β) :
    registry.run (f <$> x) =
      ⟨(registry.run x).outcome.map f, (registry.run x).records, (registry.run x).registry⟩ := by
  rw [run, run]
  cases h : x ⟨registry.metadata, []⟩ with
  | ok b s => rw [map_of_ok h]; rfl
  | error failure s => rw [map_of_error h]; rfl

theorem run_bind (registry : Registry) (x : Action β) {f : β → Action γ} (hf : ∀ b, (f b).Appends) :
    registry.run (x >>= f) = (registry.run x).andThen fun b next => next.run (f b) := by
  rw [run, run]
  cases h : x ⟨registry.metadata, []⟩ with
  | error failure s => rw [bind_of_error h]; rfl
  | ok b s =>
      rw [bind_of_ok h, hf b s.metadata s.records]
      simp only [Report.andThen, run]
      cases f b ⟨s.metadata, []⟩ <;> rfl

theorem run_registerAll_cons (registry : Registry) (c : Config) (r : Region) (rs : List Region) :
    registry.run (registerAll c (r :: rs)) = (registry.run (register c r)).andThen fun p next =>
      (next.run (registerAll c rs)).andThen fun ps last => last.run (pure (p :: ps)) := by
  rw [registerAll, run_bind]
  · simp only [run_bind _ _ fun _ => Action.appends_pure _]
  · intro p
    exact (appends_registerAll c rs).bind fun _ => Action.appends_pure _

theorem run_releaseAll_cons (registry : Registry) (c : Config) (handle : Handle) (handles : List Handle) :
    registry.run (releaseAll c (handle :: handles)) = (registry.run (release c handle)).andThen fun _ next =>
      next.run (releaseAll c handles) := by
  rw [releaseAll, run_bind]
  intro _
  exact appends_releaseAll c handles

theorem config_run (registry : Registry) (x : Action β) : (registry.run x).registry.config = registry.config := by
  rw [run]
  cases x ⟨registry.metadata, []⟩ <;> rfl

theorem run_map_answers_iff {f : β → γ} (hf : ∀ a b, f a = f b → a = b) {x : Action β} {b : β} :
    (registry.run (f <$> x)).Answers (f b) last ↔ (registry.run x).Answers b last := by
  rw [run_map, Report.Answers, Report.Answers]
  cases (registry.run x).outcome with
  | ok a =>
      have ha : f a = f b ↔ a = b := ⟨hf a b, congrArg f⟩
      simp only [Except.map, Except.ok.injEq, ha]
  | error failure => simp only [Except.map, reduceCtorEq]

theorem run_register_iff : (registry.run (register registry.config r)).Answers p last ↔
    (registry.perform (.register r)).Answers (.placement p) last :=
  (run_map_answers_iff fun _ _ => Reply.placement.inj).symm

theorem run_release_iff : (registry.run (release registry.config handle)).Answers () last ↔
    (registry.perform (.release handle)).Answers .done last :=
  (run_map_answers_iff (f := fun _ : Unit => Reply.done) fun _ _ _ => rfl).symm

end Registry

end FaultRecovery
