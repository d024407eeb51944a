import EventWorker.Proofs.Run.Keeping
import EventWorker.Proofs.Checks
import EventWorker.Unit

/-!
# Jobs that are turned down for a name

Whatever runs jobs looks at the names in a job before anything else, by the check that `Job.validate` is.
A job that has passed it is not turned down for a name again, whatever else becomes of it: no backend
does so when the job is submitted, observing it comes to other failures, and groups have none of their
own.

Main statement: `Step.run_spares`.
-/

namespace EventWorker

variable {σ : Type}

/-- A name in the job is not valid. -/
def BuildError.BlamesName : BuildError → Prop
  | invalidJobName .. => True
  | _ => False

/-- The job was turned down for a name. -/
def JobError.BlamesName : JobError → Prop
  | build cause => cause.BlamesName
  | _ => False

/-! ### Building -/

namespace ExecutionUnit

variable {options : BuildOptions} {job : Job} {event : Event} {project : Project} {now : Int}
  {e : BuildError} {system : List String} {mounts : List Resource.VolumeMount}

theorem not_blamesName_of_resolveAll (h : resolveAll system job project mounts = .error e) :
    ¬ e.BlamesName := by
  induction mounts with
  | nil => cases h
  | cons m ms ih =>
    rcases Except.bind_eq_error_iff.1 h with h | ⟨_, _, h⟩
    · unfold resolve at h
      split at h
      · cases h
      · split at h
        · obtain rfl := Except.error.inj h
          exact id
        · split at h
          · obtain rfl := Except.error.inj h
            exact id
          · cases h
    · rcases Except.bind_eq_error_iff.1 h with h | ⟨_, _, h⟩
      · exact ih h
      · cases h

theorem not_blamesName_of_checkServiceAccount (h : checkServiceAccount options job = .error e) :
    ¬ e.BlamesName := by
  unfold checkServiceAccount at h
  split at h
  · dsimp only at h
    split at h
    · cases h
    · obtain rfl := Except.error.inj h
      exact id
  · cases h

theorem not_blamesName_of_checkDocker (h : checkDocker job project = .error e) : ¬ e.BlamesName := by
  unfold checkDocker at h
  split at h
  · obtain rfl := Except.error.inj h
    exact id
  · cases h

/-- Only the first check of a job is about names. -/
theorem not_blamesName_of_build (hjob : job.validate = .ok ())
    (h : build options job event project now = .error e) : ¬ e.BlamesName := by
  rw [build, hjob] at h
  rcases Except.bind_eq_error_iff.1 h with h | ⟨_, _, h⟩
  · cases h
  rcases Except.bind_eq_error_iff.1 h with h | ⟨_, _, h⟩
  · exact not_blamesName_of_checkServiceAccount h
  rcases Except.bind_eq_error_iff.1 h with h | ⟨_, _, h⟩
  · exact not_blamesName_of_checkDocker h
  dsimp only at h
  rcases Except.bind_eq_error_iff.1 h with h | ⟨_, _, h⟩
  · rw [attached, map_eq_pure_bind] at h
    rcases Except.bind_eq_error_iff.1 h with h | ⟨_, _, h⟩
    · exact not_blamesName_of_resolveAll h
    · cases h
  · cases h

end ExecutionUnit

/-! ### Submitting -/

/-- No failure of the call blames a name. -/
def Call.Spares {α : Type} (f : Call σ JobError α) : Prop :=
  ∀ m e, (f.run m).1 = .error e → ¬ e.BlamesName

namespace Call.Spares

variable {ε α β : Type} {f : Call σ JobError α} {g : α → Call σ JobError β}

theorem pure (a : α) : Spares (Pure.pure a : Call σ JobError α) :=
  fun _ _ h => by cases h

theorem throw {e : JobError} (he : ¬ e.BlamesName) :
    Spares (MonadExcept.throw e : Call σ JobError α) := by
  intro m e' h
  obtain rfl := Except.error.inj h
  exact he

theorem bind (hf : Spares f) (hg : ∀ a, Spares (g a)) : Spares (f >>= g) := by
  intro m e h
  have hm := hf m
  have hbind : (f >>= g).run m = ExceptT.bindCont g (f.run m).1 (f.run m).2 := rfl
  rw [hbind] at h
  rcases hrun : f.run m with ⟨e' | a, m'⟩
  · rw [hrun] at h hm
    obtain rfl := Except.error.inj h
    exact hm e' rfl
  · rw [hrun] at h
    exact hg a m' e h

/-- A failure that is given another name is no longer about what it was about before. -/
theorem mapFault {w : ε → JobError} (hw : ∀ e, ¬ (w e).BlamesName) (f : Call σ ε α) :
    Spares (f.mapFault w) := by
  intro m e h
  have hmap : ((f.mapFault w).run m).1 = (f.run m).1.mapError w := rfl
  rw [hmap] at h
  cases hrun : (f.run m).1 with
  | ok a =>
    rw [hrun] at h
    cases h
  | error e' =>
    rw [hrun] at h
    obtain rfl := Except.error.inj h
    exact hw e'

end Call.Spares

/-! ### Running -/

/-- The backends that there are. -/
inductive Backend.Known : Backend σ → Prop
  | pods (c : Cluster σ) (options : BuildOptions) (watcher : Watcher) : Known (.pods c options watcher)
  | workerApi (api : WorkerApi σ) (watcher : Watcher) : Known (.workerApi api watcher)
  | idle : Known .idle

/-- Work that does not fail over a name. -/
def Spares {ε α : Type} (m : Activity σ ε (Except JobError α)) : Prop :=
  Leads (fun _ => True) m fun r _ => ∀ e, r = .error e → ¬ e.BlamesName

variable {job : Job} {b : Backend σ}

theorem Backend.watchUnit_spares (source : Source σ) (watcher : Watcher) (u : UnitRef) :
    Spares (watchUnit source watcher job u) := by
  refine .bind .now fun start => .bind (R := fun _ _ => True) (fun _ _ => trivial) fun v =>
    .bind (.goTo _) fun _ => .pure fun _ _ e he => ?_
  cases hv : v.outcome with
  | ok p =>
    rw [hv] at he
    cases he
  | error e' =>
    rw [hv] at he
    obtain rfl := Except.error.inj he
    exact id

theorem Backend.Known.observe_spares (hb : b.Known) (u : UnitRef) : Spares (b.observe job u) := by
  cases hb with
  | pods c options watcher => exact watchUnit_spares c.source watcher u
  | workerApi api watcher => exact watchUnit_spares api.source watcher u
  | idle => exact .pure fun _ _ e he => by cases he

theorem Job.not_blamesName_of_judge {p : Phase} {e : JobError} (h : job.judge p = .error e) :
    ¬ e.BlamesName := by
  unfold judge at h
  split at h
  · cases h
  · obtain rfl := Except.error.inj h
    exact id
  · obtain rfl := Except.error.inj h
    exact id

section Submission

variable (hjob : job.validate = .ok ())

include hjob

theorem Cluster.submit_spares (c : Cluster σ) (options : BuildOptions) (event : Event)
    (project : Project) (now : Int) : (c.submit options job event project now).Spares := by
  have hcreate : ∀ f : Call σ ClusterError Unit, (f.mapFault (JobError.scheduling job.name)).Spares :=
    .mapFault fun _ => id
  unfold Cluster.submit
  split
  · next e he => exact .throw (ExecutionUnit.not_blamesName_of_build hjob he)
  · next unit _ =>
    have hrest : Call.Spares (do
        (c.createSecret unit.secret).mapFault (JobError.scheduling job.name)
        (c.createPod unit.pod).mapFault (JobError.scheduling job.name)
        return unit.ref) :=
      .bind (hcreate _) fun _ => .bind (hcreate _) fun _ => .pure _
    cases unit.cacheClaim with
    | none => exact hrest
    | some claim => exact .bind (.bind (.mapFault (fun _ => id) _) fun _ => .pure _) fun _ => hrest

/-- **No backend turns the job down for a name.** -/
theorem Backend.Known.submit_spares (hb : b.Known) (scope : RunScope) :
    Spares (b.submit job scope) := by
  cases hb with
  | pods c options watcher =>
    exact .bind .now fun now => .call (P := fun _ => True)
      (Q := fun r _ => ∀ e, r = .error e → ¬ JobError.BlamesName e)
      fun m _ => Cluster.submit_spares hjob c options scope.event scope.project now.millis m
  | workerApi api watcher =>
    simp only [Backend.workerApi, hjob]
    refine .bind (R := fun _ _ => True) (fun _ _ => trivial) fun r => .pure fun _ _ e he => ?_
    cases r with
    | ok a => cases he
    | error e' =>
      obtain rfl := Except.error.inj he
      exact id
  | idle =>
    show Spares (Pure.pure ((job.validate.mapError JobError.build).map fun _ => _))
    rw [hjob]
    exact .pure fun _ _ e he => by cases he

theorem Job.run_spares (hb : b.Known) (scope : RunScope) : Spares (job.run b scope) := by
  have hsee : ∀ {α : Type} {m : Errand σ (Except JobError α)}, Spares m → Spares (Work.see m) :=
    fun hm s _ => hm { now := s.now, world := s.world.seen } trivial
  have hexecute : Leads (fun _ => True) (job.execute b scope) fun r _ =>
      ∀ e, r.2 = .error e → ¬ e.BlamesName := by
    refine .bind (hsee (hb.submit_spares hjob scope)) fun r => ?_
    cases r with
    | error e => exact .pure fun _ h _ he => Except.error.inj he ▸ h e rfl
    | ok u =>
      refine .bind (.emit _) fun _ =>
        .bind (.weaken (hsee (hb.observe_spares u)) fun _ _ => trivial) fun r => ?_
      cases r with
      | error e => exact .pure fun _ h _ he => Except.error.inj he ▸ h e rfl
      | ok p => exact .pure fun _ _ e he => not_blamesName_of_judge he
  exact Job.leads_run hexecute

end Submission

/-- **A step whose jobs have valid names does not fail over the name of one of them.** -/
theorem Step.run_spares (hb : b.Known) (scope : RunScope) {s : Step Job}
    (h : ∀ j ∈ s.jobs, j.validate = .ok ()) : Spares (s.run (Job.run b scope)) := by
  have hjobs : ∀ j ∈ s.jobs, Upholds (fun _ => True) (fun e => ¬ JobError.BlamesName e)
      (Job.run b scope j) :=
    fun j hj => (Job.run_spares (h j hj) hb scope).imp fun _ _ he => ⟨trivial, he⟩
  exact (Step.upholds_run s hjobs).imp fun _ _ hr => hr.2

end EventWorker
