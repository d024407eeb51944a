import EventWorker.Proofs.Cluster.Memory
import EventWorker.Proofs.Run.Submission
import EventWorker.Proofs.Text.Mention
import EventWorker.Proofs.Unit.Refused

/-!
# Which job a failure is about

Every failure of a job is about a name, and its message mentions that name (`JobError.mentions_subject`). It
is the name of the job, whatever backend runs it and whatever goes wrong (`Blames`), with one exception:
where a name is not valid the failure is about that name, and it may be the name of a sidecar. Then the name
of the job is not mentioned, unless it stands between quotes in the name of the sidecar itself
(`Job.Overshadowed`).

Main statement: `run_mentions_job_iff`.
-/

namespace EventWorker

open Text

/-! ### Messages -/

/-- The name that is mentioned. -/
def BuildError.subject : BuildError → String
  | invalidJobName name _ => name
  | unmatchedVolumeMount job _ => job
  | hostMountDisallowed job _ => job
  | serviceAccountRejected job _ _ => job

theorem mentions_job {after t : String} (job : String) (h : after = "'" ++ t) :
    Mentions ("job '" ++ job ++ after) job :=
  mentions_between (s := "job ") job (by decide +kernel) h

theorem BuildError.mentions_subject (e : BuildError) : Mentions e.message e.subject := by
  cases e with
  | invalidJobName name fault =>
    exact (mentions_between (s := "invalid job name ") (t := ": ") name (by decide +kernel)
      (by decide +kernel)).append _
  | unmatchedVolumeMount job mount =>
    exact ((mentions_job (t := ": volume mount '") job (by decide +kernel)).append _).append _
  | hostMountDisallowed job volume =>
    exact ((mentions_job (t := ": host path volume '") job (by decide +kernel)).append _).append _
  | serviceAccountRejected job account pattern =>
    exact ((((mentions_job (t := ": service account '") job (by decide +kernel)).append _).append
      _).append _).append _

namespace JobError

def subject : JobError → String
  | build cause => cause.subject
  | cache job _ => job
  | scheduling job _ => job
  | failed job _ => job
  | timedOut job _ => job
  | watch job _ => job
  | notStarted job => job

/-- **Every failure of a job mentions what it is about.** -/
theorem mentions_subject (e : JobError) : Mentions e.message e.subject := by
  cases e with
  | build cause => exact cause.mentions_subject
  | cache job cause => exact (mentions_job (t := ": ") job (by decide +kernel)).append _
  | scheduling job cause =>
    exact (mentions_job (t := ": orchestrator rejected the execution unit: ") job
      (by decide +kernel)).append _
  | failed job phase => exact (mentions_job (t := " finished in phase ") job (by decide +kernel)).append _
  | timedOut job timeout =>
    exact (mentions_job (t := " timed out after ") job (by decide +kernel)).append _
  | watch job cause => exact (mentions_job (t := ": ") job (by decide +kernel)).append _
  | notStarted job => exact mentions_job (t := " has not been started") job (by decide +kernel)

end JobError

/-! ### Whom a failure is blamed on -/

/-- What a job fails with: the fault of a name where there is one, and else something about the job. -/
inductive Blames (job : Job) : JobError → Prop where
  | name {cause : BuildError} : job.validate = .error cause → Blames job (.build cause)
  | job {e : JobError} : job.validate = .ok () → e.subject = job.name → Blames job e

/-- What comes of work for a job: a result of some kind where its names are valid, or a failure. -/
inductive Accounts {α : Type} (job : Job) (Q : α → Prop) : Except JobError α → Prop where
  | ok {a : α} : job.validate = .ok () → Q a → Accounts job Q (.ok a)
  | error {e : JobError} : Blames job e → Accounts job Q (.error e)

theorem Accounts.blames {α : Type} {job : Job} {Q : α → Prop} {e : JobError}
    (h : Accounts job Q (.error e)) : Blames job e := by
  cases h with
  | error h => exact h

variable {σ ε α β : Type} {job : Job} {b : Backend σ}

/-! ### Building -/

namespace ExecutionUnit

variable {options : BuildOptions} {event : Event} {project : Project} {now : Int} {e : BuildError}

theorem blames_of_build (h : build options job event project now = .error e) : Blames job (.build e) := by
  have hvalid : NamesProper job → job.validate = .ok () := validate_eq_ok_iff_namesProper.2
  cases build_eq_error_iff_refused.1 h with
  | name heq hbefore hfault => exact .name (validate_eq_error_iff.2 ⟨_, _, _, heq, hbefore, _, hfault, rfl⟩)
  | account hnames => exact .job (hvalid hnames) rfl
  | socket hnames => exact .job (hvalid hnames) rfl
  | mount hnames _ _ _ _ hfault =>
    cases hfault with
    | unmatched => exact .job (hvalid hnames) rfl
    | onHost => exact .job (hvalid hnames) rfl

end ExecutionUnit

/-! ### Submitting -/

/-- What comes of a call, in whatever state it is made. -/
def Call.Yields (f : Call σ ε α) (P : Except ε α → Prop) : Prop :=
  ∀ m, P (f.run m).1

namespace Call.Yields

variable {Q : α → Prop} {R : β → Prop} {f : Call σ JobError α} {g : α → Call σ JobError β}

theorem pure (hvalid : job.validate = .ok ()) {a : α} (h : Q a) :
    Yields (Pure.pure a : Call σ JobError α) (Accounts job Q) :=
  fun _ => .ok hvalid h

theorem throw {e : JobError} (h : Blames job e) :
    Yields (MonadExcept.throw e : Call σ JobError α) (Accounts job Q) :=
  fun _ => .error h

theorem bind (hf : Yields f (Accounts job Q)) (hg : ∀ a, Q a → Yields (g a) (Accounts job R)) :
    Yields (f >>= g) (Accounts job R) := by
  intro m
  have hm := hf m
  rcases hrun : f.run m with ⟨e | a, m'⟩
  · rw [hrun] at hm
    rw [Call.bind_of_error hrun]
    exact .error hm.blames
  · rw [hrun] at hm
    rw [Call.bind_of_ok hrun]
    cases hm with
    | ok _ h => exact hg a h m'

/-- A failure that is passed on in the name of the job is about the job. -/
theorem mapFault (hvalid : job.validate = .ok ()) {w : ε → JobError} (hw : ∀ e, (w e).subject = job.name)
    (f : Call σ ε α) : Yields (f.mapFault w) (Accounts job fun _ => True) := by
  intro m
  rcases hrun : f.run m with ⟨e | a, m'⟩
  · rw [Call.mapFault_of_error hrun]
    exact .error (.job hvalid (hw e))
  · rw [Call.mapFault_of_ok hrun]
    exact .ok hvalid trivial

end Call.Yields

theorem Cluster.submit_yields (c : Cluster σ) (options : BuildOptions) (job : Job) (event : Event)
    (project : Project) (now : Int) : (c.submit options job event project now).Yields
      (Accounts job fun u : UnitRef => u.job = job.name) := by
  unfold Cluster.submit
  split
  · next e he => exact .throw (ExecutionUnit.blames_of_build he)
  · next unit hunit =>
    have hvalid : job.validate = .ok () := (ExecutionUnit.build_ok hunit).1
    have hcreate : ∀ f : Call σ ClusterError Unit, (f.mapFault (JobError.scheduling job.name)).Yields
        (Accounts job fun _ => True) := .mapFault hvalid fun _ => rfl
    have hrest : Call.Yields (do
        (c.createSecret unit.secret).mapFault (JobError.scheduling job.name)
        (c.createPod unit.pod).mapFault (JobError.scheduling job.name)
        return unit.ref) (Accounts job fun u : UnitRef => u.job = job.name) :=
      .bind (hcreate _) fun _ _ => .bind (hcreate _) fun _ _ =>
        .pure hvalid (ExecutionUnit.name_and_job_of_build hunit).2
    cases unit.cacheClaim with
    | none => exact hrest
    | some claim =>
      have hcache : (discard ((c.ensure claim).mapFault (JobError.cache job.name))).Yields
          (Accounts job fun _ => True) :=
        .bind (.mapFault hvalid (fun _ => rfl) _) fun _ _ => .pure hvalid trivial
      exact .bind hcache fun _ _ => hrest

/-! ### Running -/

/-- Work for a job, from which comes a result of some kind or a failure that is blamed on the job. -/
def Owns {α : Type} (job : Job) (Q : α → Prop) (m : Activity σ ε (Except JobError α)) : Prop :=
  Leads (fun _ => True) m fun r _ => Accounts job Q r

theorem Owns.see {Q : α → Prop} {m : Errand σ (Except JobError α)} (h : Owns job Q m) :
    Owns job Q (Work.see m) :=
  fun s _ => h { now := s.now, world := s.world.seen } trivial

namespace Backend.Known

/-- **A unit is submitted only where all names are valid**, and it is a unit of the job. -/
theorem submit_owns (hb : b.Known) (job : Job) (scope : RunScope) :
    Owns job (fun u : UnitRef => u.job = job.name) (b.submit job scope) := by
  cases hb with
  | pods c options watcher =>
    exact .bind .now fun now => .call (P := fun _ => True)
      (Q := fun r _ => Accounts job (fun u : UnitRef => u.job = job.name) r)
      fun m _ => Cluster.submit_yields c options job scope.event scope.project now.millis m
  | workerApi api watcher =>
    rw [Backend.workerApi]
    dsimp only
    split
    · next e hvalid => exact .pure fun _ _ => .error (.name hvalid)
    · next hvalid =>
      refine .bind (R := fun _ _ => True) (fun _ _ => trivial) fun r => .pure fun _ _ => ?_
      cases r with
      | ok _ => exact .ok hvalid rfl
      | error e => exact .error (.job hvalid rfl)
  | idle =>
    show Owns job _ (Pure.pure ((job.validate.mapError JobError.build).map fun _ =>
      Backend.namedUnit job scope))
    cases hvalid : job.validate with
    | error e => exact .pure fun _ _ => .error (.name hvalid)
    | ok _ => exact .pure fun _ _ => .ok hvalid rfl

end Backend.Known

section Observing

variable (hvalid : job.validate = .ok ())

include hvalid

theorem Backend.watchUnit_owns (source : Source σ) (watcher : Watcher) (u : UnitRef) :
    Owns job (fun _ => True) (watchUnit source watcher job u) := by
  refine .bind .now fun start => .bind (R := fun _ _ => True) (fun _ _ => trivial) fun v =>
    .bind (.goTo _) fun _ => .pure fun _ _ => ?_
  cases v.outcome with
  | ok p => exact .ok hvalid trivial
  | error e => exact .error (.job hvalid rfl)

theorem Backend.Known.observe_owns (hb : b.Known) (u : UnitRef) :
    Owns job (fun _ => True) (b.observe job u) := by
  cases hb with
  | pods c options watcher => exact watchUnit_owns hvalid c.source watcher u
  | workerApi api watcher => exact watchUnit_owns hvalid api.source watcher u
  | idle => exact .pure fun _ _ => .ok hvalid trivial

theorem Job.accounts_judge (p : Phase) : Accounts job (fun _ => True) (job.judge p) := by
  unfold judge
  split
  · exact .ok hvalid trivial
  · exact .error (.job hvalid rfl)
  · exact .error (.job hvalid rfl)

end Observing

/-- What comes of a job that is run: its unit, if there is one, and what has become of it. -/
def BelongsTo (job : Job) (r : Option UnitRef × Except JobError Unit) : Prop :=
  (∀ u, r.1 = some u → u.job = job.name) ∧ Accounts job (fun _ => True) r.2

theorem Job.execute_belongsTo (hb : b.Known) (job : Job) (scope : RunScope) :
    Leads (fun _ => True) (job.execute b scope) fun r _ => BelongsTo job r := by
  refine .bind (hb.submit_owns job scope).see fun r => ?_
  cases r with
  | error e => exact .pure fun _ hr => ⟨nofun, .error hr.blames⟩
  | ok u =>
    -- from here on the names are known to be valid, and the unit to be one of the job
    refine .weaken (.known (P := fun _ => True) (p := job.validate = .ok () ∧ u.job = job.name) ?_)
      fun _ hr => ⟨trivial, ?_⟩
    · intro ⟨hvalid, hu⟩
      have hunit : ∀ v, some u = some v → v.job = job.name := by
        intro v hv
        rw [← Option.some.inj hv]
        exact hu
      refine .bind (.emit _) fun _ => .bind (hb.observe_owns hvalid u).see fun r => ?_
      cases r with
      | error e => exact .pure fun _ hr => ⟨hunit, .error hr.blames⟩
      | ok p => exact .pure fun _ _ => ⟨hunit, Job.accounts_judge hvalid p⟩
    · cases hr with
      | ok hvalid hu => exact ⟨hvalid, hu⟩

theorem Job.schedule_belongsTo (hb : b.Known) (job : Job) (scope : RunScope) :
    Leads (fun _ => True) (job.schedule b scope) fun r _ => BelongsTo job r :=
  leads_schedule (execute_belongsTo hb job scope)

/-- A log that cannot be read is that of the unit's job. -/
theorem Backend.Known.logs_mentions (hb : b.Known) (u : UnitRef) : Leads (fun _ => True) (b.logs u)
    fun r _ => ∀ e, r = .error e → Mentions e.message u.job := by
  have hwatch : ∀ source : Source σ, Leads (fun _ => True) (Backend.watchLogs source u)
      fun r _ => ∀ e, r = .error e → Mentions e.message u.job := by
    refine fun source => .bind (R := fun _ _ => True) (fun _ _ => trivial) fun r => .pure fun _ _ e he => ?_
    cases r with
    | ok text => cases he
    | error cause =>
      obtain rfl := Except.error.inj he
      exact JobError.mentions_subject (.watch u.job cause)
  cases hb with
  | pods c options watcher => exact hwatch c.source
  | workerApi api watcher => exact hwatch api.source
  | idle => exact .pure fun _ _ e he => by cases he

/-! ### What is mentioned -/

/-- The first name that is not valid is that of a sidecar, and the name of the job is not quoted in it. -/
def Job.Overshadowed (job : Job) : Prop :=
  IsJobName job.name ∧ ∃ sidecar, job.sidecars.keys.find? (fun name => ¬ IsJobName name) = some sidecar ∧
    ¬ Mentions ("'" ++ sidecar ++ "'") job.name

theorem Job.not_overshadowed_of_validate (hvalid : job.validate = .ok ()) : ¬ job.Overshadowed := by
  rintro ⟨-, sidecar, hfind, -⟩
  have hnames := ExecutionUnit.validate_eq_ok_iff_namesProper.1 hvalid
  have hproper := hnames sidecar (List.mem_cons_of_mem _ (List.mem_of_find?_eq_some hfind))
  exact absurd hproper (by simpa using List.find?_some hfind)

/-- A failure that is blamed on the job mentions its name, unless that is overshadowed. -/
theorem Blames.mentions_iff {e : JobError} (h : Blames job e) :
    Mentions e.message job.name ↔ ¬ job.Overshadowed := by
  cases h with
  | job hvalid hsubject =>
    refine iff_of_true ?_ (Job.not_overshadowed_of_validate hvalid)
    rw [← hsubject]
    exact e.mentions_subject
  | @name cause hvalid =>
    obtain ⟨before, name, after, heq, hbefore, fault, hfault, rfl⟩ :=
      ExecutionUnit.validate_eq_error_iff.1 hvalid
    have hbad : ¬ IsJobName name := by
      rw [← nameFault?_eq_none_iff, hfault]
      exact Option.some_ne_none fault
    -- the name of the job is checked first, so that of a sidecar is blamed only if the job's is valid
    cases before with
    | nil =>
      obtain ⟨rfl, -⟩ := List.cons.inj heq
      refine iff_of_true (BuildError.mentions_subject (.invalidJobName job.name fault)) ?_
      exact fun hover => hbad hover.1
    | cons first before =>
      obtain ⟨rfl, hkeys⟩ := List.cons.inj heq
      obtain ⟨hjob, hbefore⟩ := List.forall_mem_cons.1 hbefore
      have hfind : job.sidecars.keys.find? (fun name => ¬ IsJobName name) = some name := by
        rw [List.find?_eq_some_iff_append]
        exact ⟨by simpa using hbad, before, after, hkeys, fun n hn => by simpa using hbefore n hn⟩
      have hover : job.Overshadowed ↔ ¬ Mentions ("'" ++ name ++ "'") job.name := by
        rw [Job.Overshadowed, hfind]
        simp [hjob]
      rw [hover, not_not]
      exact mentions_invalidJobName_iff hjob hfault

/-- **The failures of a job mention its name**, in whatever scope and on whatever backend it is run, and
whatever the state of the world is, unless it is overshadowed by that of a sidecar; then a job fails, and
its name is not mentioned. Where its log cannot be read its name is mentioned in any case. -/
theorem run_mentions_job_iff (hb : b.Known) (job : Job) (scope : RunScope)
    (s : Scene (World σ) Entry) :
    ((∀ e, (job.run b scope s).1 = .error e → Mentions e.message job.name) ↔ ¬ job.Overshadowed) ∧
    ∀ unit, unit = none ∨ unit = (job.schedule b scope s).1.1 → ∀ (t : Scene (World σ) Entry) e,
      (job.logs b unit t).1 = .error e → Mentions e.message job.name := by
  obtain ⟨hunit, hresult⟩ := Job.schedule_belongsTo hb job scope s trivial
  constructor
  · show (∀ e, (job.schedule b scope s).1.2 = .error e → _) ↔ _
    generalize (job.schedule b scope s).1.2 = r at hresult
    cases hresult with
    | ok hvalid =>
      refine iff_of_true ?_ (Job.not_overshadowed_of_validate hvalid)
      rintro e ⟨⟩
    | @error e hblames =>
      rw [← hblames.mentions_iff]
      constructor
      · exact fun h => h e rfl
      · rintro h _ ⟨rfl⟩
        exact h
  · intro unit hcases t e he
    cases unit with
    | none =>
      obtain rfl := Except.error.inj he
      exact JobError.mentions_subject (.notStarted job.name)
    | some u =>
      have hjob : u.job = job.name := by
        obtain hnone | hsome := hcases
        · cases hnone
        · exact hunit u hsome.symm
      rw [← hjob]
      exact hb.logs_mentions u { now := t.now, world := t.world.seen } trivial e he

/-- A job that mounts what nobody has declared, with a sidecar. -/
def unsupplied : Job where
  name := "build"
  sidecars := .ofList [("db", { image := "postgres" })]
  volumeMounts := [{ name := "data", mountPath := "/data" }]

/-- It fails in a cluster, and its name is mentioned. -/
theorem run_mentions_job_unsupplied :
    let b : Backend MemoryCluster := .pods MemoryCluster.cluster {} (.polling (.ofSeconds 1))
    let s : Scene (World MemoryCluster) Entry := { world := .ofCluster {} }
    (unsupplied.run b default s).1 = .error (.build (.unmatchedVolumeMount "build" "data")) ∧
      ∀ e, (unsupplied.run b default s).1 = .error e → Mentions e.message "build" := by
  intro b s
  refine ⟨by decide +kernel, ?_⟩
  refine (run_mentions_job_iff (.pods _ _ _) unsupplied default s).1.2 ?_
  exact Job.not_overshadowed_of_validate (by decide +kernel)

/-- A job with a sidecar whose name is not valid. -/
def shouting : Job where
  name := "build"
  sidecars := .ofList [("DB", { image := "postgres" })]

/-- The job fails, and is not mentioned. -/
theorem not_mentions_shouting : ∃ e,
    (shouting.run (.idle : Backend Unit) default { world := .ofCluster () }).1 = .error e ∧
      e.message = "invalid job name 'DB': character 'D' is not allowed" ∧
      ¬ Mentions e.message shouting.name :=
  ⟨.build (.invalidJobName "DB" (.disallowed 'D')), by decide +kernel, by decide +kernel,
    by decide +kernel⟩

end EventWorker
