import EventWorker.Proofs.Job.Name
import EventWorker.Proofs.Unit.Closed

/-!
# Jobs that are refused

There is no unit of a job if a name is wrong, if its service account is, if it wants the socket of a host
whose paths are not to be mounted, or if one of its mounts cannot be supplied. They are looked into in this
order, names and mounts one after another, and the first fault is the one that is reported (`Refused`).
Which mounts can be supplied depends on the switches of the job, since the system volumes that these call
for need not be declared. Neither the order of the mounts nor what is declared and not mounted makes a
difference to whether there is a unit.

Main statement: `build_judged`.
-/

namespace EventWorker.ExecutionUnit

open Resource

/-! ### What is asked of a job -/

/-- The job and its sidecars have job names. -/
def NamesProper (job : Job) : Prop :=
  ∀ name ∈ job.name :: job.sidecars.keys, IsJobName name

/-- The account that the job is to run under is one that the configured pattern matches. -/
def AccountAccepted (options : BuildOptions) (job : Job) : Prop :=
  ∀ pattern, options.accountPattern = some pattern → pattern.isIn (serviceAccount options job) = true

/-- The socket is only asked for where paths of the host may be mounted. -/
def SocketAllowed (job : Job) (project : Project) : Prop :=
  job.docker = true → project.allowHostMounts = true

/-- A mount names a system volume, or a declared one of which the first is not on the host, unless that
is allowed. -/
def Supplied (job : Job) (project : Project) (mount : VolumeMount) : Prop :=
  IsSystem job project mount.name ∨
    ∃ v, (v.name = mount.name ∧ FirstOfName job.volumes v) ∧
      (v.hostPath.isSome = true → project.allowHostMounts = true)

/-- What is wrong with a mount that names no system volume. -/
inductive MountFault (job : Job) (project : Project) (mount : VolumeMount) : BuildError → Prop where
  | unmatched : ¬ IsSystem job project mount.name → (∀ v ∈ job.volumes, v.name ≠ mount.name) →
      MountFault job project mount (.unmatchedVolumeMount job.name mount.name)
  | onHost {v : Volume} : ¬ IsSystem job project mount.name →
      v.name = mount.name → FirstOfName job.volumes v →
      v.hostPath.isSome = true → project.allowHostMounts = false →
      MountFault job project mount (.hostMountDisallowed job.name v.name)

/-- Why there is no unit of a job: the first thing that is wrong with it. -/
inductive Refused (options : BuildOptions) (job : Job) (project : Project) : BuildError → Prop where
  | name {before after : List String} {name : String} {fault : NameFault} :
      job.name :: job.sidecars.keys = before ++ name :: after → (∀ n ∈ before, IsJobName n) →
      nameFault? name = some fault →
      Refused options job project (.invalidJobName name fault)
  | account {pattern : Text.Pattern} : NamesProper job →
      options.accountPattern = some pattern → pattern.isIn (serviceAccount options job) = false →
      Refused options job project
        (.serviceAccountRejected job.name (serviceAccount options job) pattern.text)
  | socket : NamesProper job → AccountAccepted options job →
      job.docker = true → project.allowHostMounts = false →
      Refused options job project (.hostMountDisallowed job.name dockerVolume)
  | mount {before after : List VolumeMount} {mount : VolumeMount} {e : BuildError} :
      NamesProper job → AccountAccepted options job → SocketAllowed job project →
      job.volumeMounts = before ++ mount :: after → (∀ m ∈ before, Supplied job project m) →
      MountFault job project mount e →
      Refused options job project e

/-- Whatever is decided about a job, and what makes no difference to it. -/
structure Judged (options : BuildOptions) (job : Job) (event : Event) (project : Project) (now : Int) :
    Prop where
  refused : ∀ e, build options job event project now = .error e ↔ Refused options job project e
  accepted : (∃ u, build options job event project now = .ok u) ↔
    NamesProper job ∧ AccountAccepted options job ∧ SocketAllowed job project ∧
      ∀ m ∈ job.volumeMounts, Supplied job project m
  /-- A wrong name is reported whatever else is wrong. -/
  misnamed : (∃ name fault, build options job event project now = .error (.invalidJobName name fault)) ↔
    ¬ NamesProper job
  /-- A wrong account is reported whatever else is wrong but for the names. -/
  rejected : (∃ pattern, build options job event project now =
      .error (.serviceAccountRejected job.name (serviceAccount options job) pattern)) ↔
    NamesProper job ∧ ¬ AccountAccepted options job
  anyOrder : ∀ mounts, mounts.Perm job.volumeMounts →
    ((∃ u, build options { job with volumeMounts := mounts } event project now = .ok u) ↔
      ∃ u, build options job event project now = .ok u)
  /-- Only the declared volumes that a mount names are of interest, in their order. -/
  notMounted : ∀ volumes,
    volumes.filter (fun v => v.name ∈ job.volumeMounts.map (·.name)) =
      job.volumes.filter (fun v => v.name ∈ job.volumeMounts.map (·.name)) →
    ((∃ u, build options { job with volumes := volumes } event project now = .ok u) ↔
      ∃ u, build options job event project now = .ok u)

variable {options : BuildOptions} {job : Job} {event : Event} {project : Project} {now : Int}
  {mount : VolumeMount} {e : BuildError}

/-! ### Names -/

theorem validate_eq_ok_iff_namesProper : job.validate = .ok () ↔ NamesProper job := by
  simp only [Job.validate_eq_ok_iff, nameFault?_eq_none_iff, NamesProper]

/-- The first name with a fault is the one that is reported. -/
theorem validate_eq_error_iff : job.validate = .error e ↔
    ∃ before name after, job.name :: job.sidecars.keys = before ++ name :: after ∧
      (∀ n ∈ before, IsJobName n) ∧
      ∃ fault, nameFault? name = some fault ∧ .invalidJobName name fault = e := by
  have hname : ∀ name, (∃ a, Job.checkName name = .ok a) ↔ IsJobName name := by
    intro name
    rw [← nameFault?_eq_none_iff, ← Job.checkName_eq_ok_iff]
    exact ⟨fun ⟨_, h⟩ => h, fun h => ⟨(), h⟩⟩
  have hfault : ∀ name, Job.checkName name = .error e ↔
      ∃ fault, nameFault? name = some fault ∧ .invalidJobName name fault = e := by
    intro name
    rw [Job.checkName]
    cases nameFault? name with
    | none => simp
    | some fault => simp
  simp only [← hname, ← hfault]
  exact Except.each_error_iff Job.checkNames_cons ⟨(), rfl⟩ _

/-! ### Account and socket -/

theorem checkServiceAccount_eq_error_iff : checkServiceAccount options job = .error e ↔
    ∃ pattern, options.accountPattern = some pattern ∧
      pattern.isIn (serviceAccount options job) = false ∧
      .serviceAccountRejected job.name (serviceAccount options job) pattern.text = e := by
  rw [checkServiceAccount]
  cases options.accountPattern with
  | none => simp
  | some pattern => by_cases h : pattern.isIn (serviceAccount options job) = true <;> simp [h]

theorem checkDocker_eq_error_iff : checkDocker job project = .error e ↔
    (job.docker = true ∧ project.allowHostMounts = false) ∧
      .hostMountDisallowed job.name dockerVolume = e := by
  rw [checkDocker]
  cases job.docker <;> cases project.allowHostMounts <;> simp

/-! ### Mounts -/

/-- A mount can be resolved exactly if it is supplied. -/
theorem supplied_iff (unit : String) (event : Event) : Supplied job project mount ↔
    ∃ found, resolve (systemNames unit job event project) job project mount = .ok found := by
  rw [Option.exists]
  simp only [resolve_eq_none_iff, resolve_eq_some_iff, mem_systemNames_iff, Supplied, ← and_assoc]
  by_cases h : IsSystem job project mount.name <;> simp [h, and_assoc]

theorem mountFault_iff (unit : String) (event : Event) : MountFault job project mount e ↔
    resolve (systemNames unit job event project) job project mount = .error e := by
  rw [resolve_eq_error_iff, mem_systemNames_iff]
  constructor
  · intro h
    cases h with
    | unmatched hs hnone => exact ⟨hs, .inl ⟨hnone, rfl⟩⟩
    | onHost hs hname hfirst hhost hallow =>
      exact ⟨hs, .inr ⟨_, ⟨hname, hfirst⟩, by simp [hhost, hallow], rfl⟩⟩
  · rintro ⟨hs, ⟨hnone, rfl⟩ | ⟨v, ⟨hname, hfirst⟩, hhost, rfl⟩⟩
    · exact .unmatched hs hnone
    · simp only [Bool.and_eq_true, Bool.not_eq_true'] at hhost
      exact .onHost hs hname hfirst hhost.1 hhost.2

theorem exists_attached_iff (unit : String) (event : Event) :
    (∃ volumes, attached (systemNames unit job event project) job project = .ok volumes) ↔
      ∀ m ∈ job.volumeMounts, Supplied job project m := by
  simp only [supplied_iff unit event, ← exists_resolveAll_iff, attached]
  cases resolveAll (systemNames unit job event project) job project job.volumeMounts with
  | error e => simp
  | ok volumes => simp

theorem attached_eq_error_iff (unit : String) (event : Event) :
    attached (systemNames unit job event project) job project = .error e ↔
      ∃ before m after, job.volumeMounts = before ++ m :: after ∧
        (∀ n ∈ before, Supplied job project n) ∧ MountFault job project m e := by
  simp only [supplied_iff unit event, mountFault_iff unit event, ← resolveAll_eq_error_iff, attached]
  cases resolveAll (systemNames unit job event project) job project job.volumeMounts with
  | error e => simp
  | ok volumes => simp

/-! ### The whole job -/

/-- There is a unit of a job exactly if nothing is wrong with it. -/
theorem exists_build_iff_proper : (∃ u, build options job event project now = .ok u) ↔
    NamesProper job ∧ AccountAccepted options job ∧ SocketAllowed job project ∧
      ∀ m ∈ job.volumeMounts, Supplied job project m := by
  rw [exists_build_iff_checks, validate_eq_ok_iff_namesProper, checkServiceAccount_eq_ok_iff,
    checkDocker_eq_ok_iff, exists_attached_iff]
  rfl

/-- If there is none, the first fault says why. -/
theorem build_eq_error_iff_refused :
    build options job event project now = .error e ↔ Refused options job project e := by
  rw [build_eq_error_iff_checks, validate_eq_ok_iff_namesProper, validate_eq_error_iff,
    checkServiceAccount_eq_ok_iff, checkServiceAccount_eq_error_iff, checkDocker_eq_ok_iff,
    checkDocker_eq_error_iff, attached_eq_error_iff]
  constructor
  · rintro (⟨before, name, after, heq, hbefore, fault, hfault, rfl⟩ | ⟨hnames, h⟩)
    · exact .name heq hbefore hfault
    rcases h with ⟨pattern, hpattern, haccount, rfl⟩ | ⟨haccount, h⟩
    · exact .account hnames hpattern haccount
    rcases h with ⟨⟨hdocker, hallow⟩, rfl⟩ | ⟨hsocket, before, m, after, heq, hbefore, hfault⟩
    · exact .socket hnames haccount hdocker hallow
    · exact .mount hnames haccount hsocket heq hbefore hfault
  · intro h
    cases h with
    | name heq hbefore hfault => exact .inl ⟨_, _, _, heq, hbefore, _, hfault, rfl⟩
    | account hnames hpattern haccount =>
      exact .inr ⟨hnames, .inl ⟨_, hpattern, haccount, rfl⟩⟩
    | socket hnames haccount hdocker hallow =>
      exact .inr ⟨hnames, .inr ⟨haccount, .inl ⟨⟨hdocker, hallow⟩, rfl⟩⟩⟩
    | mount hnames haccount hsocket heq hbefore hfault =>
      exact .inr ⟨hnames, .inr ⟨haccount, .inr ⟨hsocket, _, _, _, heq, hbefore, hfault⟩⟩⟩

/-- A fault of a name is reported exactly if there is one. -/
theorem exists_invalidJobName_iff :
    (∃ name fault, build options job event project now = .error (.invalidJobName name fault)) ↔
      ¬ NamesProper job := by
  constructor
  · rintro ⟨name, fault, h⟩ hnames
    cases build_eq_error_iff_refused.1 h with
    | name heq _ hfault =>
      have hproper : IsJobName name :=
        hnames name (heq ▸ List.mem_append_right _ List.mem_cons_self)
      rw [nameFault?_eq_none_iff.2 hproper] at hfault
      cases hfault
    | mount _ _ _ _ _ hfault => cases hfault
  · intro hnames
    cases hvalid : job.validate with
    | ok _ => exact absurd (validate_eq_ok_iff_namesProper.1 hvalid) hnames
    | error e =>
      obtain ⟨-, name, -, -, -, fault, -, rfl⟩ := validate_eq_error_iff.1 hvalid
      exact ⟨name, fault, build_eq_error_iff_checks.2 (.inl hvalid)⟩

/-- The account is reported exactly if it is wrong and the names are not. -/
theorem exists_serviceAccountRejected_iff :
    (∃ pattern, build options job event project now =
        .error (.serviceAccountRejected job.name (serviceAccount options job) pattern)) ↔
      NamesProper job ∧ ¬ AccountAccepted options job := by
  constructor
  · rintro ⟨text, h⟩
    cases build_eq_error_iff_refused.1 h with
    | account hnames hpattern hno =>
      exact ⟨hnames, fun haccount => absurd (haccount _ hpattern) (by simp [hno])⟩
    | mount _ _ _ _ _ hfault => cases hfault
  · rintro ⟨hnames, haccount⟩
    simp only [AccountAccepted, not_forall, Bool.not_eq_true] at haccount
    obtain ⟨pattern, hpattern, hno⟩ := haccount
    exact ⟨pattern.text, build_eq_error_iff_refused.2 (.account hnames hpattern hno)⟩

/-! ### What makes no difference -/

/-- What a mount needs has to do with the switches of the job and with the first declared volume of the
name. -/
theorem supplied_congr {job' : Job} (unit : String) (event : Event)
    (hsystem : systemNames unit job' event project = systemNames unit job event project)
    (hfind : job'.volumes.find? (fun v => v.name == mount.name) =
      job.volumes.find? (fun v => v.name == mount.name)) :
    Supplied job' project mount ↔ Supplied job project mount := by
  simp only [Supplied, ← mem_systemNames_iff unit event, ← find?_eq_some_iff_firstOfName, hsystem,
    hfind]

theorem exists_build_iff_of_perm {mounts : List VolumeMount} (h : mounts.Perm job.volumeMounts) :
    (∃ u, build options { job with volumeMounts := mounts } event project now = .ok u) ↔
      ∃ u, build options job event project now = .ok u := by
  have hmounts : (∀ m ∈ mounts, Supplied { job with volumeMounts := mounts } project m) ↔
      ∀ m ∈ job.volumeMounts, Supplied job project m := by
    simp only [h.mem_iff]
    exact forall₂_congr fun m _ => supplied_congr "" event rfl rfl
  rw [exists_build_iff_proper, exists_build_iff_proper]
  exact and_congr_right' (and_congr_right' (and_congr_right' hmounts))

/-- Declared volumes with names that no mount has are never looked at. -/
theorem find?_filter_named {mounts : List VolumeMount} (hm : mount ∈ mounts)
    (volumes : List Volume) :
    (volumes.filter fun v => v.name ∈ mounts.map (·.name)).find? (fun v => v.name == mount.name) =
      volumes.find? fun v => v.name == mount.name := by
  rw [List.find?_filter]
  refine congrArg (List.find? · volumes) (funext fun v => ?_)
  by_cases h : v.name = mount.name
  · have hmem : mount.name ∈ mounts.map (·.name) := List.mem_map_of_mem hm
    simp only [h, hmem, decide_true, true_and, Bool.decide_eq_true]
  · simp [h]

theorem exists_build_iff_of_filter {volumes : List Volume}
    (h : volumes.filter (fun v => v.name ∈ job.volumeMounts.map (·.name)) =
      job.volumes.filter (fun v => v.name ∈ job.volumeMounts.map (·.name))) :
    (∃ u, build options { job with volumes := volumes } event project now = .ok u) ↔
      ∃ u, build options job event project now = .ok u := by
  have hmounts : (∀ m ∈ job.volumeMounts, Supplied { job with volumes := volumes } project m) ↔
      ∀ m ∈ job.volumeMounts, Supplied job project m := by
    refine forall₂_congr fun m hm => supplied_congr "" event rfl ?_
    rw [← find?_filter_named hm job.volumes, ← h, find?_filter_named hm]
  rw [exists_build_iff_proper, exists_build_iff_proper]
  exact and_congr_right' (and_congr_right' (and_congr_right' hmounts))

/-- **A job is refused for the first thing that is wrong with it**, and not refused if nothing is. -/
theorem build_judged (options : BuildOptions) (job : Job) (event : Event) (project : Project)
    (now : Int) : Judged options job event project now where
  refused _ := build_eq_error_iff_refused
  accepted := exists_build_iff_proper
  misnamed := exists_invalidJobName_iff
  rejected := exists_serviceAccountRejected_iff
  anyOrder _ := exists_build_iff_of_perm
  notMounted _ := exists_build_iff_of_filter

end EventWorker.ExecutionUnit
