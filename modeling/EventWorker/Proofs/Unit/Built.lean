import EventWorker.Proofs.Checks
import EventWorker.Unit

/-!
# Units that have been built

What has been checked by the time that there is a unit, and what the unit is made of. One inversion
lemma says all of it (`built_of_build`), so that nothing else has to look into `ExecutionUnit.build`.
Below it stands one lemma for each of the checks, and one for the volumes that a job's mounts name.

* `built_of_build`: the checks that a built unit has passed, and its parts.
* `attached_eq_ok`: which of the declared volumes are attached.
-/

namespace EventWorker.ExecutionUnit

open Resource

variable {options : BuildOptions} {job : Job} {event : Event} {project : Project} {now : Int}
  {u : ExecutionUnit}

/-! ### Checks and parts -/

/-- The names of the volumes that the job's own switches call for. -/
def systemNames (unit : String) (job : Job) (event : Event) (project : Project) : List String :=
  (systemVolumes unit job event project).map fun m => m.volume.name

/-- A unit has passed all checks, and is made of what job, event and project say, with the given
declared volumes attached to it. -/
structure Built (options : BuildOptions) (job : Job) (event : Event) (project : Project)
    (u : ExecutionUnit) (volumes : List Volume) : Prop where
  valid : job.validate = .ok ()
  account : checkServiceAccount options job = .ok ()
  docker : checkDocker job project = .ok ()
  attached : attached (systemNames u.name job event project) job project = .ok volumes
  namespaceName : u.namespaceName = project.namespaceName
  secret : u.secret = unitSecret u.name options.literals job event project
  pod : u.pod = unitPod options u.name job event project volumes
  cacheClaim : u.cacheClaim = cacheClaim? options job event project

/-- Whatever is built has passed the checks. -/
theorem built_of_build (h : build options job event project now = .ok u) :
    ∃ volumes, Built options job event project u volumes := by
  rw [build, Except.bind_eq_ok_iff] at h
  obtain ⟨_, hvalid, h⟩ := h
  rw [Except.bind_eq_ok_iff] at h
  obtain ⟨_, haccount, h⟩ := h
  rw [Except.bind_eq_ok_iff] at h
  obtain ⟨_, hdocker, h⟩ := h
  dsimp only at h
  rw [Except.bind_eq_ok_iff] at h
  obtain ⟨volumes, hattached, h⟩ := h
  cases h
  exact ⟨volumes, hvalid, haccount, hdocker, hattached, rfl, rfl, rfl, rfl⟩

/-- What a unit is called after, and which job it is of. -/
theorem name_and_job_of_build (h : build options job event project now = .ok u) :
    u.name = unitName options.naming job.name event now ∧ u.job = job.name := by
  rw [build, Except.bind_eq_ok_iff] at h
  obtain ⟨_, -, h⟩ := h
  rw [Except.bind_eq_ok_iff] at h
  obtain ⟨_, -, h⟩ := h
  rw [Except.bind_eq_ok_iff] at h
  obtain ⟨_, -, h⟩ := h
  dsimp only at h
  rw [Except.bind_eq_ok_iff] at h
  obtain ⟨volumes, -, h⟩ := h
  cases h
  exact ⟨rfl, rfl⟩

/-- The names of system volumes are fixed. -/
theorem systemNames_eq (unit unit' : String) :
    systemNames unit job event project = systemNames unit' job event project := by
  simp only [systemNames, systemVolumes, List.map_append, ifSo]
  rfl

/-- There is a unit if all checks are passed, and the declared volumes can be attached. -/
theorem exists_build_iff_checks : (∃ u, build options job event project now = .ok u) ↔
    job.validate = .ok () ∧ checkServiceAccount options job = .ok () ∧
      checkDocker job project = .ok () ∧
      ∃ volumes, attached (systemNames (unitName options.naming job.name event now) job event project)
        job project = .ok volumes := by
  constructor
  · rintro ⟨u, hu⟩
    obtain ⟨volumes, hbuilt⟩ := built_of_build hu
    rw [systemNames_eq _ u.name]
    exact ⟨hbuilt.valid, hbuilt.account, hbuilt.docker, volumes, hbuilt.attached⟩
  · rintro ⟨hvalid, haccount, hdocker, volumes, hattached⟩
    rw [systemNames] at hattached
    simp only [build, hvalid, haccount, hdocker, hattached, bind, Except.bind]
    exact ⟨_, rfl⟩

/-- Otherwise it is the first check not passed that says what is wrong. -/
theorem build_eq_error_iff_checks {e : BuildError} :
    build options job event project now = .error e ↔
      job.validate = .error e ∨ job.validate = .ok () ∧
        (checkServiceAccount options job = .error e ∨ checkServiceAccount options job = .ok () ∧
          (checkDocker job project = .error e ∨ checkDocker job project = .ok () ∧
            attached (systemNames (unitName options.naming job.name event now) job event project)
              job project = .error e)) := by
  have hunit : ∀ {x : Except BuildError Unit} {p : Prop},
      (∃ a, x = .ok a ∧ p) ↔ x = .ok () ∧ p := fun {_ _} =>
    ⟨fun ⟨_, h⟩ => h, fun h => ⟨(), h⟩⟩
  rw [build]
  dsimp only
  simp only [Except.bind_eq_error_iff, hunit, systemNames, pure, Except.pure, reduceCtorEq, and_false,
    exists_false, or_false]

/-- Whether there is a unit of a job does not depend on the time. -/
theorem exists_build_iff (now' : Int) : (∃ u, build options job event project now = .ok u) ↔
    ∃ u, build options job event project now' = .ok u := by
  rw [exists_build_iff_checks, exists_build_iff_checks,
    systemNames_eq _ (unitName options.naming job.name event now')]

/-- The volumes of a unit's pod. -/
def volumes (u : ExecutionUnit) : List Volume :=
  (u.pod.spec.bind (·.volumes)).getD []

/-- The system volumes come first. -/
theorem volumes_eq {declared : List Volume}
    (hpod : u.pod = unitPod options u.name job event project declared) :
    u.volumes = (systemVolumes u.name job event project).map Mounted.volume ++ declared := by
  rw [volumes, hpod]
  rfl

/-- The account is one that the worker's pattern matches, where there is a pattern. -/
theorem checkServiceAccount_eq_ok_iff : checkServiceAccount options job = .ok () ↔
    ∀ pattern, options.accountPattern = some pattern →
      pattern.isIn (serviceAccount options job) = true := by
  rw [checkServiceAccount]
  cases options.accountPattern with
  | none => simp
  | some pattern => by_cases h : pattern.isIn (serviceAccount options job) <;> simp [h]

/-- The socket is only mounted where the project lets host paths be mounted. -/
theorem checkDocker_eq_ok_iff : checkDocker job project = .ok () ↔
    (job.docker = true → project.allowHostMounts = true) := by
  rw [checkDocker]
  cases job.docker <;> cases project.allowHostMounts <;> simp

/-! ### System volumes -/

theorem mem_ifSo_iff {b : Bool} {m n : Mounted} : m ∈ ifSo b n ↔ b = true ∧ m = n := by
  rw [ifSo, List.mem_ite_nil_right, List.mem_singleton]

/-- Each of a job's switches calls for one system volume, and the hook is always there. -/
theorem mem_systemVolumes_iff {unit : String} {m : Mounted} :
    m ∈ systemVolumes unit job event project ↔
      m = ⟨{ name := hookVolume, secret := some { name := some unit } }, hookPath, some true⟩ ∨
      fetchesSource job project = true ∧
        m = ⟨{ name := sourceVolume, emptyDir := some {} }, sourcePath job, none⟩ ∨
      job.cache.enabled = true ∧
        m = ⟨claimVolume cacheVolume (cacheVolumeName project.name job.name), job.cache.path, none⟩ ∨
      job.storage.enabled = true ∧
        m = ⟨claimVolume buildVolume (buildVolumeName event.runId), job.storage.path, none⟩ ∨
      job.docker = true ∧
        m = ⟨{ name := dockerVolume, hostPath := some { path := dockerSocketPath } },
          dockerSocketPath, none⟩ := by
  simp only [systemVolumes, List.mem_append, List.mem_singleton, mem_ifSo_iff, or_assoc]

/-! ### Declared volumes -/

/-- Of the declared volumes of its name the first. -/
def FirstOfName (declared : List Volume) (v : Volume) : Prop :=
  ∃ before after, declared = before ++ v :: after ∧ ∀ w ∈ before, w.name ≠ v.name

theorem find?_eq_some_iff_firstOfName {declared : List Volume} {name : String} {v : Volume} :
    declared.find? (fun w => w.name == name) = some v ↔ v.name = name ∧ FirstOfName declared v := by
  rw [List.find?_eq_some_iff_append]
  constructor
  · rintro ⟨hname, before, after, heq, hbefore⟩
    obtain rfl : v.name = name := by simpa using hname
    refine ⟨rfl, before, after, heq, fun w hw => ?_⟩
    simpa using hbefore w hw
  · rintro ⟨rfl, before, after, heq, hbefore⟩
    refine ⟨by simp, before, after, heq, fun w hw => ?_⟩
    simpa using hbefore w hw

variable {system : List String} {mount : VolumeMount} {mounts : List VolumeMount}
  {volumes : List Volume} {v : Volume}

/-- Nothing is attached for a mount of a system volume. -/
theorem resolve_eq_none_iff :
    resolve system job project mount = .ok none ↔ mount.name ∈ system := by
  rw [resolve]
  by_cases hs : mount.name ∈ system
  · simp [hs]
  · simp only [List.contains_eq_mem, hs, decide_false, Bool.false_eq_true, if_false, iff_false]
    cases job.volumes.find? fun v => v.name == mount.name with
    | none => simp
    | some w => by_cases hhost : (w.hostPath.isSome && !project.allowHostMounts) = true <;> simp [hhost]

/-- A mount of another volume names one that is declared, and that the project allows. -/
theorem resolve_eq_some_iff : resolve system job project mount = .ok (some v) ↔
    mount.name ∉ system ∧ v.name = mount.name ∧ FirstOfName job.volumes v ∧
      (v.hostPath.isSome = true → project.allowHostMounts = true) := by
  rw [resolve]
  by_cases hs : mount.name ∈ system
  · simp [hs]
  · simp only [List.contains_eq_mem, hs, decide_false, Bool.false_eq_true, if_false,
      not_false_eq_true, true_and]
    rw [← and_assoc, ← find?_eq_some_iff_firstOfName]
    cases job.volumes.find? fun v => v.name == mount.name with
    | none => simp
    | some w =>
      by_cases hhost : (w.hostPath.isSome && !project.allowHostMounts) = true
      · simp only [hhost, if_true, reduceCtorEq, false_iff, not_and]
        rintro ⟨rfl⟩
        simpa using hhost
      · dsimp only
        rw [if_neg hhost]
        constructor
        · rintro ⟨rfl⟩
          exact ⟨rfl, by simpa using hhost⟩
        · rintro ⟨⟨rfl⟩, -⟩
          rfl

/-- What can be wrong with a mount: the volume that it names is not declared, or lies on the host where
that is not allowed. -/
theorem resolve_eq_error_iff {e : BuildError} : resolve system job project mount = .error e ↔
    mount.name ∉ system ∧
      ((∀ v ∈ job.volumes, v.name ≠ mount.name) ∧ .unmatchedVolumeMount job.name mount.name = e ∨
        ∃ v, (v.name = mount.name ∧ FirstOfName job.volumes v) ∧
          (v.hostPath.isSome && !project.allowHostMounts) = true ∧
          .hostMountDisallowed job.name v.name = e) := by
  rw [resolve]
  by_cases hs : mount.name ∈ system
  · simp [hs]
  simp only [List.contains_eq_mem, hs, decide_false, Bool.false_eq_true, if_false,
    not_false_eq_true, true_and, ← find?_eq_some_iff_firstOfName]
  cases hfind : job.volumes.find? fun v => v.name == mount.name with
  | none =>
    have hnone : ∀ v ∈ job.volumes, v.name ≠ mount.name := by simpa using hfind
    simp only [iff_true_intro hnone, true_and, reduceCtorEq, false_and, exists_false, or_false,
      Except.error.injEq]
  | some w =>
    have hsome : ¬ ∀ v ∈ job.volumes, v.name ≠ mount.name := fun h =>
      h w (List.mem_of_find?_eq_some hfind) (find?_eq_some_iff_firstOfName.1 hfind).1
    by_cases hhost : (w.hostPath.isSome && !project.allowHostMounts) = true
    · simp only [hhost, if_true, hsome, false_and, false_or, Except.error.injEq, Option.some.injEq,
        exists_eq_left', true_and]
    · simp only [hhost, if_false, hsome, false_and, false_or, Option.some.injEq, exists_eq_left',
        reduceCtorEq]

theorem resolveAll_cons (system : List String) (job : Job) (project : Project) (mount : VolumeMount)
    (mounts : List VolumeMount) : resolveAll system job project (mount :: mounts) =
      resolve system job project mount >>= fun found =>
        resolveAll system job project mounts >>= fun others => .ok (found.toList ++ others) :=
  rfl

/-- Mounts are resolved together if each of them is. -/
theorem exists_resolveAll_iff : (∃ volumes, resolveAll system job project mounts = .ok volumes) ↔
    ∀ m ∈ mounts, ∃ found, resolve system job project m = .ok found :=
  Except.each_ok_iff (resolveAll_cons system job project) ⟨[], rfl⟩ mounts

/-- Otherwise the first that is not resolved says what is wrong. -/
theorem resolveAll_eq_error_iff {e : BuildError} :
    resolveAll system job project mounts = .error e ↔
      ∃ before m after, mounts = before ++ m :: after ∧
        (∀ n ∈ before, ∃ found, resolve system job project n = .ok found) ∧
        resolve system job project m = .error e :=
  Except.each_error_iff (resolveAll_cons system job project) ⟨[], rfl⟩ mounts

/-- They are resolved to the volumes that each of them is resolved to. -/
theorem mem_of_resolveAll (h : resolveAll system job project mounts = .ok volumes) :
    ∀ v, v ∈ volumes ↔ ∃ m ∈ mounts, resolve system job project m = .ok (some v) := by
  induction mounts generalizing volumes with
  | nil =>
    obtain rfl : [] = volumes := Except.ok.inj h
    simp
  | cons m ms ih =>
    rw [resolveAll_cons, Except.bind_eq_ok_iff] at h
    obtain ⟨found, hm, h⟩ := h
    rw [Except.bind_eq_ok_iff] at h
    obtain ⟨others, hms, h⟩ := h
    obtain rfl : found.toList ++ others = volumes := Except.ok.inj h
    intro v
    simp only [List.mem_append, Option.mem_toList, ih hms, List.mem_cons, exists_eq_or_imp, hm,
      Except.ok.injEq]

/-- It only matters what the job is called, which volumes and mounts it has, and whether the project allows
paths of the host. -/
theorem attached_congr {job' : Job} {project' : Project} (hname : job.name = job'.name)
    (hvolumes : job.volumes = job'.volumes) (hmounts : job.volumeMounts = job'.volumeMounts)
    (hproject : project.allowHostMounts = project'.allowHostMounts) :
    attached system job project = attached system job' project' := by
  have hresolve : ∀ m, resolve system job project m = resolve system job' project' m := fun m => by
    rw [resolve, resolve, hname, hvolumes, hproject]
  have hall : ∀ ms, resolveAll system job project ms = resolveAll system job' project' ms := by
    intro ms
    induction ms with
    | nil => rfl
    | cons m ms ih => rw [resolveAll_cons, resolveAll_cons, hresolve, ih]
  rw [attached, attached, hmounts, hall]

/-! ### One volume of each name -/

/-- No two of the volumes have a name in common. -/
theorem pairwise_firstOfEach (vs : List Volume) :
    (firstOfEach vs).Pairwise fun v w => v.name ≠ w.name := by
  induction vs with
  | nil => exact List.Pairwise.nil
  | cons v vs ih =>
    refine List.pairwise_cons.2 ⟨fun w hw => ?_, ih.filter _⟩
    have hne : (w.name != v.name) = true := (List.mem_filter.1 hw).2
    exact fun h => (bne_iff_ne.1 hne) h.symm

/-- Where a name stands for one volume only, none of the volumes is left out. -/
theorem mem_firstOfEach_iff {vs : List Volume}
    (h : ∀ v ∈ vs, ∀ w ∈ vs, v.name = w.name → v = w) : v ∈ firstOfEach vs ↔ v ∈ vs := by
  induction vs with
  | nil => rfl
  | cons w ws ih =>
    have hws := ih fun a ha b hb => h a (List.mem_cons_of_mem w ha) b (List.mem_cons_of_mem w hb)
    rw [firstOfEach, List.mem_cons, List.mem_cons, List.mem_filter, hws]
    constructor
    · rintro (rfl | ⟨hv, -⟩)
      · exact Or.inl rfl
      · exact Or.inr hv
    · rintro (rfl | hv)
      · exact Or.inl rfl
      · by_cases hname : v.name = w.name
        · exact Or.inl (h v (List.mem_cons_of_mem w hv) w List.mem_cons_self hname)
        · exact Or.inr ⟨hv, by simpa using hname⟩

theorem firstOfName_unique {declared : List Volume} {v w : Volume} (hv : FirstOfName declared v)
    (hw : FirstOfName declared w) (h : v.name = w.name) : v = w := by
  have hfv := find?_eq_some_iff_firstOfName.2 ⟨rfl, hv⟩
  have hfw := find?_eq_some_iff_firstOfName.2 ⟨rfl, hw⟩
  rw [h] at hfv
  exact Option.some.inj (hfv.symm.trans hfw)

/-! ### Attached volumes -/

/-- What is known of the declared volumes that are attached. -/
structure Attached (system : List String) (job : Job) (project : Project) (volumes : List Volume) :
    Prop where
  distinct : volumes.Pairwise fun v w => v.name ≠ w.name
  mem_iff : ∀ v, v ∈ volumes ↔
    (∃ m ∈ job.volumeMounts, m.name = v.name) ∧ v.name ∉ system ∧ FirstOfName job.volumes v
  found : ∀ m ∈ job.volumeMounts, m.name ∈ system ∨ ∃ v ∈ volumes, v.name = m.name
  hostPath : ∀ v ∈ volumes, v.hostPath.isSome = true → project.allowHostMounts = true

/-- **A declared volume is attached** if a mount names it, no system volume has its name, and it is the
first of its name. -/
theorem attached_eq_ok (h : attached system job project = .ok volumes) :
    Attached system job project volumes := by
  obtain ⟨all, hall, rfl⟩ : ∃ all, resolveAll system job project job.volumeMounts = .ok all ∧
      firstOfEach all = volumes := by
    rw [attached] at h
    cases hall : resolveAll system job project job.volumeMounts with
    | error e =>
      rw [hall] at h
      cases h
    | ok all =>
      rw [hall] at h
      exact ⟨all, rfl, Except.ok.inj h⟩
  have hresolved := exists_resolveAll_iff.1 ⟨all, hall⟩
  have hmem := mem_of_resolveAll hall
  -- a name is resolved to the same volume wherever a mount has it
  have hone : ∀ v ∈ all, ∀ w ∈ all, v.name = w.name → v = w := by
    intro v hv w hw hname
    obtain ⟨m, -, hm⟩ := (hmem v).1 hv
    obtain ⟨n, -, hn⟩ := (hmem w).1 hw
    exact firstOfName_unique (resolve_eq_some_iff.1 hm).2.2.1 (resolve_eq_some_iff.1 hn).2.2.1 hname
  have hiff : ∀ v, v ∈ firstOfEach all ↔
      ∃ m ∈ job.volumeMounts, resolve system job project m = .ok (some v) :=
    fun v => (mem_firstOfEach_iff hone).trans (hmem v)
  refine ⟨pairwise_firstOfEach all, fun v => ?_, fun m hm => ?_, fun v hv => ?_⟩
  · rw [hiff]
    constructor
    · rintro ⟨m, hm, hv⟩
      obtain ⟨hs, hname, hfirst, -⟩ := resolve_eq_some_iff.1 hv
      exact ⟨⟨m, hm, hname.symm⟩, hname ▸ hs, hfirst⟩
    · rintro ⟨⟨m, hm, hname⟩, hs, hfirst⟩
      obtain ⟨found, hfound⟩ := hresolved m hm
      cases found with
      | none => exact absurd (hname ▸ resolve_eq_none_iff.1 hfound) hs
      | some w =>
        obtain ⟨-, hw, hwfirst, -⟩ := resolve_eq_some_iff.1 hfound
        obtain rfl : w = v := firstOfName_unique hwfirst hfirst (hw.trans hname)
        exact ⟨m, hm, hfound⟩
  · obtain ⟨found, hfound⟩ := hresolved m hm
    cases found with
    | none => exact Or.inl (resolve_eq_none_iff.1 hfound)
    | some w => exact Or.inr ⟨w, (hiff w).2 ⟨m, hm, hfound⟩, (resolve_eq_some_iff.1 hfound).2.1⟩
  · obtain ⟨m, -, hm⟩ := (hiff v).1 hv
    exact (resolve_eq_some_iff.1 hm).2.2.2

end EventWorker.ExecutionUnit
