import EventWorker.Cluster.ApiServer
import EventWorker.Proofs.Unit.Environment
import EventWorker.Proofs.Unit.Refused
import EventWorker.Proofs.WorkerApi.SourcePath

/-!
# Names of containers

The containers of a pod get their names from three places: the first one is called like the job, sidecars are
called what the job calls them, and the one that fetches the source has a name that is always the same. All of
these are job names. Sidecars cannot have one name, but nothing keeps the three places apart.

Main statement: `containerNames_nodup_iff`, when no two containers have one name, and when the log of the job
can only be that of its first container.
-/

namespace EventWorker

open Resource

/-! ### Job names in a query -/

theorem keptInForm_of_isLabelChar {c : Char} (h : isLabelChar c) : Url.keptInForm c := by
  simp only [isLabelChar, isLabelLetter, Bool.or_eq_true, Bool.and_eq_true, decide_eq_true_eq,
    beq_iff_eq] at h
  obtain (hletter | hdigit) | rfl := h
  · have hlower : c.isLower := Bool.and_eq_true_iff.2 ⟨decide_eq_true hletter.1, decide_eq_true hletter.2⟩
    have halpha : c.isAlpha := Bool.or_eq_true_iff.2 (.inr hlower)
    simp [Url.keptInForm, Char.isAlphanum, halpha]
  · simp [Url.keptInForm, Char.isAlphanum, hdigit]
  · decide

/-- A job name stands in a query as it is. -/
theorem Url.formValue_of_isJobName {name : String} (h : IsJobName name) : formValue name = name := by
  have hchar : ∀ c ∈ name.toList, (if c = ' ' then ['+'] else encode keptInForm [c]) = [c] := by
    intro c hc
    have hlabel := (isJobName_iff.1 h).2.2.1 c hc
    have hblank : c ≠ ' ' := by
      rintro rfl
      exact absurd hlabel (by decide)
    rw [if_neg hblank]
    simp [encode, keptInForm_of_isLabelChar hlabel]
  rw [formValue, List.flatMap_congr hchar, List.flatMap_singleton', String.ofList_toList]

/-! ### Containers of a unit -/

namespace ExecutionUnit

variable {options : BuildOptions} {job : Job} {event : Event} {project : Project} {now : Int}
  {u : ExecutionUnit}

/-- The names of all containers of a unit, of those that run first and of the others. -/
def containerNames (u : ExecutionUnit) : List String :=
  (u.initContainers ++ u.containers).map (·.name)

/-- The names that are fixed for a job. -/
def fixedNames (job : Job) (project : Project) : List String :=
  if fetchesSource job project then [sourceVolume] else []

theorem mem_fixedNames_iff {name : String} : name ∈ fixedNames job project ↔
    fetchesSource job project = true ∧ name = sourceVolume := by
  unfold fixedNames
  split
  · next h => simp [h]
  · next h => simp [h]

theorem nodup_fixedNames (job : Job) (project : Project) : (fixedNames job project).Nodup := by
  unfold fixedNames
  split
  · exact List.nodup_singleton _
  · exact List.nodup_nil

/-- The three places that names of containers come from. -/
theorem containerNames_eq (h : build options job event project now = .ok u) :
    u.containerNames = fixedNames job project ++ job.name :: job.sidecars.keys := by
  obtain ⟨-, -, volumes, hpod⟩ := build_ok h
  rw [containerNames, initContainers_eq hpod, containers_eq hpod, List.map_append, List.map_cons,
    List.map_map]
  congr 1
  unfold fixedNames
  split <;> rfl

/-- The name of the job is not that of a sidecar, nor of the container that fetches the source if there is
one. -/
structure OwnName (job : Job) (project : Project) : Prop where
  sidecars : job.name ∉ job.sidecars.keys
  source : fetchesSource job project = true → job.name ≠ sourceVolume

theorem ref_job (h : build options job event project now = .ok u) : u.ref.job = job.name :=
  (name_and_job_of_build h).2

/-- Where the log of a unit is asked for: it is that of the container that is called like the job. -/
theorem logsPath_ref (h : build options job event project now = .ok u) : ApiServer.logsPath u.ref =
    ApiServer.podsPath u.namespaceName ++ "/" ++ u.name ++ "/log?&container=" ++ job.name := by
  have hname : IsJobName job.name := (exists_build_iff_proper.1 ⟨u, h⟩).1 _ List.mem_cons_self
  rw [ApiServer.logsPath, ref_job h, Url.formValue_of_isJobName hname]
  rfl

/-- The fixed name of a container could be that of a job. -/
theorem isJobName_sourceVolume : IsJobName sourceVolume := by
  decide +kernel

theorem isJobName_of_mem_containerNames (h : build options job event project now = .ok u) {name : String}
    (hname : name ∈ u.containerNames) : IsJobName name := by
  rw [containerNames_eq h, List.mem_append, mem_fixedNames_iff] at hname
  obtain ⟨-, rfl⟩ | hname := hname
  · exact isJobName_sourceVolume
  · exact (exists_build_iff_proper.1 ⟨u, h⟩).1 name hname

theorem nodup_iff_of_build (h : build options job event project now = .ok u) : u.containerNames.Nodup ↔
    OwnName job project ∧ (fetchesSource job project = true → sourceVolume ∉ job.sidecars.keys) := by
  rw [containerNames_eq h, List.nodup_append', List.nodup_cons]
  simp only [nodup_fixedNames, Table.nodup_keys, true_and, and_true, List.disjoint_left,
    mem_fixedNames_iff, List.mem_cons]
  constructor
  · rintro ⟨hsidecar, hfixed⟩
    refine ⟨⟨hsidecar, ?_⟩, ?_⟩
    · intro hfetches heq
      exact hfixed ⟨hfetches, rfl⟩ (.inl heq.symm)
    · intro hfetches hmem
      exact hfixed ⟨hfetches, rfl⟩ (.inr hmem)
  · rintro ⟨hown, hsource⟩
    refine ⟨hown.sidecars, ?_⟩
    rintro name ⟨hfetches, rfl⟩ (heq | hmem)
    · exact hown.source hfetches heq.symm
    · exact hsource hfetches hmem

theorem count_iff_of_build (h : build options job event project now = .ok u) :
    u.containerNames.count job.name = 1 ↔ OwnName job project := by
  have hcount : u.containerNames.count job.name =
      (fixedNames job project).count job.name + job.sidecars.keys.count job.name + 1 := by
    rw [containerNames_eq h, List.count_append, List.count_cons_self, Nat.add_assoc]
  rw [hcount, Nat.add_eq_right, Nat.add_eq_zero_iff, List.count_eq_zero, List.count_eq_zero,
    mem_fixedNames_iff, not_and]
  constructor
  · rintro ⟨hsource, hsidecars⟩
    exact ⟨hsidecars, hsource⟩
  · intro hown
    exact ⟨hown.source, hown.sidecars⟩

/-- **When the names of containers are distinct.** Each of them is a job name. They are distinct exactly if
the job and the container that fetches its source are called otherwise than any sidecar and than each other.
The log of the unit is asked for by the name of the job, and one container has this name exactly if no other
is called like the job. -/
theorem containerNames_nodup_iff (h : build options job event project now = .ok u) :
    (∀ name ∈ u.containerNames, IsJobName name) ∧
    (u.containerNames.Nodup ↔ OwnName job project ∧
      (fetchesSource job project = true → sourceVolume ∉ job.sidecars.keys)) ∧
    ApiServer.logsPath u.ref =
      ApiServer.podsPath u.namespaceName ++ "/" ++ u.name ++ "/log?&container=" ++ job.name ∧
    (u.containerNames.count job.name = 1 ↔ OwnName job project) :=
  ⟨fun _ hname => isJobName_of_mem_containerNames h hname, nodup_iff_of_build h, logsPath_ref h,
    count_iff_of_build h⟩

/-- A job with sidecars of their own names, whose source is fetched. -/
theorem containerNames_nodup_agreeing :
    ∃ u, build {} agreeing (.new "run1" "github" "push") sourced 0 = .ok u ∧
      u.containerNames.Nodup ∧ u.containerNames.count agreeing.name = 1 := by
  obtain ⟨u, h⟩ : ∃ u, build {} agreeing (.new "run1" "github" "push") sourced 0 = .ok u :=
    Except.exists_ok_of_isOk (by decide +kernel)
  have hown : OwnName agreeing sourced := ⟨by decide +kernel, fun _ => by decide +kernel⟩
  obtain ⟨-, hnodup, -, hcount⟩ := containerNames_nodup_iff h
  exact ⟨u, h, hnodup.2 ⟨hown, fun _ => by decide +kernel⟩, hcount.2 hown⟩

/-- A job that is called like its sidecar. -/
def namesake : Job where
  name := "db"
  container := { image := "alpine" }
  sidecars := .ofList [("db", { image := "postgres" })]

/-- There is a unit of the job, with two containers that the log could be that of. -/
theorem not_nodup_namesake :
    ∃ u, build {} namesake (.new "run1" "github" "push") {} 0 = .ok u ∧
      u.containerNames = ["db", "db"] ∧ ¬ u.containerNames.Nodup ∧
      u.containerNames.count namesake.name = 2 := by
  obtain ⟨u, h⟩ : ∃ u, build {} namesake (.new "run1" "github" "push") {} 0 = .ok u :=
    Except.exists_ok_of_isOk (by decide +kernel)
  have hnames : u.containerNames = ["db", "db"] := by
    rw [containerNames_eq h]
    decide +kernel
  refine ⟨u, h, hnames, ?_, ?_⟩
  · rw [hnames]
    decide
  · rw [hnames]
    decide

end ExecutionUnit

end EventWorker
