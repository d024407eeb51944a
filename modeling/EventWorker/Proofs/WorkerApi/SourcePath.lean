import EventWorker.Proofs.Unit.Closed
import EventWorker.Proofs.WorkerApi.Privilege

/-!
# Where containers see the source

Each container of a job, the first and the sidecars alike, may say where it wants the fetched source, and
has it at the usual place if it does not. The request to the worker API repeats what each of them says. In
a pod the source is mounted at one path for all: at that of the first container. So a sidecar sees the
source where it wants it exactly if it wants it where the first container does.

Main statement: `seesSource_iff`.
-/

namespace EventWorker

/-- Where a container wants the source. -/
def Container.sourcePath (c : Container) : String :=
  c.sourceMountPath.getD ExecutionUnit.defaultSourcePath

/-- Where a container is to have the source, according to a request. -/
def ContainerRequest.sourcePath (c : ContainerRequest) : String :=
  c.sourceMountPath.getD ExecutionUnit.defaultSourcePath

/-- The containers of a job by their names. The first is called after the job. -/
def Job.containers (j : Job) : List (String × Container) :=
  (j.name, j.container) :: j.sidecars.entries

namespace ExecutionUnit

open Resource JobRequest

/-- A container has the volume that the source is fetched to mounted at a path. -/
def MountsSourceAt (p : PodContainer) (path : String) : Prop :=
  ∃ m ∈ p.volumeMounts.getD [], m.name = sourceVolume ∧ m.mountPath = path

/-- Each container of the pod sees the source where the job's declaration of it wants it. -/
def SeesSource (u : ExecutionUnit) (j : Job) : Prop :=
  List.Forall₂ (fun p d => p.name = d.1 ∧ MountsSourceAt p d.2.sourcePath) u.containers j.containers

/-- Each container of the pod sees the source where a request says. -/
def SeesSourceOf (u : ExecutionUnit) (r : JobRequest) : Prop :=
  List.Forall₂ (fun p c => p.name = c.1 ∧ MountsSourceAt p c.2.sourcePath) u.containers r.containers

variable {options : BuildOptions} {job : Job} {event : Event} {project : Project} {now : Int}
  {u : ExecutionUnit} {unit path : String} {mode : LiteralMode}

/-! ### Requests -/

theorem sourcePath_withTasks (c : ContainerRequest) (shell : String) (tasks : List String) :
    (c.withTasks shell tasks).sourcePath = c.sourcePath := by
  cases tasks <;> rfl

/-- A request gives each container the path that the job declares for it. -/
theorem map_sourcePath_ofJob (job : Job) :
    (ofJob job).containers.map (fun c => (c.1, c.2.sourcePath)) =
      job.containers.map fun d => (d.1, d.2.sourcePath) := by
  have hfirst : (ofJob job).primary.sourcePath = job.container.sourcePath :=
    sourcePath_withTasks _ _ _
  rw [JobRequest.containers, Job.containers, List.map_cons, List.map_cons, hfirst, entries_sidecars,
    List.map_map]
  rfl

/-- So the pod agrees with the request exactly if it agrees with the job. -/
theorem seesSourceOf_ofJob_iff : u.SeesSourceOf (ofJob job) ↔ u.SeesSource job := by
  have hrequest : u.SeesSourceOf (ofJob job) ↔
      List.Forall₂ (fun p (c : String × String) => p.name = c.1 ∧ MountsSourceAt p c.2) u.containers
        ((ofJob job).containers.map fun c => (c.1, c.2.sourcePath)) := by
    rw [List.forall₂_map_right_iff]
    rfl
  have hjob : u.SeesSource job ↔
      List.Forall₂ (fun p (c : String × String) => p.name = c.1 ∧ MountsSourceAt p c.2) u.containers
        (job.containers.map fun d => (d.1, d.2.sourcePath)) := by
    rw [List.forall₂_map_right_iff]
    rfl
  rw [hrequest, hjob, map_sourcePath_ofJob]

/-! ### Pods -/

/-- The first container has the source where it wants it, whatever else is mounted there. -/
theorem mainContainer_mountsSource (hf : fetchesSource job project = true) :
    MountsSourceAt (mainContainer unit mode job project
      ((systemVolumes unit job event project).map Mounted.mount ++ job.volumeMounts))
      job.container.sourcePath := by
  have hsystem : (⟨{ name := sourceVolume, emptyDir := some {} }, sourcePath job, none⟩ : Mounted) ∈
      systemVolumes unit job event project :=
    mem_systemVolumes_iff.2 (Or.inr (Or.inl ⟨hf, rfl⟩))
  exact ⟨_, List.mem_append_left _ (List.mem_map_of_mem hsystem), rfl, rfl⟩

/-- A sidecar has the source where the first container wants it, and nowhere else. -/
theorem sidecarContainer_mountsSource_iff (hf : fetchesSource job project = true) (d : String × Container) :
    MountsSourceAt (sidecarContainer unit mode job project d.1 d.2) path ↔
      path = job.container.sourcePath := by
  have hmounts : (sidecarContainer unit mode job project d.1 d.2).volumeMounts =
      some [sourceMount job] := if_pos hf
  simp only [MountsSourceAt, hmounts, Option.getD_some, List.mem_singleton, exists_eq_left]
  exact ⟨fun h => h.2.symm, fun h => ⟨rfl, h.symm⟩⟩

/-- The pod of a job whose source is fetched: the first container has it where it wants it, and the
sidecars have it there too, wherever they want it. -/
theorem mountsSource_of_built {declared : List Volume}
    (hu : Built options job event project u declared) (hf : fetchesSource job project = true) :
    ∃ main sidecars, u.containers = main :: sidecars ∧ main.name = job.name ∧
      MountsSourceAt main job.container.sourcePath ∧
      List.Forall₂ (fun c d => c.name = d.1 ∧
        ∀ path, MountsSourceAt c path ↔ path = job.container.sourcePath)
        sidecars job.sidecars.entries := by
  refine ⟨_, _, containers_eq hu.pod, rfl, mainContainer_mountsSource hf, ?_⟩
  rw [List.forall₂_map_left_iff, List.forall₂_same]
  exact fun d _ => ⟨rfl, fun _ => sidecarContainer_mountsSource_iff hf d⟩

/-- All see the source where they want it if the sidecars want it where the first container does. -/
theorem seesSource_iff_of_built {declared : List Volume}
    (hu : Built options job event project u declared) (hf : fetchesSource job project = true) :
    u.SeesSource job ↔
      ∀ d ∈ job.sidecars.entries, d.2.sourcePath = job.container.sourcePath := by
  rw [SeesSource, containers_eq hu.pod, Job.containers, List.forall₂_cons, List.forall₂_map_left_iff,
    List.forall₂_same]
  constructor
  · exact fun h d hd => (sidecarContainer_mountsSource_iff hf d).1 (h.2 d hd).2
  · refine fun h => ⟨⟨rfl, mainContainer_mountsSource hf⟩, fun d hd => ⟨rfl, ?_⟩⟩
    exact (sidecarContainer_mountsSource_iff hf d).2 (h d hd)

/-- **Every container sees the source where its declaration wants it**, and where the request to the worker
API says, exactly if the sidecars want it where the first container does. Otherwise the first container
does all the same, and the sidecars see it there too and nowhere else; the request repeats what each of
them wants. -/
theorem seesSource_iff (h : build options job event project now = .ok u)
    (huse : job.useSource = true) (hurl : project.cloneUrl.isSome = true) :
    (u.SeesSource job ∧ u.SeesSourceOf (ofJob job) ↔
      ∀ d ∈ job.sidecars.entries, d.2.sourcePath = job.container.sourcePath) ∧
    (∃ main sidecars, u.containers = main :: sidecars ∧ main.name = job.name ∧
      MountsSourceAt main job.container.sourcePath ∧
      List.Forall₂ (fun c d => c.name = d.1 ∧
        ∀ path, MountsSourceAt c path ↔ path = job.container.sourcePath)
        sidecars job.sidecars.entries) ∧
    (ofJob job).containers.map (fun c => (c.1, c.2.sourcePath)) =
      job.containers.map fun d => (d.1, d.2.sourcePath) := by
  obtain ⟨declared, hu⟩ := built_of_build h
  have hf : fetchesSource job project = true := by
    rw [fetchesSource, huse, hurl]
    rfl
  refine ⟨?_, mountsSource_of_built hu hf, map_sourcePath_ofJob job⟩
  rw [seesSourceOf_ofJob_iff, and_self]
  exact seesSource_iff_of_built hu hf

/-! ### Jobs with sidecars that want the source -/

/-- A job with its source at a path of its own, and two sidecars that want it there. -/
def agreeing : Job where
  name := "build"
  container := { image := "alpine", sourceMountPath := some "/code" }
  sidecars := .ofList [("db", { image := "postgres", sourceMountPath := some "/code" }),
    ("web", { image := "nginx", sourceMountPath := some "/code" })]

/-- All three of them see it there. -/
theorem seesSource_agreeing :
    ∃ u, build {} agreeing (.new "run1" "github" "push") sourced 0 = .ok u ∧
      agreeing.useSource = true ∧ sourced.cloneUrl.isSome = true ∧
      u.SeesSource agreeing ∧ u.SeesSourceOf (ofJob agreeing) := by
  have hok : (build {} agreeing (.new "run1" "github" "push") sourced 0).isOk = true := by
    decide +kernel
  have hurl : sourced.cloneUrl.isSome = true := by decide +kernel
  cases h : build {} agreeing (.new "run1" "github" "push") sourced 0 with
  | error e =>
    rw [h] at hok
    cases hok
  | ok u =>
    obtain ⟨hiff, -⟩ := seesSource_iff h rfl hurl
    exact ⟨u, rfl, rfl, hurl, hiff.2 (by decide +kernel)⟩

/-- A job with its source at the usual path, and a sidecar that wants it elsewhere. -/
def astray : Job where
  name := "build"
  container := { image := "alpine" }
  sidecars := .ofList [("db", { image := "postgres", sourceMountPath := some "/code" })]

/-- The request gives the sidecar the path that it wants, and the pod does not. -/
theorem not_seesSource_astray :
    ∃ u, build {} astray (.new "run1" "github" "push") sourced 0 = .ok u ∧
      astray.useSource = true ∧ sourced.cloneUrl.isSome = true ∧
      (ofJob astray).containers.map (fun c => (c.1, c.2.sourcePath)) =
        [("build", "/src"), ("db", "/code")] ∧
      ¬ u.SeesSource astray ∧ ¬ u.SeesSourceOf (ofJob astray) := by
  have hok : (build {} astray (.new "run1" "github" "push") sourced 0).isOk = true := by
    decide +kernel
  have hf : fetchesSource astray sourced = true := by decide +kernel
  cases h : build {} astray (.new "run1" "github" "push") sourced 0 with
  | error e =>
    rw [h] at hok
    cases hok
  | ok u =>
    obtain ⟨declared, hu⟩ := built_of_build h
    have hno : ¬ u.SeesSource astray := by
      rw [seesSource_iff_of_built hu hf]
      decide +kernel
    refine ⟨u, rfl, rfl, by decide +kernel, by decide +kernel, hno, ?_⟩
    rwa [seesSourceOf_ofJob_iff]

end ExecutionUnit

end EventWorker
