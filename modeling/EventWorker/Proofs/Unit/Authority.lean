import EventWorker.Proofs.Unit.Built
import EventWorker.Proofs.Unit.Environment

/-!
# What a unit may do

A job can ask for three things that are not its own to give: files of the host, privileged containers,
and a service account. A project says whether its jobs may have the first two, and the worker which
accounts there are to choose from. Whatever a job asks for, its unit gets no more than that.

Main statement: `build_authorized`.
-/

namespace EventWorker.ExecutionUnit

open Resource

/-- The account that a unit's pod runs under. -/
def account (u : ExecutionUnit) : Option String :=
  u.pod.spec.bind (·.serviceAccountName)

/-- A container runs privileged. -/
def IsPrivileged (c : PodContainer) : Prop :=
  c.privileged = some true

/-- A unit has nothing but what project and worker authorize. -/
structure Authorized (u : ExecutionUnit) (options : BuildOptions) (job : Job) (project : Project) :
    Prop where
  /-- Files of the host are only there if the project allows that. -/
  hostPath : (∃ v ∈ u.volumes, v.hostPath.isSome = true) → project.allowHostMounts = true
  /-- The first container is privileged if job and project agree, any other if it asks for it too. -/
  containers : ∃ main sidecars, u.containers = main :: sidecars ∧ main.name = job.name ∧
    (IsPrivileged main ↔ job.privileged = true ∧ project.allowPrivilegedJobs = true) ∧
    List.Forall₂ (fun c d => c.name = d.1 ∧
        (IsPrivileged c ↔
          (job.privileged = true ∧ project.allowPrivilegedJobs = true) ∧ d.2.privileged = true))
      sidecars job.sidecars.entries
  initContainers : ∀ c ∈ u.initContainers, ¬ IsPrivileged c
  /-- The job's own account comes first, then the one that is configured. -/
  account : u.account = some (match job.serviceAccount, options.serviceAccount with
    | some own, _ => own
    | none, some configured => configured
    | none, none => "ferry-worker")
  /-- The account is one that the configured pattern matches. -/
  pattern : ∀ pattern, options.accountPattern = some pattern →
    ∃ name, u.account = some name ∧ pattern.isIn name = true

variable {options : BuildOptions} {job : Job} {event : Event} {project : Project} {now : Int}
  {u : ExecutionUnit}

/-! ### Files of the host -/

/-- Of the system volumes only the socket is on the host. -/
theorem hostPath_systemVolumes {unit : String} {m : Mounted}
    (hm : m ∈ systemVolumes unit job event project) (hhost : m.volume.hostPath.isSome = true) :
    job.docker = true := by
  rcases mem_systemVolumes_iff.1 hm with rfl | ⟨-, rfl⟩ | ⟨-, rfl⟩ | ⟨-, rfl⟩ | ⟨hd, -⟩
  · cases hhost
  · cases hhost
  · cases hhost
  · cases hhost
  · exact hd

/-! ### Privilege -/

/-- Privilege is granted to a container that asks for it, if job and project agree. -/
theorem privilege_eq_some_true_iff {asked : Bool} : privilege asked job project = some true ↔
    (job.privileged = true ∧ project.allowPrivilegedJobs = true) ∧ asked = true := by
  cases asked <;> simp [privilege]

/-- A privileged job asks for privilege of its first container. -/
theorem isPrivileged_mainContainer {unit : String} {mounts : List VolumeMount} :
    IsPrivileged (mainContainer unit options.literals job project mounts) ↔
      job.privileged = true ∧ project.allowPrivilegedJobs = true := by
  refine privilege_eq_some_true_iff.trans ⟨fun h => h.1, fun h => ⟨h, ?_⟩⟩
  rw [h.1, Bool.true_or]

/-! ### Units -/

/-- **A unit stays within its authority**: host paths, privileged containers and the service account
are what the project and the worker allow. -/
theorem build_authorized (h : build options job event project now = .ok u) :
    u.Authorized options job project := by
  obtain ⟨declared, hu⟩ := built_of_build h
  have haccount : u.account = some (serviceAccount options job) := by
    rw [account, hu.pod]
    rfl
  refine ⟨?_, ⟨_, _, containers_eq hu.pod, rfl, isPrivileged_mainContainer, ?_⟩, ?_, ?_, ?_⟩
  · rintro ⟨v, hv, hhost⟩
    rw [volumes_eq hu.pod, List.mem_append, List.mem_map] at hv
    rcases hv with ⟨m, hm, rfl⟩ | hv
    · exact checkDocker_eq_ok_iff.1 hu.docker (hostPath_systemVolumes hm hhost)
    · exact (attached_eq_ok hu.attached).hostPath v hv hhost
  · rw [List.forall₂_map_left_iff, List.forall₂_same]
    exact fun d _ => ⟨rfl, privilege_eq_some_true_iff⟩
  · intro c hc
    -- the container that fetches the source is not asked whether it wants any privilege
    rw [initContainers_eq hu.pod, List.mem_ite_nil_right, List.mem_singleton] at hc
    obtain ⟨-, rfl⟩ := hc
    exact fun hp => Option.some_ne_none true hp.symm
  · rw [haccount, serviceAccount]
    cases job.serviceAccount with
    | some own => rfl
    | none => cases options.serviceAccount <;> rfl
  · intro pattern hpattern
    exact ⟨_, haccount, checkServiceAccount_eq_ok_iff.1 hu.account pattern hpattern⟩

/-! ### A unit of a job that asks for everything -/

/-- A job that asks for all that it can: the socket, a path of the host under a name that is declared
twice, another one in the place of the hook, and privilege for itself and one of its sidecars. -/
def demanding : Job where
  name := "build"
  container := { image := "alpine" }
  docker := true
  privileged := true
  sidecars := .ofList
    [("db", { image := "postgres", privileged := true }), ("web", { image := "nginx" })]
  volumes := [{ name := "data", hostPath := some { path := "/data" } }, { name := "data" },
    { name := "hook", hostPath := some { path := "/etc" } }]
  volumeMounts := [{ name := "data", mountPath := "/a" }, { name := "hook", mountPath := "/b" },
    { name := "data", mountPath := "/c" }]

/-- A worker that takes some accounts only. -/
def choosy : BuildOptions where
  serviceAccount := some "builder"
  accountPattern := Text.Pattern.ofText? "^b[a-z]+$"

/-- A project that allows everything. -/
def generous : Project where
  id := "p1"
  name := "org/repo"
  allowHostMounts := true
  allowPrivilegedJobs := true

/-- Everything is granted, and nothing besides. -/
theorem authorized_demanding :
    ∃ u, build choosy demanding (.new "run1" "github" "push") generous 0 = .ok u ∧
      u.Authorized choosy demanding generous := by
  have hok : (build choosy demanding (.new "run1" "github" "push") generous 0).isOk = true := by
    decide +kernel
  cases h : build choosy demanding (.new "run1" "github" "push") generous 0 with
  | error e =>
    rw [h] at hok
    cases hok
  | ok u => exact ⟨u, rfl, build_authorized h⟩

end EventWorker.ExecutionUnit
