import EventWorker.Proofs.Related
import EventWorker.Proofs.Unit.Authority
import EventWorker.WorkerApi.JobRequest

/-!
# Privilege asked of the worker API

A job can be run as a pod or be handed to the worker API. In a pod the flag of a container is a request,
which is granted if the job is privileged and the project allows it. The request to the API repeats the
flags as they stand, and adds the job's own to that of the first container. So the request asks for no
more than the pod would be given exactly if the pod is given all that it asks for, or nothing is asked
for at all.

Main statement: `ofJob_within_iff`.
-/

namespace EventWorker

namespace Job

/-- No container of the job has a flag of its own. -/
def NoContainerAsks (j : Job) : Prop :=
  j.container.privileged = false ∧ ∀ d ∈ j.sidecars.entries, d.2.privileged = false

end Job

namespace JobRequest

open ExecutionUnit

/-- The containers of a request by their names. The first is called after the job. -/
def containers (r : JobRequest) : List (String × ContainerRequest) :=
  (r.name, r.primary) :: r.sidecars.entries

/-- A container is to run privileged only if the container of its name in the pod does. -/
def Within (r : JobRequest) (u : ExecutionUnit) : Prop :=
  ∀ c ∈ r.containers, c.2.privileged = true → ∃ p ∈ u.containers, p.name = c.1 ∧ IsPrivileged p

variable {job : Job} {project : Project} {u : ExecutionUnit}

/-! ### What is asked -/

theorem privileged_withTasks (c : ContainerRequest) (shell : String) (tasks : List String) :
    (c.withTasks shell tasks).privileged = c.privileged := by
  cases tasks <;> rfl

/-- The job's own flag is added to that of its first container. -/
theorem privileged_primary (job : Job) :
    (ofJob job).primary.privileged = (job.container.privileged || job.privileged) :=
  privileged_withTasks _ _ _

theorem entries_sidecars (job : Job) : (ofJob job).sidecars.entries =
    job.sidecars.entries.map fun d => (d.1, ContainerRequest.ofContainer d.2 job.useSource) :=
  rfl

/-- Nothing is asked for if neither the job nor a container of it has the flag. -/
theorem forall_unprivileged_iff : (∀ c ∈ (ofJob job).containers, c.2.privileged = false) ↔
    job.privileged = false ∧ job.NoContainerAsks := by
  have hfirst : (ofJob job).primary.privileged = false ↔
      job.container.privileged = false ∧ job.privileged = false := by
    rw [privileged_primary, Bool.or_eq_false_iff]
  have hsidecars : (∀ c ∈ (ofJob job).sidecars.entries, c.2.privileged = false) ↔
      ∀ d ∈ job.sidecars.entries, d.2.privileged = false := by
    rw [entries_sidecars, List.forall_mem_map]
    exact Iff.rfl
  rw [containers, List.forall_mem_cons, hfirst, hsidecars, Job.NoContainerAsks, and_assoc]
  exact and_left_comm

/-! ### What is granted -/

/-- In the pod of a job that is not privileged, or not allowed to be, no container is. -/
theorem not_isPrivileged {options : BuildOptions} (h : u.Authorized options job project)
    (hno : ¬ (job.privileged = true ∧ project.allowPrivilegedJobs = true)) :
    ∀ p ∈ u.containers, ¬ IsPrivileged p := by
  obtain ⟨main, sidecars, hcontainers, -, hmain, hsidecars⟩ := h.containers
  rw [hcontainers, List.forall_mem_cons]
  refine ⟨fun hp => hno (hmain.1 hp), fun p hp hpriv => ?_⟩
  obtain ⟨d, -, -, hiff⟩ := exists_of_mem_left hsidecars hp
  exact hno (hiff.1 hpriv).1

/-- In the pod of a privileged job, every container is that asks for it. -/
theorem within_of_authorized {options : BuildOptions} (h : u.Authorized options job project)
    (hjob : job.privileged = true ∧ project.allowPrivilegedJobs = true) :
    (ofJob job).Within u := by
  obtain ⟨main, sidecars, hcontainers, hname, hmain, hsidecars⟩ := h.containers
  intro c hc hasked
  rw [hcontainers]
  rcases List.mem_cons.1 hc with rfl | hc
  · exact ⟨main, List.mem_cons_self, hname, hmain.2 hjob⟩
  · rw [entries_sidecars] at hc
    obtain ⟨d, hd, rfl⟩ := List.mem_map.1 hc
    obtain ⟨p, hp, hpname, hiff⟩ := exists_of_mem_right hsidecars hd
    exact ⟨p, List.mem_cons_of_mem main hp, hpname, hiff.2 ⟨hjob, hasked⟩⟩

/-- **The worker API is asked for no more than the pod is given** exactly if the job is privileged and
its project allows it, or nothing is asked for. A job that is not privileged asks for nothing exactly if
its containers have no flags of their own. -/
theorem ofJob_within_iff (options : BuildOptions) (job : Job) (event : Event) (project : Project)
    (now : Int) :
    (match build options job event project now with
      | .ok u => (ofJob job).Within u ↔
          (job.privileged = true ∧ project.allowPrivilegedJobs = true) ∨
            (job.privileged = false ∧ job.NoContainerAsks)
      | .error _ => True) ∧
    ((∀ c ∈ (ofJob job).containers, c.2.privileged = false) ↔
      job.privileged = false ∧ job.NoContainerAsks) := by
  refine ⟨?_, forall_unprivileged_iff⟩
  cases hbuild : build options job event project now with
  | error e => trivial
  | ok u =>
    have hu := build_authorized hbuild
    show (ofJob job).Within u ↔ _
    rw [← forall_unprivileged_iff]
    constructor
    · intro hwithin
      refine or_iff_not_imp_left.2 fun hno c hc => ?_
      rw [← Bool.not_eq_true]
      intro hasked
      obtain ⟨p, hp, -, hpriv⟩ := hwithin c hc hasked
      exact not_isPrivileged hu hno p hp hpriv
    · rintro (hjob | hnone)
      · exact within_of_authorized hu hjob
      · intro c hc hasked
        rw [hnone c hc] at hasked
        cases hasked

/-! ### A request that asks for too much -/

/-- A job that is not privileged, with two containers that would like to be. -/
def presumptuous : Job where
  name := "build"
  container := { image := "alpine", privileged := true }
  sidecars := .ofList [("db", { image := "postgres", privileged := true })]

/-- Although the project allows privileged jobs, no container of the pod is privileged, and both are to be
according to the request. -/
theorem not_within_presumptuous :
    ∃ u, build {} presumptuous (.new "run1" "github" "push") generous 0 = .ok u ∧
      (ofJob presumptuous).containers.map (fun c => (c.1, c.2.privileged)) =
        [("build", true), ("db", true)] ∧
      ¬ (ofJob presumptuous).Within u := by
  have hok : (build {} presumptuous (.new "run1" "github" "push") generous 0).isOk = true := by
    decide +kernel
  cases hbuild : build {} presumptuous (.new "run1" "github" "push") generous 0 with
  | error e =>
    rw [hbuild] at hok
    cases hok
  | ok u =>
    refine ⟨u, rfl, by decide +kernel, fun hwithin => ?_⟩
    have hno : ¬ (presumptuous.privileged = true ∧ generous.allowPrivilegedJobs = true) := by decide
    obtain ⟨p, hp, -, hpriv⟩ := hwithin _ List.mem_cons_self (by decide +kernel)
    exact not_isPrivileged (build_authorized hbuild) hno p hp hpriv

end JobRequest

end EventWorker
