import EventWorker.Proofs.Unit.Environment

/-!
# Units without source

A project says where the source comes from and how it is fetched, and an event which revision of it is
meant. A unit whose source is not fetched knows nothing of this: it is the unit that there would be if
the project had no repository (`build_withoutSource`) and the event no revision
(`build_withoutRevision`). Only the name of a unit may tell the commit, where units are named after the
time.

Main statement: `build_sourceless`.
-/

namespace EventWorker

/-- Nothing is left of where the source comes from, nor of the container that fetches it. -/
def Project.withoutSource (p : Project) : Project :=
  { p with repo := {}, sidecar := {} }

def Event.withoutRevision (e : Event) : Event :=
  e.mapData fun d => { d with revision := none }

theorem Event.runId_withoutRevision (e : Event) : e.withoutRevision.runId = e.runId := by
  cases e <;> rfl

namespace ExecutionUnit

open Resource

variable {options : BuildOptions} {job : Job} {event : Event} {project : Project} {now : Int}
  {u : ExecutionUnit}

theorem fetchesSource_of_not_useSource (h : job.useSource = false) :
    fetchesSource job project = false := by
  rw [fetchesSource, h, Bool.false_and]

/-- Without a repository there is nothing to fetch. -/
theorem fetchesSource_withoutSource : fetchesSource job project.withoutSource = false :=
  Bool.and_false _

/-! ### The project -/

theorem systemVolumes_withoutSource (hf : fetchesSource job project = false) (unit : String) :
    systemVolumes unit job event project.withoutSource = systemVolumes unit job event project := by
  rw [systemVolumes, systemVolumes, hf, fetchesSource_withoutSource]
  rfl

theorem attached_withoutSource (system : List String) :
    attached system job project.withoutSource = attached system job project :=
  attached_congr rfl rfl rfl rfl

theorem unitSecret_withoutSource (hf : fetchesSource job project = false) (unit : String)
    (mode : LiteralMode) :
    unitSecret unit mode job event project.withoutSource = unitSecret unit mode job event project := by
  rw [unitSecret, unitSecret, carrierEntries, carrierEntries, hf, fetchesSource_withoutSource]
  rfl

theorem unitPod_withoutSource (hf : fetchesSource job project = false) (unit : String)
    (volumes : List Volume) :
    unitPod options unit job event project.withoutSource volumes =
      unitPod options unit job event project volumes := by
  have hsidecar : ∀ mode name c,
      sidecarContainer unit mode job project.withoutSource name c =
        sidecarContainer unit mode job project name c := fun mode name c => by
    rw [sidecarContainer, sidecarContainer, hf, fetchesSource_withoutSource]
    rfl
  simp only [unitPod, systemVolumes_withoutSource hf, hsidecar, hf, fetchesSource_withoutSource]
  rfl

/-- **A unit whose source is not fetched** does not depend on the repository. -/
theorem build_withoutSource (hf : fetchesSource job project = false) :
    build options job event project.withoutSource now = build options job event project now := by
  simp only [build, systemVolumes_withoutSource hf, attached_withoutSource,
    unitSecret_withoutSource hf, unitPod_withoutSource hf]
  rfl

/-! ### The event -/

theorem systemVolumes_withoutRevision (unit : String) :
    systemVolumes unit job event.withoutRevision project = systemVolumes unit job event project := by
  rw [systemVolumes, systemVolumes, Event.runId_withoutRevision]

theorem unitMetadata_withoutRevision (unit : String) :
    unitMetadata unit job event.withoutRevision project = unitMetadata unit job event project := by
  rw [unitMetadata, unitMetadata, unitLabels, unitLabels, runLabels, runLabels,
    Event.runId_withoutRevision]

theorem cacheClaim?_withoutRevision :
    cacheClaim? options job event.withoutRevision project = cacheClaim? options job event project := by
  rw [cacheClaim?, cacheClaim?, unitLabels, unitLabels, runLabels, runLabels,
    Event.runId_withoutRevision]

theorem unitSecret_withoutRevision (hf : fetchesSource job project = false) (unit : String)
    (mode : LiteralMode) :
    unitSecret unit mode job event.withoutRevision project = unitSecret unit mode job event project := by
  rw [unitSecret, unitSecret, carrierEntries, carrierEntries, hf, unitMetadata_withoutRevision]
  rfl

theorem unitPod_withoutRevision (hf : fetchesSource job project = false) (unit : String)
    (volumes : List Volume) :
    unitPod options unit job event.withoutRevision project volumes =
      unitPod options unit job event project volumes := by
  rw [unitPod, unitPod, unitMetadata_withoutRevision, systemVolumes_withoutRevision, hf]
  rfl

/-- **A unit whose source is not fetched** does not depend on the revision either, if its name does
not. -/
theorem build_withoutRevision {now' : Int} (hf : fetchesSource job project = false)
    (hname : unitName options.naming job.name event.withoutRevision now' =
      unitName options.naming job.name event now) :
    build options job event.withoutRevision project now' = build options job event project now := by
  have hid : event.withoutRevision.id = event.id := Event.runId_withoutRevision event
  simp only [build, hname, hid, systemVolumes_withoutRevision, unitSecret_withoutRevision hf,
    unitPod_withoutRevision hf, cacheClaim?_withoutRevision]

/-! ### Jobs that opt out of the source -/

/-- The name of a unit that is called after its run tells nothing of the revision or of the time. -/
theorem unitName_withoutRevision (job : String) (event : Event) (now now' : Int) :
    unitName .run job event.withoutRevision now' = unitName .run job event now := by
  rw [unitName, unitName, Event.runId_withoutRevision]

variable {event' : Event} {project' : Project}

/-- **A job that opts out of the source** has the same unit, or is refused for the same reason, whatever
repository the project names and whatever revision the event, if units are named after their run. The
pod of the unit has no container to fetch the source. -/
theorem build_sourceless (huse : job.useSource = false) (hnaming : options.naming = .run)
    (hproject : project.withoutSource = project'.withoutSource)
    (hevent : event.withoutRevision = event'.withoutRevision) (now now' : Int) :
    build options job event project now = build options job event' project' now' ∧
      ∀ u, build options job event project now = .ok u →
        ∃ spec, u.pod.spec = some spec ∧ spec.initContainers = none := by
  have hf : ∀ p, fetchesSource job p = false := fun p => fetchesSource_of_not_useSource huse
  have hbare : ∀ (e : Event) (p : Project) (t : Int),
      build options job e p t = build options job e.withoutRevision p.withoutSource now := by
    intro e p t
    have hname : unitName options.naming job.name e.withoutRevision now =
        unitName options.naming job.name e t := by
      rw [hnaming]
      exact unitName_withoutRevision job.name e t now
    rw [build_withoutSource (hf p), build_withoutRevision (hf p) hname]
  refine ⟨?_, fun u hu => ?_⟩
  · rw [hbare event project now, hbare event' project' now', hproject, hevent]
  · obtain ⟨volumes, hbuilt⟩ := built_of_build hu
    rw [hbuilt.pod]
    refine ⟨_, rfl, ?_⟩
    show (if fetchesSource job project then some _ else none) = none
    rw [hf project]
    rfl

/-- A job that wants no source, and has a volume of its own where others have it. -/
def sourceless : Job where
  name := "build"
  container := { image := "alpine", env := .ofList [("MODE", .literal "fast")] }
  tasks := ["make"]
  useSource := false
  sidecars := .ofList [("db", { image := "postgres" })]
  volumes := [{ name := "vcs-sidecar", emptyDir := some {} }]
  volumeMounts := [{ name := "vcs-sidecar", mountPath := "/src" }]

/-- A project with a repository that only its members can read. -/
def guardedSource : Project where
  id := "p1"
  name := "org/repo"
  sidecar := { image := "git" }
  repo := { cloneUrl := some "https://git.example/r.git", token := some "t" }

/-- The job has one unit for a project with a repository and for one that has none. -/
theorem build_sourceless_between :
    ∃ u, build {} sourceless ((Event.new "run1" "github" "push").withRevision (some "abc") (some "main"))
        guardedSource 0 = .ok u ∧
      build {} sourceless (Event.new "run1" "github" "push") { id := "p1", name := "org/repo" } 7 = .ok u ∧
      ∃ spec, u.pod.spec = some spec ∧ spec.initContainers = none := by
  obtain ⟨u, hu⟩ : ∃ u, build {} sourceless
      ((Event.new "run1" "github" "push").withRevision (some "abc") (some "main")) guardedSource 0 =
        .ok u := Except.exists_ok_of_isOk (by decide +kernel)
  have hnaming : ({} : BuildOptions).naming = .run := rfl
  have hproject : guardedSource.withoutSource =
      Project.withoutSource { id := "p1", name := "org/repo" } := rfl
  have hevent : ((Event.new "run1" "github" "push").withRevision (some "abc")
      (some "main")).withoutRevision = (Event.new "run1" "github" "push").withoutRevision := rfl
  obtain ⟨hsame, hinit⟩ := build_sourceless (rfl : sourceless.useSource = false) hnaming hproject
    hevent 0 7
  exact ⟨u, hu, hsame.symm.trans hu, hinit u hu⟩

end ExecutionUnit

end EventWorker
