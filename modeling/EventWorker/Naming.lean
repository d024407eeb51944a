import EventWorker.Project
import EventWorker.Event
import EventWorker.Resource.Claim

/-!
# Names and labels of resources

What the resources of a run are called. An execution unit is named after its job and the run, a
cache volume after the project and the job, the build volume after the run alone; all three names
are in lower case. Every resource carries labels that say what it belongs to.

The volumes are claimed here too, since a claim is little more than a name, a size and the first
storage class that is given (`storageClass?`).
-/

namespace EventWorker

open Resource

/-- How the name of an execution unit is made unique. -/
inductive Naming where
  /-- By the run. -/
  | run
  /-- By the time, and the beginning of the commit where there is one. -/
  | time
  deriving DecidableEq, Inhabited

/-- The first eight characters of a commit. -/
def shortCommit (commit : String) : String :=
  String.ofList (commit.toList.take 8)

/-- The name of the unit of a job, at a time in milliseconds. -/
def unitName (naming : Naming) (job : String) (event : Event) (now : Int) : String :=
  Text.lower <|
    match naming with
    | .run => job ++ "-" ++ event.runId
    | .time =>
      match event.commit with
      | some commit => job ++ "-" ++ toString now ++ "-" ++ shortCommit commit
      | none => job ++ "-" ++ toString now

/-- The labels of whatever a run of a project creates. -/
def runLabels (component : String) (event : Event) (project : Project) : Table String :=
  .ofList [("heritage", "ferry"), ("component", component), ("project", project.id),
    ("worker", Text.lower event.runId)]

/-- The labels of the resources of one job. -/
def unitLabels (job : String) (event : Event) (project : Project) : Table String :=
  (runLabels "job" event project).insert "jobname" job

/-- A project's name as a part of a resource's name. -/
def projectPart (name : String) : String :=
  String.ofList (name.toList.map fun c => if c = '/' ∨ c = '.' then '-' else c)

/-- The name of the cache volume of a job. -/
def cacheVolumeName (project job : String) : String :=
  Text.lower (projectPart project ++ "-" ++ job)

/-- The name of the volume that the jobs of a run share. -/
def buildVolumeName (run : String) : String :=
  Text.lower ("build-" ++ run)

/-- The first storage class that is not blank. -/
def storageClass? (candidates : List (Option String)) : Option String :=
  candidates.findSome? fun c => c.filter fun s => !Text.isBlankText s

/-- A claim of a volume that many may write to at once. -/
def sharedClaim (name namespaceName size : String) (class? : Option String)
    (labels : Table String) : Claim where
  metadata := { name := some name, namespaceName := some namespaceName, labels := some labels }
  spec := some {
    accessModes := some ["ReadWriteMany"]
    resources := some { requests := some (.ofList [("storage", size)]) }
    storageClassName := class? }

/-- The claim of the build volume of a run. -/
def buildClaim (size : String) (defaultClass : Option String) (event : Event) (project : Project) :
    Claim :=
  sharedClaim (buildVolumeName event.runId) project.namespaceName size
    (storageClass? [project.buildStorageClass, defaultClass])
    (runLabels "build-storage" event project)

/-- The size of the build volume unless another is set. -/
def defaultBuildStorageSize : String := "50Mi"

end EventWorker
