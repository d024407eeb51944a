import EventWorker.Unit
import EventWorker.Watch

/-!
# Clusters

What the worker asks of a cluster: to create and delete resources, and to tell the phases and logs of
units. A call acts on the cluster's state and may fail. Three things are built from such calls: a cache
volume is claimed unless it is there already (`ensure`), the volume of a run is claimed and released
(`provision`, `release`), and a job is submitted as an execution unit (`submit`).
-/

namespace EventWorker

open Resource

/-- A call on a state, with its failures. -/
abbrev Call (σ ε α : Type) :=
  ExceptT ε (StateM σ) α

namespace Call

variable {σ ε φ α : Type}

/-- Wraps the failures of a call. -/
def mapFault (f : ε → φ) (call : Call σ ε α) : Call σ φ α :=
  ExceptT.mk ((·.mapError f) <$> call.run)

end Call

structure Cluster (σ : Type) where
  createSecret : Secret → Call σ ClusterError Unit
  createPod : Pod → Call σ ClusterError Unit
  /-- A claim by namespace and name; a claim that is not there is a failure of its own kind. -/
  getClaim : String → String → Call σ ClusterError Claim
  createClaim : Claim → Call σ ClusterError Unit
  deleteClaim : String → String → Call σ ClusterError Unit
  readPhase : UnitRef → Call σ ClusterError (Option Phase)
  subscribe : UnitRef → Call σ ClusterError Feed
  readLogs : UnitRef → Call σ ClusterError String
  /-- What has been done to the cluster so far, as far as it keeps count. -/
  operations : σ → List String := fun _ => []

namespace Cluster

variable {σ : Type}

/-- A cluster answers a watcher at once. -/
def source (c : Cluster σ) : Source σ where
  read u := do return { result := ← (c.readPhase u).run }
  subscribe u := (c.subscribe u).run
  logs u := (c.readLogs u).run

/-! ## Caches -/

inductive CacheStatus where
  | reused
  | created
  deriving DecidableEq

/-- Whether the claim is there. -/
def checkCache (c : Cluster σ) (claim : Claim) : Call σ CacheError Bool := do
  match ← (c.getClaim claim.metadata.namespaceText claim.name).run with
  | .ok _ => return true
  | .error e => if e.isNotFound then return false else throw (.check claim.name e)

def createCache (c : Cluster σ) (claim : Claim) : Call σ CacheError Unit :=
  (c.createClaim claim).mapFault (.create claim.name)

/-- Sees to it that the claim is there. -/
def ensure (c : Cluster σ) (claim : Claim) : Call σ CacheError CacheStatus := do
  if ← c.checkCache claim then return .reused
  else
    c.createCache claim
    return .created

/-! ## The volume of a run -/

/-- Where the volumes of runs come from. -/
structure BuildStorage where
  size : String := defaultBuildStorageSize
  storageClass : Option String := none
  deriving Inhabited

def provision (c : Cluster σ) (s : BuildStorage) (event : Event) (project : Project) :
    Call σ ClusterError Unit :=
  c.createClaim (buildClaim s.size s.storageClass event project)

def release (c : Cluster σ) (event : Event) (project : Project) : Call σ ClusterError Unit :=
  c.deleteClaim project.namespaceName (buildVolumeName event.runId)

/-! ## Units -/

/-- Submits a job: first its cache is seen to, then the secret is created, and then the pod. -/
def submit (c : Cluster σ) (options : BuildOptions) (job : Job) (event : Event) (project : Project)
    (now : Int) : Call σ JobError UnitRef := do
  match ExecutionUnit.build options job event project now with
  | .error e => throw (.build e)
  | .ok unit =>
    if let some claim := unit.cacheClaim then
      discard ((c.ensure claim).mapFault (JobError.cache job.name))
    (c.createSecret unit.secret).mapFault (JobError.scheduling job.name)
    (c.createPod unit.pod).mapFault (JobError.scheduling job.name)
    return unit.ref

end Cluster

end EventWorker
