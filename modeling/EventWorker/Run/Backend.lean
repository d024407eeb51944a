import EventWorker.Cluster
import EventWorker.Run.Journal
import EventWorker.WorkerApi

/-!
# Backends

Where jobs are run. A backend submits a job, observes the unit that comes of it, and fetches its log.
Pods are created on a cluster and watched there; the worker API is asked to see to everything itself;
and the idle backend runs nothing and reports that every properly named job has succeeded.
-/

namespace EventWorker

/-- The event and the project that the jobs of a run belong to. -/
structure RunScope where
  event : Event
  project : Project
  deriving Inhabited

/-- What a run works on: a cluster with what a watcher has seen of it, and the tasks that nobody has
waited for yet, in the order in which they were set off. -/
structure World (σ : Type) where
  seen : Seen σ
  tasks : List Task := []

def World.ofCluster {σ : Type} (s : σ) : World σ :=
  { seen := { source := s } }

/-- What is asked of the surroundings of a run. It may take time and act on what is watched, and it
notes what it has done to the cluster; of the tasks and of the rest of the journal it knows nothing. -/
abbrev Errand (σ α : Type) :=
  Activity (Seen σ) String α

namespace Errand

variable {σ ε α : Type}

/-- Acts on what is watched. -/
def watch (f : StateM (Seen σ) α) : Errand σ α :=
  Activity.act f

/-- Calls the cluster, and notes what the call has done to it. -/
def call (c : Cluster σ) (f : Call σ ε α) : Errand σ (Except ε α) := do
  let before := (c.operations (← Activity.world).source).length
  let result ← watch (Seen.look f.run)
  let after := c.operations (← Activity.world).source
  Activity.emitAll (after.drop before)
  return result

end Errand

/-- What a run does. -/
abbrev Work (σ α : Type) :=
  Activity (World σ) Entry α

namespace Work

variable {σ α : Type}

def report (p : Progress) : Work σ Unit :=
  Activity.emit (.progress p)

def remark (r : Remark) : Work σ Unit :=
  Activity.emit (.remark r)

def reach (s : Stage) : Work σ Unit :=
  Activity.emit (.reached s)

def record (d : Deed) : Work σ Unit :=
  Activity.emit (.deed d)

/-- Sees to an errand. Time does not go back over it. -/
def see (e : Errand σ α) : Work σ α := fun s =>
  let (a, t) := e { now := s.now, world := s.world.seen }
  (a, { s with
    now := s.now.latest t.now
    world := { s.world with seen := t.world }
    log := s.log ++ t.log.map fun (m, text) => (m, Entry.operation text) })

end Work

structure Backend (σ : Type) where
  submit : Job → RunScope → Errand σ (Except JobError UnitRef)
  observe : Job → UnitRef → Errand σ (Except JobError Phase)
  logs : UnitRef → Errand σ (Except JobError String)

namespace Backend

variable {σ : Type}

/-- Observes a unit, and goes on when that is over. -/
def watchUnit (source : Source σ) (watcher : Watcher) (job : Job) (u : UnitRef) :
    Errand σ (Except JobError Phase) := do
  let start ← Activity.now
  let v ← Errand.watch (watcher.observe source u job.fallible job.timeout)
  Activity.goTo (v.finish start)
  return v.outcome.mapError (.watch job.name)

def watchLogs (source : Source σ) (u : UnitRef) : Errand σ (Except JobError String) := do
  return (← Errand.watch (Watch.logs source u)).mapError (.watch u.job)

/-- Jobs run as pods. -/
def pods (c : Cluster σ) (options : BuildOptions) (watcher : Watcher) : Backend σ where
  submit job scope := do
    let now ← Activity.now
    Errand.call c (c.submit options job scope.event scope.project now.millis)
  observe := watchUnit c.source watcher
  logs := watchLogs c.source

/-- The reference to a unit that is called by the name of its job. -/
def namedUnit (job : Job) (scope : RunScope) : UnitRef :=
  ⟨scope.project.namespaceName, job.name, job.name, scope.event.id⟩

/-- Jobs are handed to the worker API. A unit is called by the name of its job there. -/
def workerApi (api : WorkerApi σ) (watcher : Watcher) : Backend σ where
  submit job scope := do
    match job.validate with
    | .error e => return .error (.build e)
    | .ok () =>
      let result ← Errand.watch (Seen.look (api.createJob scope.event.id job).run)
      return (result.mapError (.scheduling job.name)).map fun _ => namedUnit job scope
  observe := watchUnit api.source watcher
  logs := watchLogs api.source

/-- Jobs are not run at all. -/
def idle : Backend σ where
  submit job scope := return (job.validate.mapError JobError.build).map fun _ => namedUnit job scope
  observe _ _ := return .ok .succeeded
  logs _ := return .ok ""

end Backend

end EventWorker
