import EventWorker.Bus
import EventWorker.Run.Handler

/-!
# Controlling a run

A run handles one event. The project is loaded and the volume of the run provisioned; if either fails
the run is over. Then the event is passed to its handler, and all tasks that were set off are waited
for. If there was a handler, an event that comes after it is passed to its own handler in the same
way. At last the volume is released.

Whenever a handler or a task fails that is reported, and the first time an error event is passed to
its handler too. That handler may fail, but no failure of its own makes another error event. Both
derived events name the first failure as their cause, if there has been one.
-/

namespace EventWorker

open Activity

/-- Where the volume of a run comes from. -/
structure Storage (σ : Type) where
  provision : Event → Project → Errand σ (Except ClusterError Unit)
  release : Event → Project → Errand σ (Except ClusterError Unit)

namespace Storage

variable {σ : Type}

/-- The volume is claimed from a cluster. -/
def claims (c : Cluster σ) (s : Cluster.BuildStorage) : Storage σ where
  provision event project := Errand.call c (c.provision s event project)
  release event project := Errand.call c (c.release event project)

/-- There is no volume. -/
def none : Storage σ where
  provision _ _ := return .ok ()
  release _ _ := return .ok ()

end Storage

/-- How a run has ended. -/
structure RunReport where
  exitCode : Nat
  afterFired : Bool
  errorFired : Bool
  errorReason : Option String
  stages : List Stage
  deriving DecidableEq

/-- A project that is known beforehand. -/
def loadKnown {σ : Type} (p : Project) (id : String) : Errand σ (Except ClusterError Project) :=
  return if id = p.id then .ok p else .error (.notFound "Project" id)

structure Controller (σ : Type) where
  bus : Bus Handler
  load : String → Errand σ (Except ClusterError Project)
  storage : Storage σ
  backend : Backend σ

namespace Controller

variable {σ : Type}

/-- Asks for the volume of a run. -/
def provision (c : Controller σ) (event : Event) (project : Project) :
    Work σ (Except ClusterError Unit) := do
  Work.record (.provision event project)
  Work.see (c.storage.provision event project)

/-- Gives the volume of a run back. Whether that succeeds makes no difference to the run. -/
def release (c : Controller σ) (event : Event) (project : Project) : Work σ Unit := do
  Work.record (.release event project)
  discard (Work.see (c.storage.release event project))

/-- Fires an event: passes it to its handler, if it has one, and gives the reason of its failure. -/
def dispatch (c : Controller σ) (scope : RunScope) (event : Event) : Work σ (Option String) := do
  Work.record (.fire event)
  match c.bus.handler? event.key with
  | none => return none
  | some handler =>
    Work.report (.fired event.source event.type)
    Work.record (.call event)
    let outcome ← await (Action.performAll ⟨c.backend, scope, event⟩ (handler scope event))
    let failure := Fault.reason? "handler" outcome
    Work.record (.hear event failure)
    return failure

/-- The event that tells of a failure. -/
def errorEvent (event : Event) (f : Failure) : Event :=
  event.derive errorType f.trigger (some f.reason)

/-- Reports a failure, and fires an error event if it is the first. -/
def raise (c : Controller σ) (scope : RunScope) (first : Option Failure) (failure : Failure) :
    Work σ (Option Failure) := do
  Work.record (.raise failure)
  Work.report (.log .error failure.reason none)
  match first with
  | some f => return some f
  | none =>
    discard (c.dispatch scope (errorEvent scope.event failure))
    return some failure

def raiseAll (c : Controller σ) (scope : RunScope) : (first : Option Failure) → List Failure →
    Work σ (Option Failure)
  | first, [] => return first
  | first, failure :: failures => do
    let first ← c.raise scope first failure
    c.raiseAll scope first failures

/-- Fires an event, raises the failure of its handler, and then those of the tasks. -/
def handle (c : Controller σ) (scope : RunScope) (first : Option Failure) (event : Event) :
    Work σ (Option Failure) := do
  let failure ← c.dispatch scope event
  let first ← c.raiseAll scope first (failure.map (⟨·, .handler⟩)).toList
  let tasks ← joinTasks
  Work.record (.join tasks)
  c.raiseAll scope first ((Task.failures tasks).map (⟨·, .background⟩))

/-- The event that comes after the handler of another. -/
def afterEvent (event : Event) : Option Failure → Event
  | some f => event.derive afterType f.trigger (some f.reason)
  | none => event.derive afterType .success none

/-- The stages of a run that is not broken off. -/
def stagesOf (handled : Bool) : List Stage :=
  [.idle, .projectLoaded, .storageProvisioned, .eventFired,
    if handled then .afterFired else .noHandlerBookkept, .storageTornDown, .exited]

/-- Runs everything between the provision of the volume and its release. No task is left from before:
those of other runs are none of this one's business. -/
def runHandlers (c : Controller σ) (scope : RunScope) : Work σ (Option Failure) := do
  act fun w => ((), { w with tasks := [] })
  Work.reach .eventFired
  let first ← c.handle scope none scope.event
  if c.bus.handles scope.event.key then
    let first ← c.handle scope first (afterEvent scope.event first)
    Work.reach .afterFired
    return first
  else
    Work.reach .noHandlerBookkept
    return first

/-- Runs an event for the project of the given identifier. -/
def run (c : Controller σ) (projectId : String) (event : Event) :
    Work σ (Except ControllerError RunReport) := do
  Work.reach .idle
  match ← Work.see (c.load projectId) with
  | .error e => return .error (.projectLoad projectId e)
  | .ok project =>
    Work.reach .projectLoaded
    match ← c.provision event project with
    | .error e => return .error (.storageProvision event.runId e)
    | .ok () =>
      Work.reach .storageProvisioned
      let first ← c.runHandlers { event, project }
      c.release event project
      Work.reach .storageTornDown
      Work.reach .exited
      let handled := c.bus.handles event.key
      return .ok {
        exitCode := if first.isSome then 1 else 0
        afterFired := handled
        errorFired := first.isSome
        errorReason := first.map (·.reason)
        stages := stagesOf handled }

end Controller

end EventWorker
