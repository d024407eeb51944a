import EventWorker.Run.Job

/-!
# Handlers

A handler takes actions one after another, up to the first that fails; which ones may depend on the
run and on the event that it is called for. It may run jobs and steps, wait, note things down, and set
off further actions in the background. Such a task goes its own way and may set off others; the run
waits for it later (`joinTasks`), and learns then whether it has failed.

It is the controller alone that waits for tasks. No action does, so nothing is said here of a handler that
waits for its own tasks and takes their failures upon itself.
-/

namespace EventWorker

open Activity

inductive Action where
  | sleep (millis : Nat)
  | note (text : String)
  /-- Notes the event that the handler was called for. -/
  | noteEvent
  /-- Notes the run and the project. -/
  | noteScope
  /-- Fails for a reason with its causes, outermost first. -/
  | fail (reasons : List String)
  /-- Breaks down, perhaps with a last word. -/
  | panic (text : Option String)
  | spawn (work : List Action)
  /-- Runs a job. A lenient handler goes on when the job fails. -/
  | job (j : Job) (lenient : Bool)
  | step (s : Step Job)

/-- What is done about an event in a run. -/
abbrev Handler := RunScope → Event → List Action

namespace Handler

/-- The handler that runs a step. -/
def ofStep (s : Step Job) : Handler :=
  fun _ _ => [.step s]

end Handler

/-- Why actions have ended before their end. -/
inductive Fault where
  | failed (reason : String)
  | panicked (text : Option String)
  deriving DecidableEq

namespace Fault

def joinCauses (reasons : List String) : String :=
  ": ".intercalate reasons

def ofJob (e : JobError) : Fault :=
  .failed (joinCauses e.chain)

/-- The reason as it is reported, where `who` is what broke down. -/
def reason (who : String) : Fault → String
  | failed r => r
  | panicked text => who ++ " panicked: " ++ text.getD "unknown panic"

/-- The reason why something failed, if it did. -/
def reason? (who : String) : Except Fault Unit → Option String
  | .ok () => none
  | .error f => some (f.reason who)

end Fault

/-- What actions are taken with. -/
structure Surroundings (σ : Type) where
  backend : Backend σ
  scope : RunScope
  /-- The event that the handler was called for. -/
  event : Event

/-- Puts a task behind those that were set off before it. -/
def addTask (t : Task) : List Task → List Task
  | [] => [t]
  | u :: us => if u.begun.le t.begun then u :: addTask t us else t :: u :: us

namespace Action

variable {σ : Type}

/-- Runs a job and notes down what its log says. -/
def performJob (c : Surroundings σ) (j : Job) (lenient : Bool) : Work σ (Except Fault Unit) := do
  let (unit, result) ← j.schedule c.backend c.scope
  let logs ← j.logs c.backend unit
  Work.remark (.ran j.name logs unit)
  return if lenient then .ok () else result.mapError Fault.ofJob

/-- Sets off work as a task. -/
def performSpawn (work : Work σ (Except Fault Unit)) : Work σ (Except Fault Unit) := do
  let begun ← now
  let (result, finished) ← fork work
  let task : Task := { begun, finished, failure := Fault.reason? "background task" result }
  emit (.setOff task)
  act fun w => ((), { w with tasks := addTask task w.tasks })
  return .ok ()

mutual

def perform (c : Surroundings σ) : Action → Work σ (Except Fault Unit)
  | sleep millis => do
    Activity.sleep millis
    return .ok ()
  | note text => do
    Work.remark (.note text)
    return .ok ()
  | noteEvent => do
    Work.remark (.called c.event)
    return .ok ()
  | noteScope => do
    Work.remark (.scope c.scope.event.id c.scope.project.id)
    return .ok ()
  | fail reasons => return .error (.failed (Fault.joinCauses reasons))
  | panic text => return .error (.panicked text)
  | spawn work => performSpawn (performAll c work)
  | job j lenient => performJob c j lenient
  | step s => do
    return (← s.run (Job.run c.backend c.scope)).mapError Fault.ofJob

/-- Takes actions up to the first that fails. -/
def performAll (c : Surroundings σ) : List Action → Work σ (Except Fault Unit)
  | [] => return .ok ()
  | a :: rest => do
    match ← perform c a with
    | .ok () => performAll c rest
    | .error f => return .error f

end

end Action

/-- The task that was set off first of those that have been set off by now, taken from the list. -/
def takeTask {σ : Type} : Work σ (Option Task) := do
  let now ← now
  act fun w =>
    match w.tasks with
    | t :: rest => if t.begun.le now then (some t, { w with tasks := rest }) else (none, w)
    | [] => (none, w)

/-- Waits for at most `bound` tasks, one after another, and gives those that it has waited for. -/
def joinWithin {σ : Type} : (bound : Nat) → Work σ (List Task)
  | 0 => return []
  | bound + 1 => do
    match ← takeTask with
    | none => return []
    | some t =>
      waitFor t.finished
      let others ← joinWithin bound
      return t :: others

/-- Waits for all tasks, those included that are set off meanwhile. -/
def joinTasks {σ : Type} : Work σ (List Task) := do
  joinWithin (← world).tasks.length

end EventWorker
