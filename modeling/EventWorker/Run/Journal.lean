import EventWorker.Error
import EventWorker.Project
import EventWorker.Event
import EventWorker.Timeline
import EventWorker.UnitRef

/-!
# The journal of a run

What is written down while a run goes on: its progress, which is reported as it happens; the changes
made to the cluster; the stages that the run has come to; what its handlers have to say; the tasks that
are set off; and every deed of the controller. Only the controller writes down deeds and stages, and a
task is written down where it is set off and nowhere else.
-/

namespace EventWorker

inductive Severity where
  | info
  | warning
  | error
  deriving DecidableEq

/-- What a run reports while it goes on. -/
inductive Progress where
  /-- An event is passed to its handler. -/
  | fired (source type : String)
  | started (job : String)
  | submitted (job unit : String)
  | completed (job : String) (phase : Phase) (took : Duration)
  | failed (job text : String) (took : Duration)
  | log (severity : Severity) (text : String) (job : Option String)
  deriving DecidableEq

/-- How far a run has come. -/
inductive Stage where
  | idle
  | projectLoaded
  | storageProvisioned
  | eventFired
  | afterFired
  /-- There was no handler, so there is nothing to come after it. -/
  | noHandlerBookkept
  | storageTornDown
  | exited
  deriving DecidableEq

def Stage.name : Stage → String
  | idle => "Idle"
  | projectLoaded => "ProjectLoaded"
  | storageProvisioned => "StorageProvisioned"
  | eventFired => "EventFired"
  | afterFired => "AfterFired"
  | noHandlerBookkept => "NoHandlerBookkept"
  | storageTornDown => "StorageTornDown"
  | exited => "Exited"

/-- What a handler notes down. -/
inductive Remark where
  | note (text : String)
  /-- The event that it has been called for. -/
  | called (event : Event)
  /-- The run and the project that it works for. -/
  | scope (run project : String)
  /-- A job that it has run. -/
  | ran (job : String) (logs : Except JobError String) (unit : Option UnitRef)

/-- Work of its own that has been set off on behalf of a run. -/
structure Task where
  /-- When it was set off. -/
  begun : Moment
  finished : Moment
  failure : Option String
  deriving DecidableEq

/-- Why those of the tasks that failed did so. -/
def Task.failures (tasks : List Task) : List String :=
  tasks.filterMap (·.failure)

/-- A failure that a run has learned of, and from whom. -/
structure Failure where
  reason : String
  trigger : Trigger
  deriving DecidableEq

/-- What the controller of a run does. -/
inductive Deed where
  /-- Asks for the volume of the run. -/
  | provision (event : Event) (project : Project)
  /-- Fires an event, whether anybody handles it or not. -/
  | fire (event : Event)
  /-- Calls the handler of an event. -/
  | call (event : Event)
  /-- Learns what the handler of an event has come to. -/
  | hear (event : Event) (failure : Option String)
  /-- Has waited for tasks. -/
  | join (tasks : List Task)
  /-- Reports a failure, and goes on to fire an error event if it is the first. -/
  | raise (failure : Failure)
  /-- Gives the volume of the run back. -/
  | release (event : Event) (project : Project)

inductive Entry where
  | progress (p : Progress)
  | operation (text : String)
  | reached (stage : Stage)
  | remark (r : Remark)
  | setOff (t : Task)
  | deed (d : Deed)

namespace Entry

def progress? : Entry → Option Progress
  | progress p => some p
  | _ => none

def operation? : Entry → Option String
  | operation text => some text
  | _ => none

def remark? : Entry → Option Remark
  | remark r => some r
  | _ => none

def stage? : Entry → Option Stage
  | reached s => some s
  | _ => none

def task? : Entry → Option Task
  | setOff t => some t
  | _ => none

def deed? : Entry → Option Deed
  | deed d => some d
  | _ => none

end Entry

/-- Entries with the moments at which they were written, in the order in which they were. -/
abbrev Journal := List (Moment × Entry)

namespace Journal

def stages (j : Journal) : List Stage :=
  j.filterMap (·.2.stage?)

def tasks (j : Journal) : List Task :=
  j.filterMap (·.2.task?)

def deeds (j : Journal) : List Deed :=
  j.filterMap (·.2.deed?)

@[simp] theorem stages_append (i j : Journal) : stages (i ++ j) = stages i ++ stages j :=
  List.filterMap_append

@[simp] theorem tasks_append (i j : Journal) : tasks (i ++ j) = tasks i ++ tasks j :=
  List.filterMap_append

@[simp] theorem deeds_append (i j : Journal) : deeds (i ++ j) = deeds i ++ deeds j :=
  List.filterMap_append

end Journal

end EventWorker
