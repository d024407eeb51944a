import EventWorker.Document.Decode
import EventWorker.Text.Blank
import EventWorker.Text.LowerCase

/-!
# Events

The event that a run is about, and the two kinds of event derived from it while the run goes on: one
after its handler is done, one when something failed. A derived event differs from the first in its
type and in its cause, which holds the first event, how the event came about, and the reason of a
failure. A cause is never read from a document.
-/

namespace EventWorker

open Decoder

inductive LogLevel where
  | debug
  | info
  | warn
  | error
  deriving DecidableEq, Inhabited

namespace LogLevel

/-- The name of the level, as a log filter takes it. -/
def filter : LogLevel → String
  | debug => "debug"
  | info => "info"
  | warn => "warn"
  | error => "error"

/-- A name in small letters or in capitals. -/
def ofName? (s : String) : Option LogLevel :=
  if s = "debug" ∨ s = "DEBUG" then some debug
  else if s = "info" ∨ s = "INFO" then some info
  else if s = "warn" ∨ s = "WARN" then some warn
  else if s = "error" ∨ s = "ERROR" then some error
  else none

theorem ofName?_filter (l : LogLevel) : ofName? l.filter = some l := by
  cases l <;> decide

def decode : Decoder LogLevel :=
  oneOf ofName?

/-- A level as a person sets it: in any ASCII case, with blanks around it, and by either of two
more names. -/
def parse? (s : String) : Option LogLevel :=
  let t := Text.lowerAscii (Text.trim s)
  if t = "debug" ∨ t = "trace" then some debug
  else if t = "info" then some info
  else if t = "warn" ∨ t = "warning" then some warn
  else if t = "error" then some error
  else none

end LogLevel

/-- The state of the source that an event refers to. -/
structure Revision where
  commit : Option String := none
  gitRef : Option String := none
  deriving DecidableEq, Inhabited

namespace Revision

def toDocument (r : Revision) : Document :=
  .object [("commit", .textOrNull r.commit), ("ref", .textOrNull r.gitRef)]

def shape : Shape Revision where
  fields := ["commit", "ref"]
  initial := {}
  set := fun terms field d r => do
    match field with
    | "commit" => return { r with commit := ← optional text terms d }
    | "ref" => return { r with gitRef := ← optional text terms d }
    | _ => return r

def decode : Decoder Revision :=
  shape.decode

end Revision

/-- What an event says about the worker that handles it. -/
structure Worker where
  apiAddress : Option String := none
  apiToken : Option String := none
  configFilesDirectory : String := ".ferry"
  defaultConfigFiles : Table String := {}
  logLevel : LogLevel := .info
  deriving DecidableEq, Inhabited

namespace Worker

def toDocument (w : Worker) : Document :=
  .object [("apiAddress", .textOrNull w.apiAddress), ("apiToken", .textOrNull w.apiToken),
    ("configFilesDirectory", .text w.configFilesDirectory),
    ("defaultConfigFiles", .object (w.defaultConfigFiles.map Document.text).entries),
    ("logLevel", .text w.logLevel.filter)]

def shape : Shape Worker where
  fields := ["apiAddress", "apiToken", "configFilesDirectory", "defaultConfigFiles", "logLevel"]
  initial := {}
  set := fun terms field d w => do
    match field with
    | "apiAddress" => return { w with apiAddress := ← optional text terms d }
    | "apiToken" => return { w with apiToken := ← optional text terms d }
    | "configFilesDirectory" => return { w with configFilesDirectory := ← text terms d }
    | "defaultConfigFiles" => return { w with defaultConfigFiles := ← tableOf text terms d }
    | "logLevel" => return { w with logLevel := ← LogLevel.decode terms d }
    | _ => return w

def decode : Decoder Worker :=
  shape.decode

end Worker

/-- How a derived event came about. -/
inductive Trigger where
  | success
  | handler
  | background
  deriving DecidableEq, Inhabited

def Trigger.name : Trigger → String
  | success => "success"
  | handler => "handler"
  | background => "background"

/-- The type of the event derived once the handler is done. -/
def afterType : String := "after"

/-- The type of the event derived when something failed. -/
def errorType : String := "error"

/-- An event without its cause. -/
structure EventData where
  /-- The identifier of the event, which is also that of its run. -/
  id : String := ""
  source : String := ""
  type : String := ""
  shortTitle : Option String := none
  longTitle : Option String := none
  payload : Option String := none
  revision : Option Revision := none
  worker : Worker := {}
  deriving DecidableEq, Inhabited

/-- An event with its chain of causes. -/
inductive Event where
  | primary (data : EventData)
  | derived (data : EventData) (trigger : Trigger) (reason : Option String) (cause : Event)
  deriving DecidableEq, Inhabited

namespace Event

def data : Event → EventData
  | primary d => d
  | derived d _ _ _ => d

def id (e : Event) : String := e.data.id

def source (e : Event) : String := e.data.source

def type (e : Event) : String := e.data.type

def runId (e : Event) : String := e.id

def commit (e : Event) : Option String :=
  e.data.revision.bind (·.commit)

def gitRef (e : Event) : Option String :=
  e.data.revision.bind (·.gitRef)

/-- The key that handlers are registered under. -/
def key (e : Event) : String × String :=
  (e.source, e.type)

def new (id source type : String) : Event :=
  .primary { id, source, type }

def mapData (f : EventData → EventData) : Event → Event
  | primary d => primary (f d)
  | derived d trigger reason cause => derived (f d) trigger reason cause

def withPayload (e : Event) (payload : String) : Event :=
  e.mapData fun d => { d with payload := some payload }

def withRevision (e : Event) (commit gitRef : Option String) : Event :=
  e.mapData fun d => { d with revision := some { commit, gitRef } }

/-- An event of another type caused by this one. -/
def derive (e : Event) (type : String) (trigger : Trigger) (reason : Option String) : Event :=
  .derived { e.data with type } trigger reason e

/-- Whether an event is another one's derivation as the given type, for whatever reason. -/
def isDerived (type : String) (origin : Event) : Event → Bool
  | primary _ => false
  | derived data trigger reason cause =>
    derived data trigger reason cause = origin.derive type trigger reason

@[simp] theorem isDerived_derive (type type' : String) (e : Event) (trigger : Trigger)
    (reason : Option String) :
    isDerived type e (e.derive type' trigger reason) = decide (type' = type) := by
  by_cases h : type' = type
  · simp [isDerived, derive, h]
  · have hne : e.derive type' trigger reason ≠ e.derive type trigger reason := by
      intro heq
      exact h (congrArg Event.type heq)
    rw [decide_eq_false h]
    exact decide_eq_false hne

theorem ne_derive (e : Event) (type : String) (trigger : Trigger) (reason : Option String) :
    e ≠ e.derive type trigger reason := by
  intro h
  have hsize := congrArg sizeOf h
  simp only [derive, derived.sizeOf_spec] at hsize
  omega

/-- No event is derived from itself. -/
@[simp] theorem isDerived_self (type : String) (e : Event) : isDerived type e e = false := by
  cases e with
  | primary d => rfl
  | derived d trigger reason cause =>
    simpa [isDerived] using ne_derive (derived d trigger reason cause) type trigger reason

/-- The event that an event goes back to at once: its cause, or itself. -/
def cause? : Event → Option (Trigger × Option String × Event)
  | primary _ => none
  | derived _ trigger reason cause => some (trigger, reason, cause)

def dataFields (d : EventData) : List (String × Document) :=
  [("id", .text d.id), ("source", .text d.source), ("type", .text d.type),
    ("shortTitle", .textOrNull d.shortTitle), ("longTitle", .textOrNull d.longTitle),
    ("payload", .textOrNull d.payload),
    ("revision", (d.revision.map Revision.toDocument).getD .null), ("worker", d.worker.toDocument)]

/-- The event without its cause. -/
def toDocument (e : Event) : Document :=
  .object (dataFields e.data)

/-- The event with its chain of causes. -/
def toFullDocument : Event → Document
  | primary d => .object (dataFields d ++ [("cause", .null)])
  | derived d trigger reason cause =>
    .object (dataFields d ++ [("cause", .object [("trigger", .text trigger.name),
      ("reason", .textOrNull reason), ("event", cause.toFullDocument)])])

def shape : Shape EventData where
  fields := ["id", "source", "type", "shortTitle", "longTitle", "payload", "revision", "worker"]
  initial := {}
  set := fun terms field d e => do
    match field with
    | "id" => return { e with id := ← text terms d }
    | "source" => return { e with source := ← text terms d }
    | "type" => return { e with type := ← text terms d }
    | "shortTitle" => return { e with shortTitle := ← optional text terms d }
    | "longTitle" => return { e with longTitle := ← optional text terms d }
    | "payload" => return { e with payload := ← optional text terms d }
    | "revision" => return { e with revision := ← optional Revision.decode terms d }
    | "worker" => return { e with worker := ← Worker.decode terms d }
    | _ => return e
  required := ["id", "source", "type"]

def decode : Decoder Event := fun terms d =>
  .primary <$> shape.decode terms d

end Event

end EventWorker
