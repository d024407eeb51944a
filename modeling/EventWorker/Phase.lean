import EventWorker.Document.Decode

/-!
# Phases

The states that an execution unit is reported in. A phase is final when no other can follow.
Three vocabularies name them: the word shown to people, the word on the wire of the worker API, and
the word in the status of a pod, which knows only five of them.
-/

namespace EventWorker

inductive Phase where
  | pending
  | running
  | succeeded
  | failed
  | timedOut
  | schedulingFailed
  | aborted
  | canceled
  | unknown
  deriving DecidableEq, Inhabited

namespace Phase

/-- No other phase can follow. -/
def isFinal : Phase → Bool
  | pending => false
  | running => false
  | unknown => false
  | _ => true

def name : Phase → String
  | pending => "Pending"
  | running => "Running"
  | succeeded => "Succeeded"
  | failed => "Failed"
  | timedOut => "TimedOut"
  | schedulingFailed => "SchedulingFailed"
  | aborted => "Aborted"
  | canceled => "Canceled"
  | unknown => "Unknown"

def wire : Phase → String
  | pending => "PENDING"
  | running => "RUNNING"
  | succeeded => "SUCCEEDED"
  | failed => "FAILED"
  | timedOut => "TIMED_OUT"
  | schedulingFailed => "SCHEDULING_FAILED"
  | aborted => "ABORTED"
  | canceled => "CANCELED"
  | unknown => "UNKNOWN"

def all : List Phase :=
  [pending, running, succeeded, failed, timedOut, schedulingFailed, aborted, canceled, unknown]

theorem mem_all (p : Phase) : p ∈ all := by
  cases p <;> decide

/-- A wire word; a unit that is starting counts as pending. -/
def ofWire? (s : String) : Option Phase :=
  if s = "STARTING" then some pending else all.find? (·.wire == s)

theorem ofWire?_wire (p : Phase) : ofWire? p.wire = some p := by
  cases p <;> decide

/-- The phase of a pod by the word in its status. -/
def ofPodStatus (s : String) : Phase :=
  if s = "Pending" then pending
  else if s = "Running" then running
  else if s = "Succeeded" then succeeded
  else if s = "Failed" then failed
  else unknown

def decode : Decoder Phase :=
  Decoder.oneOf ofWire?

end Phase

end EventWorker
