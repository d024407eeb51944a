import EventWorker.Duration
import EventWorker.Job.Name
import EventWorker.Phase

/-!
# Errors

What can go wrong, layer by layer, each layer naming its causes: building a unit, talking to the
cluster, preparing a cache, observing a unit, running a job, starting a run, reading the
configuration. `message` is the text of an error, and `chain` lists that text followed by the texts
of the causes below it, outermost first. An error that only passes on another one has the other's
text and adds no entry of its own. `kind` names the layers of an error from the outside in.
-/

namespace EventWorker

/-- A job that cannot be turned into an execution unit. -/
inductive BuildError where
  | invalidJobName (name : String) (fault : NameFault)
  | unmatchedVolumeMount (job mount : String)
  | hostMountDisallowed (job volume : String)
  | serviceAccountRejected (job account pattern : String)
  deriving DecidableEq

namespace BuildError

def kind : BuildError → String
  | invalidJobName .. => "InvalidJobName"
  | unmatchedVolumeMount .. => "UnmatchedVolumeMount"
  | hostMountDisallowed .. => "HostMountDisallowed"
  | serviceAccountRejected .. => "ServiceAccountRejected"

def message : BuildError → String
  | invalidJobName name fault => "invalid job name '" ++ name ++ "': " ++ fault.reason
  | unmatchedVolumeMount job mount =>
    "job '" ++ job ++ "': volume mount '" ++ mount ++ "' does not match any declared volume"
  | hostMountDisallowed job volume =>
    "job '" ++ job ++ "': host path volume '" ++ volume ++
      "' requires a project that allows host mounts"
  | serviceAccountRejected job account pattern =>
    "job '" ++ job ++ "': service account '" ++ account ++ "' does not match pattern '" ++
      pattern ++ "'"

end BuildError

/-- An answer of the orchestrator or the worker API other than success. -/
inductive ClusterError where
  | notFound (kind name : String)
  | rejected (reason : String)
  | request (reason : String)
  | stream (reason : String)
  deriving DecidableEq

namespace ClusterError

def kind : ClusterError → String
  | notFound .. => "NotFound"
  | rejected _ => "Rejected"
  | request _ => "Request"
  | stream _ => "Stream"

def message : ClusterError → String
  | notFound kind name => kind ++ " '" ++ name ++ "' not found"
  | rejected reason => "request rejected: " ++ reason
  | request reason => "cluster request failed: " ++ reason
  | stream reason => "status stream failed: " ++ reason

def isNotFound : ClusterError → Bool
  | notFound .. => true
  | _ => false

end ClusterError

/-- A cache volume that could not be looked up or created. -/
inductive CacheError where
  | check (claim : String) (cause : ClusterError)
  | create (claim : String) (cause : ClusterError)
  deriving DecidableEq

namespace CacheError

def kind : CacheError → String
  | check _ cause => "Check/" ++ cause.kind
  | create _ cause => "Create/" ++ cause.kind

def message : CacheError → String
  | check claim cause => "checking cache volume '" ++ claim ++ "' failed: " ++ cause.message
  | create claim cause => "creating cache volume '" ++ claim ++ "' failed: " ++ cause.message

def cause : CacheError → ClusterError
  | check _ cause => cause
  | create _ cause => cause

def chain (e : CacheError) : List String :=
  [e.message, e.cause.message]

end CacheError

/-- A unit that could not be observed to its end. -/
inductive WatchError where
  | disrupted (unit : String) (attempts : Nat)
  | task (unit reason : String)
  | cluster (cause : ClusterError)
  deriving DecidableEq

namespace WatchError

def kind : WatchError → String
  | disrupted .. => "Disrupted"
  | task .. => "Task"
  | cluster cause => "Cluster/" ++ cause.kind

def message : WatchError → String
  | disrupted unit attempts =>
    "status stream for '" ++ unit ++ "' was disrupted " ++ toString attempts ++ " times, giving up"
  | task unit reason => "status task for '" ++ unit ++ "' failed: " ++ reason
  | cluster cause => cause.message

end WatchError

/-- A job that did not succeed. -/
inductive JobError where
  | build (cause : BuildError)
  | cache (job : String) (cause : CacheError)
  | scheduling (job : String) (cause : ClusterError)
  | failed (job : String) (phase : Phase)
  | timedOut (job : String) (timeout : Duration)
  | watch (job : String) (cause : WatchError)
  | notStarted (job : String)
  deriving DecidableEq

namespace JobError

def kind : JobError → String
  | build cause => "Build/" ++ cause.kind
  | cache _ cause => "Cache/" ++ cause.kind
  | scheduling _ cause => "Scheduling/" ++ cause.kind
  | failed .. => "Failed"
  | timedOut .. => "TimedOut"
  | watch _ cause => "Watch/" ++ cause.kind
  | notStarted _ => "NotStarted"

def message : JobError → String
  | build cause => cause.message
  | cache job cause => "job '" ++ job ++ "': " ++ cause.message
  | scheduling job cause =>
    "job '" ++ job ++ "': orchestrator rejected the execution unit: " ++ cause.message
  | failed job phase => "job '" ++ job ++ "' finished in phase " ++ phase.name
  | timedOut job timeout => "job '" ++ job ++ "' timed out after " ++ timeout.toText
  | watch job cause => "job '" ++ job ++ "': " ++ cause.message
  | notStarted job => "job '" ++ job ++ "' has not been started"

def chain (e : JobError) : List String :=
  e.message :: match e with
    | cache _ cause => cause.chain
    | scheduling _ cause => [cause.message]
    | watch _ cause => [cause.message]
    | _ => []

end JobError

/-- A run that ended before its event was fired. -/
inductive ControllerError where
  | projectLoad (project : String) (cause : ClusterError)
  | storageProvision (run : String) (cause : ClusterError)
  deriving DecidableEq

namespace ControllerError

def kind : ControllerError → String
  | projectLoad _ cause => "ProjectLoad/" ++ cause.kind
  | storageProvision _ cause => "StorageProvision/" ++ cause.kind

def message : ControllerError → String
  | projectLoad project cause => "loading project '" ++ project ++ "' failed: " ++ cause.message
  | storageProvision run cause =>
    "provisioning build volume for run '" ++ run ++ "' failed: " ++ cause.message

def cause : ControllerError → ClusterError
  | projectLoad _ cause => cause
  | storageProvision _ cause => cause

def chain (e : ControllerError) : List String :=
  [e.message, e.cause.message]

end ControllerError

/-- Why a file could not be read as text. -/
inductive FileFault where
  | missing
  | notText
  deriving DecidableEq

def FileFault.message : FileFault → String
  | missing => "No such file or directory (os error 2)"
  | notText => "stream did not contain valid UTF-8"

/-- A configuration or a handler file that cannot be used. -/
inductive ConfigError where
  | missing (setting : String)
  | invalid (key reason : String)
  | descriptor (cause : DecodeError)
  | handlers (cause : DecodeError)
  | invalidJob (cause : BuildError)
  | file (cause : FileFault)
  deriving DecidableEq

def DecodeError.message : DecodeError → String
  | unreadable => "the text is not well formed"
  | mismatch => "a value is of the wrong type"
  | missing field => "missing field '" ++ field ++ "'"
  | repeated field => "duplicate field '" ++ field ++ "'"
  | unknown field => "unknown field '" ++ field ++ "'"
  | tooDeep => "recursion limit exceeded"
  | refused reason => reason

namespace ConfigError

def kind : ConfigError → String
  | missing _ => "Missing"
  | invalid .. => "Invalid"
  | descriptor _ => "Descriptor"
  | handlers _ => "Handlers"
  | invalidJob cause => "InvalidJob/" ++ cause.kind
  | file _ => "Io"

def message : ConfigError → String
  | missing setting => "missing required setting " ++ setting
  | invalid key reason => "invalid value for " ++ key ++ ": " ++ reason
  | descriptor cause => "invalid descriptor: " ++ cause.message
  | handlers cause => "invalid handler file: " ++ cause.message
  | invalidJob cause => cause.message
  | file cause => "IO error: " ++ cause.message

def chain (e : ConfigError) : List String :=
  e.message :: match e with
    | descriptor cause => [cause.message]
    | handlers cause => [cause.message]
    | file cause => [cause.message]
    | _ => []

end ConfigError

end EventWorker
