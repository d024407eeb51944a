import EventWorker.Job
import EventWorker.Unit.Script

/-!
# Job requests

What the worker API is told about a job. Tasks become the command of the primary container, as a
script for its shell. The API resolves no references, so a variable that is one is left out. Privilege
of the job extends to its primary container.
-/

namespace EventWorker

open Resource

structure ContainerRequest where
  image : String
  imagePullPolicy : ImagePullPolicy
  command : List String
  arguments : List String
  environment : Table String
  workingDirectory : Option String
  sourceMountPath : Option String
  useSource : Bool
  privileged : Bool

namespace ContainerRequest

/-- The variables that have a value of their own. -/
def literals (env : Table EnvValue) : Table String :=
  Table.ofList (env.entries.filterMap fun
    | (key, .literal value) => some (key, value)
    | _ => none)

def ofContainer (c : Container) (useSource : Bool) : ContainerRequest where
  image := c.image
  imagePullPolicy := c.imagePullPolicy
  command := c.command
  arguments := c.args
  environment := literals c.env
  workingDirectory := c.workingDirectory
  sourceMountPath := c.sourceMountPath
  useSource := useSource
  privileged := c.privileged

/-- The container that runs tasks as a script. -/
def withTasks (c : ContainerRequest) (shell : String) : List String → ContainerRequest
  | [] => c
  | tasks => { c with command := [shell, "-c", taskScript shell tasks], arguments := [] }

/-- A list that is written only if there is something in it. -/
def listed : List String → Option Document
  | [] => none
  | items => some (.texts items)

def tabled (t : Table String) : Option Document :=
  if t.entries.isEmpty then none else some (.ofTable .text t)

def toDocument (c : ContainerRequest) : Document :=
  .present [("image", some (.text c.image)),
    ("imagePullPolicy", some (.text c.imagePullPolicy.name)), ("command", listed c.command),
    ("arguments", listed c.arguments), ("environment", tabled c.environment),
    ("workingDirectory", c.workingDirectory.map .text),
    ("sourceMountPath", c.sourceMountPath.map .text), ("useSource", some (.bool c.useSource)),
    ("privileged", some (.bool c.privileged))]

end ContainerRequest

structure JobRequest where
  name : String
  primary : ContainerRequest
  sidecars : Table ContainerRequest
  timeoutSeconds : Nat
  host : HostSpec

namespace JobRequest

def primaryOf (j : Job) : ContainerRequest :=
  let c := ContainerRequest.ofContainer j.container j.useSource
  { c with privileged := c.privileged || j.privileged }.withTasks j.shell j.tasks

def ofJob (j : Job) : JobRequest where
  name := j.name
  primary := primaryOf j
  sidecars := j.sidecars.map (ContainerRequest.ofContainer · j.useSource)
  timeoutSeconds := j.timeout.seconds
  host := j.host

/-- A host that nothing is said about is not written. -/
def hostDocument? (h : HostSpec) : Option Document :=
  if h.os.isNone && h.nodeName.isNone && h.nodeSelector.entries.isEmpty then none
  else some (.present [("os", h.os.map .text), ("nodeName", h.nodeName.map .text),
    ("nodeSelector", ContainerRequest.tabled h.nodeSelector)])

def toDocument (r : JobRequest) : Document :=
  .object [("name", .text r.name), ("spec", .present [
    ("primaryContainer", some r.primary.toDocument),
    ("sidecarContainers", if r.sidecars.entries.isEmpty then none
      else some (.ofTable ContainerRequest.toDocument r.sidecars)),
    ("timeoutSeconds", some (.nat r.timeoutSeconds)), ("host", hostDocument? r.host)])]

end JobRequest

end EventWorker
