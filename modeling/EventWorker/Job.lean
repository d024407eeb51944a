import EventWorker.Duration
import EventWorker.EnvValue
import EventWorker.Error
import EventWorker.Resource.Volume

/-!
# Jobs

A job as a handler declares it: a container to run, sidecars beside it, a list of shell tasks, and
what it needs around it. Every field has a default, so a document may leave out any of them, and a
job is written with all of them. `Job.decode` reads a job in either form, and `Job.validate` checks
the names in it.

How a job is read and written does not depend on what its volumes and mounts are (`JobOf`).
-/

namespace EventWorker

open Decoder Resource

inductive ImagePullPolicy where
  | always
  | ifNotPresent
  | never
  deriving DecidableEq, Inhabited

namespace ImagePullPolicy

def name : ImagePullPolicy → String
  | always => "Always"
  | ifNotPresent => "IfNotPresent"
  | never => "Never"

def ofName? (s : String) : Option ImagePullPolicy :=
  [always, ifNotPresent, never].find? (·.name == s)

theorem ofName?_name (p : ImagePullPolicy) : ofName? p.name = some p := by
  cases p <;> decide

def decode : Decoder ImagePullPolicy :=
  oneOf ofName?

end ImagePullPolicy

structure Container where
  image : String := ""
  imagePullPolicy : ImagePullPolicy := .ifNotPresent
  command : List String := []
  args : List String := []
  env : Table EnvValue := {}
  workingDirectory : Option String := none
  /-- Where the container wants the fetched source, if not at the usual place. -/
  sourceMountPath : Option String := none
  privileged : Bool := false
  deriving Inhabited

namespace Container

def toDocument (c : Container) : Document :=
  .object [("image", .text c.image), ("imagePullPolicy", .text c.imagePullPolicy.name),
    ("command", .texts c.command), ("args", .texts c.args),
    ("env", .ofTable EnvValue.toDocument c.env),
    ("workingDirectory", .textOrNull c.workingDirectory),
    ("sourceMountPath", .textOrNull c.sourceMountPath), ("privileged", .bool c.privileged)]

def setField (terms : Terms) (field : String) (d : Document) (c : Container) :
    Except DecodeError Container := do
  match field with
  | "image" => return { c with image := ← text terms d }
  | "imagePullPolicy" => return { c with imagePullPolicy := ← ImagePullPolicy.decode terms d }
  | "command" => return { c with command := ← listOf text terms d }
  | "args" => return { c with args := ← listOf text terms d }
  | "env" => return { c with env := ← tableOf EnvValue.decode terms d }
  | "workingDirectory" => return { c with workingDirectory := ← optional text terms d }
  | "sourceMountPath" => return { c with sourceMountPath := ← optional text terms d }
  | "privileged" => return { c with privileged := ← flag terms d }
  | _ => return c

def shape : Shape Container where
  fields := ["image", "imagePullPolicy", "command", "args", "env", "workingDirectory",
    "sourceMountPath", "privileged"]
  initial := {}
  set := setField

def decode : Decoder Container :=
  shape.decode

end Container

/-- Amounts of processor and memory, where they are given. -/
structure ResourceSpec where
  cpu : Option String := none
  memory : Option String := none
  deriving Inhabited, DecidableEq

namespace ResourceSpec

def isEmpty (r : ResourceSpec) : Bool :=
  r.cpu.isNone && r.memory.isNone

def toDocument (r : ResourceSpec) : Document :=
  .object [("cpu", .textOrNull r.cpu), ("memory", .textOrNull r.memory)]

def shape : Shape ResourceSpec where
  fields := ["cpu", "memory"]
  initial := {}
  set := fun terms field d r => do
    match field with
    | "cpu" => return { r with cpu := ← optional text terms d }
    | "memory" => return { r with memory := ← optional text terms d }
    | _ => return r

def decode : Decoder ResourceSpec :=
  shape.decode

end ResourceSpec

structure Resources where
  requests : ResourceSpec := {}
  limits : ResourceSpec := {}
  deriving Inhabited, DecidableEq

namespace Resources

def toDocument (r : Resources) : Document :=
  .object [("requests", r.requests.toDocument), ("limits", r.limits.toDocument)]

def shape : Shape Resources where
  fields := ["requests", "limits"]
  initial := {}
  set := fun terms field d r => do
    match field with
    | "requests" => return { r with requests := ← ResourceSpec.decode terms d }
    | "limits" => return { r with limits := ← ResourceSpec.decode terms d }
    | _ => return r

def decode : Decoder Resources :=
  shape.decode

end Resources

/-- Where a job may run. -/
structure HostSpec where
  os : Option String := none
  nodeName : Option String := none
  nodeSelector : Table String := {}
  deriving Inhabited

namespace HostSpec

def toDocument (h : HostSpec) : Document :=
  .object [("os", .textOrNull h.os), ("nodeName", .textOrNull h.nodeName),
    ("nodeSelector", .ofTable .text h.nodeSelector)]

def shape : Shape HostSpec where
  fields := ["os", "nodeName", "nodeSelector"]
  initial := {}
  set := fun terms field d h => do
    match field with
    | "os" => return { h with os := ← optional text terms d }
    | "nodeName" => return { h with nodeName := ← optional text terms d }
    | "nodeSelector" => return { h with nodeSelector := ← tableOf text terms d }
    | _ => return h

def decode : Decoder HostSpec :=
  shape.decode

end HostSpec

/-- A volume that is kept from one run of the job to the next. -/
structure CacheConfig where
  enabled : Bool := false
  size : String := "5Mi"
  path : String := "/mnt/ferry/cache"
  storageClass : Option String := none
  deriving Inhabited, DecidableEq

namespace CacheConfig

def toDocument (c : CacheConfig) : Document :=
  .object [("enabled", .bool c.enabled), ("size", .text c.size), ("path", .text c.path),
    ("storageClass", .textOrNull c.storageClass)]

def shape : Shape CacheConfig where
  fields := ["enabled", "size", "path", "storageClass"]
  initial := {}
  set := fun terms field d c => do
    match field with
    | "enabled" => return { c with enabled := ← flag terms d }
    | "size" => return { c with size := ← text terms d }
    | "path" => return { c with path := ← text terms d }
    | "storageClass" => return { c with storageClass := ← optional text terms d }
    | _ => return c

def decode : Decoder CacheConfig :=
  shape.decode

end CacheConfig

/-- Whether and where the volume shared by the jobs of a run is mounted. -/
structure StorageConfig where
  enabled : Bool := false
  path : String := "/mnt/ferry/share"
  deriving Inhabited, DecidableEq

namespace StorageConfig

def toDocument (s : StorageConfig) : Document :=
  .object [("enabled", .bool s.enabled), ("path", .text s.path)]

def shape : Shape StorageConfig where
  fields := ["enabled", "path"]
  initial := {}
  set := fun terms field d s => do
    match field with
    | "enabled" => return { s with enabled := ← flag terms d }
    | "path" => return { s with path := ← text terms d }
    | _ => return s

def decode : Decoder StorageConfig :=
  shape.decode

end StorageConfig

def defaultShell : String := "/bin/sh"

/-- A job whose volumes and mounts are of some types. -/
structure JobOf (V M : Type) where
  name : String := ""
  container : Container := {}
  /-- Containers that run beside the first one, by name. -/
  sidecars : Table Container := {}
  /-- Commands of a script that replaces the container's own command. -/
  tasks : List String := []
  shell : String := defaultShell
  timeout : Duration := .ofSeconds 900
  host : HostSpec := {}
  cache : CacheConfig := {}
  storage : StorageConfig := {}
  docker : Bool := false
  volumes : List V := []
  volumeMounts : List M := []
  resources : Resources := {}
  serviceAccount : Option String := none
  imagePullSecrets : List String := []
  useSource : Bool := true
  privileged : Bool := false
  /-- A disrupted status stream counts as success. -/
  fallible : Bool := false
  deriving Inhabited

namespace JobOf

variable {V M : Type} (volume : Codec V) (mount : Codec M)

def toDocument (j : JobOf V M) : Document :=
  .object [("name", .text j.name), ("container", j.container.toDocument),
    ("sidecars", .ofTable Container.toDocument j.sidecars), ("tasks", .texts j.tasks),
    ("shell", .text j.shell), ("timeoutSeconds", .nat j.timeout.seconds),
    ("host", j.host.toDocument), ("cache", j.cache.toDocument),
    ("storage", j.storage.toDocument), ("docker", .bool j.docker),
    ("volumes", .list (j.volumes.map volume.toDocument)),
    ("volumeMounts", .list (j.volumeMounts.map mount.toDocument)),
    ("resources", j.resources.toDocument), ("serviceAccount", .textOrNull j.serviceAccount),
    ("imagePullSecrets", .texts j.imagePullSecrets), ("useSource", .bool j.useSource),
    ("privileged", .bool j.privileged), ("fallible", .bool j.fallible)]

def setField (terms : Terms) (field : String) (d : Document) (j : JobOf V M) :
    Except DecodeError (JobOf V M) := do
  match field with
  | "name" => return { j with name := ← text terms d }
  | "container" => return { j with container := ← Container.decode terms d }
  | "sidecars" => return { j with sidecars := ← tableOf Container.decode terms d }
  | "tasks" => return { j with tasks := ← listOf text terms d }
  | "shell" => return { j with shell := ← text terms d }
  | "timeoutSeconds" => return { j with timeout := .ofSeconds (← natBelow UInt64.size terms d) }
  | "host" => return { j with host := ← HostSpec.decode terms d }
  | "cache" => return { j with cache := ← CacheConfig.decode terms d }
  | "storage" => return { j with storage := ← StorageConfig.decode terms d }
  | "docker" => return { j with docker := ← flag terms d }
  | "volumes" => return { j with volumes := ← listOf volume.decode terms d }
  | "volumeMounts" => return { j with volumeMounts := ← listOf mount.decode terms d }
  | "resources" => return { j with resources := ← Resources.decode terms d }
  | "serviceAccount" => return { j with serviceAccount := ← optional text terms d }
  | "imagePullSecrets" => return { j with imagePullSecrets := ← listOf text terms d }
  | "useSource" => return { j with useSource := ← flag terms d }
  | "privileged" => return { j with privileged := ← flag terms d }
  | "fallible" => return { j with fallible := ← flag terms d }
  | _ => return j

def fields : List String :=
  ["name", "container", "sidecars", "tasks", "shell", "timeoutSeconds", "host", "cache", "storage",
    "docker", "volumes", "volumeMounts", "resources", "serviceAccount", "imagePullSecrets",
    "useSource", "privileged", "fallible"]

def shape : Shape (JobOf V M) where
  fields := fields
  initial := {}
  set := setField volume mount

def decode : Decoder (JobOf V M) :=
  (shape volume mount).decode

end JobOf

/-- A job as the worker knows it. -/
abbrev Job := JobOf Volume VolumeMount

namespace Job

def toDocument (j : Job) : Document :=
  JobOf.toDocument Volume.codec VolumeMount.codec j

def decode : Decoder Job :=
  JobOf.decode Volume.codec VolumeMount.codec

/-- A job of the given name that runs an image. -/
def ofImage (name image : String) : Job :=
  { name, container := { image } }

def withTasks (j : Job) (tasks : List String) : Job :=
  { j with tasks }

def withArgs (j : Job) (args : List String) : Job :=
  { j with container := { j.container with args } }

def withEnv (j : Job) (key : String) (value : EnvValue) : Job :=
  { j with container := { j.container with env := j.container.env.insert key value } }

def withShell (j : Job) (shell : String) : Job :=
  { j with shell }

def withTimeout (j : Job) (timeout : Duration) : Job :=
  { j with timeout }

def withSidecar (j : Job) (name : String) (c : Container) : Job :=
  { j with sidecars := j.sidecars.insert name c }

def asFallible (j : Job) : Job :=
  { j with fallible := true }

/-- Checks a name of a job or of a sidecar. -/
def checkName (name : String) : Except BuildError Unit :=
  match nameFault? name with
  | some fault => .error (.invalidJobName name fault)
  | none => .ok ()

def checkNames : List String → Except BuildError Unit
  | [] => .ok ()
  | name :: names => do
    checkName name
    checkNames names

/-- Checks the name of the job and then those of its sidecars, in their order. -/
def validate (j : Job) : Except BuildError Unit :=
  checkNames (j.name :: j.sidecars.keys)

end Job

end EventWorker
