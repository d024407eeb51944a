import EventWorker.Phase
import EventWorker.Resource.Claim
import EventWorker.Resource.Volume

/-!
# Pods

A pod is a set of containers with the volumes that they share. Its status, once it has one, says
which phase it is in; a pod without a status is pending.
-/

namespace EventWorker.Resource

open Decoder

/-- A key of a secret or of a config map. -/
structure KeySelector where
  name : Option String := none
  key : String := ""
  deriving Inhabited, DecidableEq

/-- An environment variable: a value, or a reference that the cluster resolves. -/
structure EnvVar where
  name : String := ""
  value : Option String := none
  secretKey : Option KeySelector := none
  configMapKey : Option KeySelector := none
  deriving Inhabited, DecidableEq

structure PodContainer where
  name : String := ""
  image : Option String := none
  imagePullPolicy : Option String := none
  command : Option (List String) := none
  args : Option (List String) := none
  env : Option (List EnvVar) := none
  workingDir : Option String := none
  volumeMounts : Option (List VolumeMount) := none
  /-- Whether the container is privileged, where that is said at all. -/
  privileged : Option Bool := none
  resources : Option Quantities := none
  deriving Inhabited

structure PodSpec where
  containers : List PodContainer := []
  initContainers : Option (List PodContainer) := none
  volumes : Option (List Volume) := none
  restartPolicy : Option String := none
  serviceAccountName : Option String := none
  nodeName : Option String := none
  nodeSelector : Option (Table String) := none
  imagePullSecrets : Option (List String) := none
  deriving Inhabited

structure Pod where
  metadata : Metadata := {}
  spec : Option PodSpec := none
  /-- The phase in the status: none without a status, and none in it without a phase. -/
  status : Option (Option String) := none
  deriving Inhabited

def KeySelector.toDocument (k : KeySelector) : Document :=
  .present [("name", k.name.map .text), ("key", some (.text k.key))]

def KeySelector.decode : Decoder KeySelector :=
  (shape ["name", "key"] fun terms field d k => do
    match field with
    | "name" => return { k with name := ← optional text terms d }
    | "key" => return { k with key := ← orEmpty text terms d }
    | _ => return k).decode

namespace EnvVar

/-- The references of a variable that has any. -/
def source? (v : EnvVar) : Option Document :=
  if v.secretKey.isNone && v.configMapKey.isNone then none
  else some (.present [("secretKeyRef", v.secretKey.map KeySelector.toDocument),
    ("configMapKeyRef", v.configMapKey.map KeySelector.toDocument)])

def toDocument (v : EnvVar) : Document :=
  .present [("name", some (.text v.name)), ("value", v.value.map .text), ("valueFrom", v.source?)]

def decodeSource : Decoder EnvVar :=
  (shape ["secretKeyRef", "configMapKeyRef"] fun terms field d v => do
    match field with
    | "secretKeyRef" => return { v with secretKey := ← optional KeySelector.decode terms d }
    | "configMapKeyRef" => return { v with configMapKey := ← optional KeySelector.decode terms d }
    | _ => return v).decode

def decode : Decoder EnvVar :=
  (shape ["name", "value", "valueFrom"] fun terms field d v => do
    match field with
    | "name" => return { v with name := ← orEmpty text terms d }
    | "value" => return { v with value := ← optional text terms d }
    | "valueFrom" =>
      let source ← orEmpty decodeSource terms d
      return { v with secretKey := source.secretKey, configMapKey := source.configMapKey }
    | _ => return v).decode

end EnvVar

namespace PodContainer

def toDocument (c : PodContainer) : Document :=
  .present [("name", some (.text c.name)), ("image", c.image.map .text),
    ("imagePullPolicy", c.imagePullPolicy.map .text), ("command", c.command.map .texts),
    ("args", c.args.map .texts),
    ("env", c.env.map fun vars => .list (vars.map EnvVar.toDocument)),
    ("workingDir", c.workingDir.map .text),
    ("volumeMounts", c.volumeMounts.map fun ms => .list (ms.map VolumeMount.toDocument)),
    ("securityContext", c.privileged.map fun p => .object [("privileged", .bool p)]),
    ("resources", c.resources.map Quantities.toDocument)]

def decodePrivileged : Decoder (Option Bool) :=
  (shape ["privileged"] fun terms _ d _ => optional flag terms d).decode

def decode : Decoder PodContainer :=
  (shape ["name", "image", "imagePullPolicy", "command", "args", "env", "workingDir",
      "volumeMounts", "securityContext", "resources"] fun terms field d c => do
    match field with
    | "name" => return { c with name := ← orEmpty text terms d }
    | "image" => return { c with image := ← optional text terms d }
    | "imagePullPolicy" => return { c with imagePullPolicy := ← optional text terms d }
    | "command" => return { c with command := ← optional (listOf text) terms d }
    | "args" => return { c with args := ← optional (listOf text) terms d }
    | "env" => return { c with env := ← optional (listOf EnvVar.decode) terms d }
    | "workingDir" => return { c with workingDir := ← optional text terms d }
    | "volumeMounts" =>
      return { c with volumeMounts := ← optional (listOf VolumeMount.decode) terms d }
    | "securityContext" => return { c with privileged := ← orEmpty decodePrivileged terms d }
    | "resources" => return { c with resources := ← optional Quantities.decode terms d }
    | _ => return c).decode

end PodContainer

/-- A reference to another resource by a name that may be absent. -/
def decodeLocalReference : Decoder String :=
  (shape ["name"] fun terms _ d _ => orEmpty text terms d).decode

namespace PodSpec

def toDocument (s : PodSpec) : Document :=
  .present [("containers", some (.list (s.containers.map PodContainer.toDocument))),
    ("initContainers", s.initContainers.map fun cs => .list (cs.map PodContainer.toDocument)),
    ("volumes", s.volumes.map fun vs => .list (vs.map Volume.toDocument)),
    ("restartPolicy", s.restartPolicy.map .text),
    ("serviceAccountName", s.serviceAccountName.map .text), ("nodeName", s.nodeName.map .text),
    ("nodeSelector", s.nodeSelector.map (Document.ofTable .text)),
    ("imagePullSecrets", s.imagePullSecrets.map fun names =>
      .list (names.map fun n => .object [("name", .text n)]))]

def decode : Decoder PodSpec :=
  (shape ["containers", "initContainers", "volumes", "restartPolicy", "serviceAccountName",
      "nodeName", "nodeSelector", "imagePullSecrets"] fun terms field d s => do
    match field with
    | "containers" => return { s with containers := ← orEmpty (listOf PodContainer.decode) terms d }
    | "initContainers" =>
      return { s with initContainers := ← optional (listOf PodContainer.decode) terms d }
    | "volumes" => return { s with volumes := ← optional (listOf Volume.decode) terms d }
    | "restartPolicy" => return { s with restartPolicy := ← optional text terms d }
    | "serviceAccountName" => return { s with serviceAccountName := ← optional text terms d }
    | "nodeName" => return { s with nodeName := ← optional text terms d }
    | "nodeSelector" => return { s with nodeSelector := ← optional (tableOf text) terms d }
    | "imagePullSecrets" =>
      return { s with imagePullSecrets := ← optional (listOf decodeLocalReference) terms d }
    | _ => return s).decode

end PodSpec

namespace Pod

def decodeStatus : Decoder (Option String) :=
  (shape ["phase"] fun terms _ d _ => optional text terms d).decode

def toDocument (p : Pod) : Document :=
  .present [("apiVersion", some (.text "v1")), ("kind", some (.text "Pod")),
    ("metadata", some p.metadata.toDocument), ("spec", p.spec.map PodSpec.toDocument),
    ("status", p.status.map fun phase => .present [("phase", phase.map .text)])]

def decode : Decoder Pod :=
  (shape ["apiVersion", "kind", "metadata", "spec", "status"] fun terms field d p => do
    match field with
    | "apiVersion" => do fixed "v1" terms d; return p
    | "kind" => do fixed "Pod" terms d; return p
    | "metadata" => return { p with metadata := ← orEmpty Metadata.decode terms d }
    | "spec" => return { p with spec := ← optional PodSpec.decode terms d }
    | "status" => return { p with status := ← optional decodeStatus terms d }
    | _ => return p).decode

def phase (p : Pod) : Phase :=
  match p.status with
  | some (some word) => Phase.ofPodStatus word
  | _ => .pending

end Pod

end EventWorker.Resource
