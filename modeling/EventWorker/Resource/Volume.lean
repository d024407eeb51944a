import EventWorker.Resource.Metadata

/-!
# Volumes and mounts

A volume is a name and a source of files; a mount puts the volume of that name at a path of a
container. A job declares both, and a pod lists both.

The model that clusters have of a volume is larger. Here it has the sources that the units of jobs are
made with and the most common others; a source of any other kind is passed over when a volume is
decoded. What depends on how volumes are read and written is therefore said of any model of them
(`JobOf`).
-/

namespace EventWorker.Resource

structure HostPath where
  path : String := ""
  kind : Option String := none
  deriving Inhabited

structure EmptyDir where
  medium : Option String := none
  sizeLimit : Option String := none
  deriving Inhabited

structure KeyToPath where
  key : String := ""
  path : String := ""
  mode : Option Int32 := none
  deriving Inhabited

/-- The files of a config map or of a secret. -/
structure KeyedFiles where
  name : Option String := none
  items : Option (List KeyToPath) := none
  mayBeAbsent : Option Bool := none
  defaultMode : Option Int32 := none
  deriving Inhabited

structure ClaimSource where
  claimName : String := ""
  readOnly : Option Bool := none
  deriving Inhabited

structure NetworkFiles where
  server : String := ""
  path : String := ""
  readOnly : Option Bool := none
  deriving Inhabited

structure Volume where
  name : String := ""
  hostPath : Option HostPath := none
  emptyDir : Option EmptyDir := none
  configMap : Option KeyedFiles := none
  secret : Option KeyedFiles := none
  claim : Option ClaimSource := none
  network : Option NetworkFiles := none
  deriving Inhabited

structure VolumeMount where
  name : String := ""
  mountPath : String := ""
  readOnly : Option Bool := none
  subPath : Option String := none
  subPathExpr : Option String := none
  mountPropagation : Option String := none
  deriving Inhabited

open Decoder

def HostPath.toDocument (h : HostPath) : Document :=
  .present [("path", some (.text h.path)), ("type", h.kind.map .text)]

def HostPath.decode : Decoder HostPath :=
  (shape ["path", "type"] fun terms field d h => do
    match field with
    | "path" => return { h with path := ← orEmpty text terms d }
    | "type" => return { h with kind := ← optional text terms d }
    | _ => return h).decode

def EmptyDir.toDocument (e : EmptyDir) : Document :=
  .present [("medium", e.medium.map .text), ("sizeLimit", e.sizeLimit.map .text)]

def EmptyDir.decode : Decoder EmptyDir :=
  (shape ["medium", "sizeLimit"] fun terms field d e => do
    match field with
    | "medium" => return { e with medium := ← optional text terms d }
    | "sizeLimit" => return { e with sizeLimit := ← optional text terms d }
    | _ => return e).decode

def KeyToPath.toDocument (k : KeyToPath) : Document :=
  .present [("key", some (.text k.key)), ("path", some (.text k.path)),
    ("mode", k.mode.map (.int ·.toInt))]

def KeyToPath.decode : Decoder KeyToPath :=
  (shape ["key", "path", "mode"] fun terms field d k => do
    match field with
    | "key" => return { k with key := ← orEmpty text terms d }
    | "path" => return { k with path := ← orEmpty text terms d }
    | "mode" => return { k with mode := ← optional int32 terms d }
    | _ => return k).decode

/-- The files as a record whose name field is called `nameField`. -/
def KeyedFiles.toDocument (nameField : String) (f : KeyedFiles) : Document :=
  .present [(nameField, f.name.map .text),
    ("items", f.items.map fun items => .list (items.map KeyToPath.toDocument)),
    ("optional", f.mayBeAbsent.map .bool), ("defaultMode", f.defaultMode.map (.int ·.toInt))]

def KeyedFiles.decode (nameField : String) : Decoder KeyedFiles :=
  (shape [nameField, "items", "optional", "defaultMode"] fun terms field d f => do
    match field with
    | "items" => return { f with items := ← optional (listOf KeyToPath.decode) terms d }
    | "optional" => return { f with mayBeAbsent := ← optional flag terms d }
    | "defaultMode" => return { f with defaultMode := ← optional int32 terms d }
    | _ => return { f with name := ← optional text terms d }).decode

def ClaimSource.toDocument (c : ClaimSource) : Document :=
  .present [("claimName", some (.text c.claimName)), ("readOnly", c.readOnly.map .bool)]

def ClaimSource.decode : Decoder ClaimSource :=
  (shape ["claimName", "readOnly"] fun terms field d c => do
    match field with
    | "claimName" => return { c with claimName := ← orEmpty text terms d }
    | "readOnly" => return { c with readOnly := ← optional flag terms d }
    | _ => return c).decode

def NetworkFiles.toDocument (n : NetworkFiles) : Document :=
  .present [("server", some (.text n.server)), ("path", some (.text n.path)),
    ("readOnly", n.readOnly.map .bool)]

def NetworkFiles.decode : Decoder NetworkFiles :=
  (shape ["server", "path", "readOnly"] fun terms field d n => do
    match field with
    | "server" => return { n with server := ← orEmpty text terms d }
    | "path" => return { n with path := ← orEmpty text terms d }
    | "readOnly" => return { n with readOnly := ← optional flag terms d }
    | _ => return n).decode

namespace Volume

def toDocument (v : Volume) : Document :=
  .present [("name", some (.text v.name)),
    ("hostPath", v.hostPath.map HostPath.toDocument),
    ("emptyDir", v.emptyDir.map EmptyDir.toDocument),
    ("configMap", v.configMap.map (KeyedFiles.toDocument "name")),
    ("secret", v.secret.map (KeyedFiles.toDocument "secretName")),
    ("persistentVolumeClaim", v.claim.map ClaimSource.toDocument),
    ("nfs", v.network.map NetworkFiles.toDocument)]

def decode : Decoder Volume :=
  (shape ["name", "hostPath", "emptyDir", "configMap", "secret", "persistentVolumeClaim", "nfs"]
    fun terms field d v => do
      match field with
      | "name" => return { v with name := ← orEmpty text terms d }
      | "hostPath" => return { v with hostPath := ← optional HostPath.decode terms d }
      | "emptyDir" => return { v with emptyDir := ← optional EmptyDir.decode terms d }
      | "configMap" => return { v with configMap := ← optional (KeyedFiles.decode "name") terms d }
      | "secret" => return { v with secret := ← optional (KeyedFiles.decode "secretName") terms d }
      | "persistentVolumeClaim" => return { v with claim := ← optional ClaimSource.decode terms d }
      | "nfs" => return { v with network := ← optional NetworkFiles.decode terms d }
      | _ => return v).decode

def codec : Codec Volume :=
  ⟨decode, toDocument⟩

end Volume

namespace VolumeMount

def toDocument (m : VolumeMount) : Document :=
  .present [("name", some (.text m.name)), ("mountPath", some (.text m.mountPath)),
    ("readOnly", m.readOnly.map .bool), ("subPath", m.subPath.map .text),
    ("subPathExpr", m.subPathExpr.map .text),
    ("mountPropagation", m.mountPropagation.map .text)]

def decode : Decoder VolumeMount :=
  (shape ["name", "mountPath", "readOnly", "subPath", "subPathExpr", "mountPropagation"]
    fun terms field d m => do
      match field with
      | "name" => return { m with name := ← orEmpty text terms d }
      | "mountPath" => return { m with mountPath := ← orEmpty text terms d }
      | "readOnly" => return { m with readOnly := ← optional flag terms d }
      | "subPath" => return { m with subPath := ← optional text terms d }
      | "subPathExpr" => return { m with subPathExpr := ← optional text terms d }
      | "mountPropagation" => return { m with mountPropagation := ← optional text terms d }
      | _ => return m).decode

def codec : Codec VolumeMount :=
  ⟨decode, toDocument⟩

end VolumeMount

end EventWorker.Resource
