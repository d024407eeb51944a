import EventWorker.Job
import EventWorker.Text.Blank
import EventWorker.Text.Utf8
import EventWorker.Document.Format

/-!
# Projects

The settings that the jobs of a project run under: where they run, what they may do, where their
source comes from. A project is read from a document, or field by field from the byte strings of the
secret named after it (`Project.ofSecret`), where a blank entry counts as absent and a permission is
given by the word `true` and by nothing else.
-/

namespace EventWorker

open Decoder

structure Repository where
  cloneUrl : Option String := none
  sshKey : Option String := none
  token : Option String := none
  deriving DecidableEq, Inhabited

namespace Repository

def toDocument (r : Repository) : Document :=
  .object [("cloneUrl", .textOrNull r.cloneUrl), ("sshKey", .textOrNull r.sshKey),
    ("token", .textOrNull r.token)]

def shape : Shape Repository where
  fields := ["cloneUrl", "sshKey", "token"]
  initial := {}
  set := fun terms field d r => do
    match field with
    | "cloneUrl" => return { r with cloneUrl := ← optional text terms d }
    | "sshKey" => return { r with sshKey := ← optional text terms d }
    | "token" => return { r with token := ← optional text terms d }
    | _ => return r

def decode : Decoder Repository :=
  shape.decode

end Repository

def defaultSidecarImage : String := "ferry/git-sidecar:latest"

/-- The container that fetches the source. -/
structure SidecarConfig where
  image : String := defaultSidecarImage
  requests : ResourceSpec := {}
  limits : ResourceSpec := {}
  deriving DecidableEq, Inhabited

namespace SidecarConfig

def toDocument (s : SidecarConfig) : Document :=
  .object [("image", .text s.image), ("requests", s.requests.toDocument),
    ("limits", s.limits.toDocument)]

def shape : Shape SidecarConfig where
  fields := ["image", "requests", "limits"]
  initial := {}
  set := fun terms field d s => do
    match field with
    | "image" => return { s with image := ← text terms d }
    | "requests" => return { s with requests := ← ResourceSpec.decode terms d }
    | "limits" => return { s with limits := ← ResourceSpec.decode terms d }
    | _ => return s

def decode : Decoder SidecarConfig :=
  shape.decode

end SidecarConfig

structure Project where
  id : String := ""
  name : String := ""
  /-- The namespace that the project's jobs run in. -/
  namespaceName : String := "default"
  secrets : Table String := {}
  repo : Repository := {}
  sidecar : SidecarConfig := {}
  cacheStorageClass : Option String := none
  buildStorageClass : Option String := none
  allowPrivilegedJobs : Bool := false
  allowHostMounts : Bool := false
  deriving Inhabited

namespace Project

/-- The clone URL, unless it is blank. -/
def cloneUrl (p : Project) : Option String :=
  p.repo.cloneUrl.filter fun url => !Text.isBlankText url

def toDocument (p : Project) : Document :=
  .object [("id", .text p.id), ("name", .text p.name), ("namespace", .text p.namespaceName),
    ("secrets", .ofTable .text p.secrets), ("repo", p.repo.toDocument),
    ("sidecar", p.sidecar.toDocument), ("cacheStorageClass", .textOrNull p.cacheStorageClass),
    ("buildStorageClass", .textOrNull p.buildStorageClass),
    ("allowPrivilegedJobs", .bool p.allowPrivilegedJobs),
    ("allowHostMounts", .bool p.allowHostMounts)]

def setField (terms : Terms) (field : String) (d : Document) (p : Project) :
    Except DecodeError Project := do
  match field with
  | "id" => return { p with id := ← text terms d }
  | "name" => return { p with name := ← text terms d }
  | "namespace" => return { p with namespaceName := ← text terms d }
  | "secrets" => return { p with secrets := ← tableOf text terms d }
  | "repo" => return { p with repo := ← Repository.decode terms d }
  | "sidecar" => return { p with sidecar := ← SidecarConfig.decode terms d }
  | "cacheStorageClass" => return { p with cacheStorageClass := ← optional text terms d }
  | "buildStorageClass" => return { p with buildStorageClass := ← optional text terms d }
  | "allowPrivilegedJobs" => return { p with allowPrivilegedJobs := ← flag terms d }
  | "allowHostMounts" => return { p with allowHostMounts := ← flag terms d }
  | _ => return p

def shape : Shape Project where
  fields := ["id", "name", "namespace", "secrets", "repo", "sidecar", "cacheStorageClass",
    "buildStorageClass", "allowPrivilegedJobs", "allowHostMounts"]
  initial := {}
  set := setField

def decode : Decoder Project :=
  shape.decode

/-- The entry of a secret as a text without blanks at its ends, if anything is left of it. -/
def entry? (data : Table (List UInt8)) (key : String) : Option String :=
  (data.get? key).bind fun bytes => Text.trimmed? (Text.decodeLossy bytes)

def isGranted (data : Table (List UInt8)) (key : String) : Bool :=
  entry? data key == some "true"

/-- A JSON object of texts. -/
def secretTexts? (s : String) : Option (Table String) :=
  (Decoder.ofJson (tableOf text) s).toOption

/-- The project of the given identifier from the data of its secret. Its jobs run in
`defaultNamespace` unless the secret names another. -/
def ofSecret (id : String) (data : Table (List UInt8)) (defaultNamespace : String) :
    Except ClusterError Project := do
  let get := entry? data
  let secrets ← match get "secrets" with
    | none => .ok {}
    | some s => match secretTexts? s with
      | some secrets => .ok secrets
      | none => .error (.rejected ("project '" ++ id ++ "' has invalid secrets: not an object of texts"))
  return {
    id
    name := (get "name").getD id
    namespaceName := (get "namespace").getD defaultNamespace
    secrets
    repo := { cloneUrl := get "cloneURL", sshKey := get "sshKey", token := get "token" }
    sidecar := {
      image := (get "vcsSidecar").getD defaultSidecarImage
      requests := { cpu := get "vcsSidecarResources.requests.cpu",
                    memory := get "vcsSidecarResources.requests.memory" }
      limits := { cpu := get "vcsSidecarResources.limits.cpu",
                  memory := get "vcsSidecarResources.limits.memory" } }
    cacheStorageClass := get "kubernetes.cacheStorageClass"
    buildStorageClass := get "kubernetes.buildStorageClass"
    allowPrivilegedJobs := isGranted data "allowPrivilegedJobs"
    allowHostMounts := isGranted data "allowHostMounts" }

end Project

end EventWorker
