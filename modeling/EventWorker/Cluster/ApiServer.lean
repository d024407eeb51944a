import EventWorker.Cluster
import EventWorker.Document.Format
import EventWorker.Http
import EventWorker.Http.Url
import EventWorker.Text.Lines
import EventWorker.Text.Quoted
import EventWorker.Text.Utf8

/-!
# The cluster behind an API server

A cluster that is reached over HTTP. Every resource has an address made of its namespace, its kind and
its name. An error is answered with a record of its own (`ErrorReply`), whose code tells what kind of
error it is, whatever the status says.

The phases of a unit come from watching its pod: the answer is a list of events, one on each line. The
server is not told how to resume a watch, so a feed always starts from the state the pod is in.
-/

namespace EventWorker

open Decoder Resource

namespace ApiServer

variable {σ α : Type}

/-! ## Errors -/

/-- The record that an error is answered with. -/
structure ErrorReply where
  status : String := ""
  message : String := ""
  reason : String := ""
  code : Nat := 0
  deriving Inhabited, DecidableEq

namespace ErrorReply

def shape : Shape ErrorReply where
  fields := ["status", "message", "reason", "code"]
  initial := {}
  set := fun terms field d e => do
    match field with
    | "status" => return { e with status := ← text terms d }
    | "message" => return { e with message := ← text terms d }
    | "reason" => return { e with reason := ← text terms d }
    | "code" => return { e with code := ← natBelow UInt16.size terms d }
    | _ => return e
  required := ["status", "code"]

/-- The record of an error that came without one: its message is the body in quotes. -/
def ofBody (status : Nat) (body : String) : ErrorReply where
  status := Http.statusText status
  message := Text.quoted body
  reason := "Failed to parse error data"
  code := status

def text (e : ErrorReply) : String :=
  "ApiError: " ++ e.message ++ ": " ++ e.reason

end ErrorReply

/-- Why a request has no result. -/
inductive Fault where
  | reply (e : ErrorReply)
  /-- The result is not what it should be. -/
  | undecodable (cause : DecodeError)
  | notText (cause : Text.Utf8Fault)
  | connection (cause : Http.Fault)

namespace Fault

def message : Fault → String
  | reply e => e.text
  | undecodable cause => "Error deserializing response: " ++ cause.message
  | notText cause => "UTF-8 Error: " ++ cause.message
  | connection cause => cause.message

/-- The fault of a request about a resource. -/
def toError (kind name : String) : Fault → ClusterError
  | reply e =>
    if e.code = 404 then .notFound kind name
    else if 400 ≤ e.code && e.code < 500 then
      .rejected (kind ++ " '" ++ name ++ "': " ++ e.message)
    else .request (reply e).message
  | f => .request f.message

end Fault

/-! ## Requests -/

def send (exchange : Http.Exchange σ) (method : Http.Method) (target : String)
    (body : Option Document) : Call σ Fault Http.Response :=
  Call.mapFault .connection (ExceptT.mk (exchange { method, target, body }))

/-- The body of a response as text. -/
def bodyText (r : Http.Response) : Except Fault String :=
  match Text.faultFrom? 0 r.body with
  | some fault => .error (.notText fault)
  | none => .ok (Text.decodeLossy r.body)

/-- What an error response says. -/
def errorOf (status : Nat) (body : String) : ErrorReply :=
  match ErrorReply.shape.decode.ofJson body with
  | .ok e => e
  | .error _ => .ofBody status body

/-- Asks for a text. -/
def fetchText (exchange : Http.Exchange σ) (method : Http.Method) (target : String)
    (body : Option Document) : Call σ Fault String := do
  let r ← send exchange method target body
  let answer ← ExceptT.mk (pure (bodyText r))
  if r.isError then throw (.reply (errorOf r.status answer)) else return answer

/-- Asks for a value. -/
def fetch (exchange : Http.Exchange σ) (method : Http.Method) (target : String)
    (body : Option Document) (decoder : Decoder α) : Call σ Fault α := do
  let answer ← fetchText exchange method target body
  ExceptT.mk (pure ((decoder.ofJson answer).mapError .undecodable))

/-! ## Addresses -/

/-- The address of the resources of a kind in a namespace. -/
def kindPath (namespaceName kind : String) : String :=
  "/api/v1/namespaces/" ++ namespaceName ++ "/" ++ kind

def claimsPath (namespaceName : String) : String :=
  kindPath namespaceName "persistentvolumeclaims"

def podsPath (namespaceName : String) : String :=
  kindPath namespaceName "pods"

def secretsPath (namespaceName : String) : String :=
  kindPath namespaceName "secrets"

/-! ## Resources -/

def create (exchange : Http.Exchange σ) (path kind : String) (metadata : Metadata)
    (resource : Document) (decoder : Decoder α) : Call σ ClusterError Unit :=
  Call.mapFault (Fault.toError kind metadata.nameText)
    (discard (fetch exchange .post (path ++ "?") (some resource) decoder))

/-- A deletion is answered with the resource, or with a record of its outcome. -/
def decodeDeleted : Decoder Unit := fun terms d =>
  match d.field? "kind" with
  | some (.text "Status") => (shape ["status", "code", "message", "reason"] fun terms field d (_ : Unit) => do
      match field with
      | "status" => discard (optional (oneOf fun s =>
          if s = "Success" ∨ s = "Failure" then some s else none) terms d)
      | "code" => discard (natBelow UInt16.size terms d)
      | _ => discard (text terms d)).decode terms d
  | _ => discard (Claim.decode terms d)

def readPod (exchange : Http.Exchange σ) (u : UnitRef) : Call σ ClusterError (Option Pod) :=
  ExceptT.mk do
    let path := podsPath u.namespaceName ++ "/" ++ u.name
    match ← (fetch exchange .get path none Pod.decode).run with
    | .ok pod => return .ok (some pod)
    | .error (.reply e) =>
      if e.reason = "NotFound" then return .ok none
      else return .error (Fault.toError "Pod" u.name (.reply e))
    | .error f => return .error (f.toError "Pod" u.name)

def logsPath (u : UnitRef) : String :=
  podsPath u.namespaceName ++ "/" ++ u.name ++ "/log?&container=" ++ Url.formValue u.job

/-! ## Watching -/

def watchPath (u : UnitRef) : String :=
  podsPath u.namespaceName ++ "?&watch=true&timeoutSeconds=290&fieldSelector=" ++
    Url.formValue ("metadata.name=" ++ u.name) ++ "&allowWatchBookmarks=true&resourceVersion=0"

inductive EventKind where
  | added
  | modified
  | deleted
  /-- Nothing has changed up to some version. -/
  | bookmark
  | error

def EventKind.ofName? (s : String) : Option EventKind :=
  if s = "ADDED" then some .added
  else if s = "MODIFIED" then some .modified
  else if s = "DELETED" then some .deleted
  else if s = "BOOKMARK" then some .bookmark
  else if s = "ERROR" then some .error
  else none

/-- An event whose object has not been looked at. -/
structure RawEvent where
  kind : EventKind := .added
  object : Document := .null

def RawEvent.shape : Shape RawEvent where
  fields := ["type", "object"]
  initial := {}
  set := fun terms field d e => do
    match field with
    | "type" => return { e with kind := ← oneOf EventKind.ofName? terms d }
    | "object" => return { e with object := d }
    | _ => return e
  required := ["type", "object"]

/-- What a bookmark has to say: its version, and what resources it is about. -/
def decodeBookmark : Decoder Unit :=
  let version : Shape Unit := {
    fields := ["resourceVersion", "annotations"]
    initial := ()
    set := fun terms field d _ =>
      if field = "annotations" then discard (tableOf text terms d) else discard (text terms d)
    required := ["resourceVersion"] }
  let bookmark : Shape Unit := {
    fields := ["metadata", "apiVersion", "kind"]
    initial := ()
    set := fun terms field d _ =>
      if field = "metadata" then version.decode terms d else discard (text terms d)
    required := ["metadata", "apiVersion", "kind"]
    lists := false }
  bookmark.decode

/-- What an event says about the phase of a pod, if it says anything. -/
def decodeEvent : Decoder (Option (Except ClusterError Phase)) := fun terms d => do
  let event ← RawEvent.shape.decode terms d
  let terms := { terms with levels := terms.levels - 1 }
  match event.kind with
  | .added | .modified => return some (.ok (← Pod.decode terms event.object).phase)
  | .deleted =>
    discard (Pod.decode terms event.object)
    return some (.error (.stream "pod was deleted"))
  | .bookmark =>
    decodeBookmark terms event.object
    return none
  | .error => return some (.error (.stream (← ErrorReply.shape.decode terms event.object).message))

/-- What a line of a watch says. A line that breaks off says nothing, and one that is no event may be
an error of the server. -/
def readEvent? (line : String) : Option (Except ClusterError Phase) :=
  if Document.Json.breaksOff line then none
  else
    match decodeEvent.ofJson line with
    | .ok item => item
    | .error cause =>
      match ErrorReply.shape.decode.ofJson line with
      | .ok e => some (.error (.stream (Fault.reply e).message))
      | .error _ => some (.error (.stream (Fault.undecodable cause).message))

/-- What the lines of a watch say, up to one that is no text. -/
def readEvents : List (List UInt8) → List (Except ClusterError Phase)
  | [] => []
  | line :: rest =>
    match Text.decode? line with
    | some s => (readEvent? s).toList ++ readEvents rest
    | none => [.error (.stream "Error reading events stream: Unable to decode input as UTF8")]

/-- The feed of a watch. Whatever happens to the watch itself happens within the feed. -/
def subscribe (exchange : Http.Exchange σ) (u : UnitRef) : Call σ ClusterError Feed :=
  ExceptT.mk do
    match ← (send exchange .get (watchPath u) none).run with
    | .error f => return .ok { items := [(0, .error (.stream f.message))] }
    | .ok r =>
      let (lines, tail) := Text.cutLines r.body
      return .ok { items := (readEvents (lines ++ [tail])).map ((0, ·)) }

/-! ## The cluster -/

def cluster (exchange : Http.Exchange σ) : Cluster σ where
  createSecret s :=
    create exchange (secretsPath s.metadata.namespaceText) "Secret" s.metadata s.toDocument
      Secret.decode
  createPod p :=
    create exchange (podsPath p.metadata.namespaceText) "Pod" p.metadata p.toDocument Pod.decode
  getClaim namespaceName name :=
    (fetch exchange .get (claimsPath namespaceName ++ "/" ++ name) none Claim.decode).mapFault
      (Fault.toError Claim.kindName name)
  createClaim c :=
    create exchange (claimsPath c.metadata.namespaceText) Claim.kindName c.metadata c.toDocument
      Claim.decode
  deleteClaim namespaceName name :=
    (fetch exchange .delete (claimsPath namespaceName ++ "/" ++ name ++ "?") (some (.object []))
      decodeDeleted).mapFault (Fault.toError Claim.kindName name)
  readPhase u := do return (← readPod exchange u).map Pod.phase
  subscribe := subscribe exchange
  readLogs u :=
    (fetchText exchange .get (logsPath u) none).mapFault (Fault.toError "Pod" u.name)

/-- The project that is described by the secret of its name. -/
def loadProject (exchange : Http.Exchange σ) (namespaceName id : String) :
    Call σ ClusterError Project := do
  let secret ← (fetch exchange .get (secretsPath namespaceName ++ "/" ++ id) none
    Secret.decode).mapFault (Fault.toError "Project" id)
  ExceptT.mk (pure (Project.ofSecret id (secret.data.getD {}) namespaceName))

end ApiServer

end EventWorker
