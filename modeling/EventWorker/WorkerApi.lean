import EventWorker.Cluster
import EventWorker.Http
import EventWorker.Http.Url
import EventWorker.WorkerApi.JobRequest
import EventWorker.WorkerApi.LogLines
import EventWorker.WorkerApi.StatusFeed

/-!
# The worker API

A server that owns the cluster on behalf of the worker. It is asked to run a job, to tell the phases of
the unit that comes of it, and to give the unit's log. All its addresses name the event that the job
belongs to. An answer other than success is an error with the status and the body in its text.
-/

namespace EventWorker

structure WorkerApi (σ : Type) where
  /-- The base of all addresses, without a slash at its end. -/
  base : String
  token : Option String
  exchange : Http.Exchange σ

namespace WorkerApi

variable {σ : Type}

/-- The API at an address, which may end with slashes. -/
def ofAddress (address : String) (token : Option String) (exchange : Http.Exchange σ) :
    WorkerApi σ where
  base := String.ofList (address.toList.reverse.dropWhile (· = '/')).reverse
  token := token
  exchange := exchange

/-! ## Addresses -/

def eventUrl (api : WorkerApi σ) (eventId : String) : String :=
  api.base ++ "/v2/events/" ++ eventId

def jobsUrl (api : WorkerApi σ) (eventId : String) : String :=
  api.eventUrl eventId ++ "/worker/jobs"

def statusUrl (api : WorkerApi σ) (u : UnitRef) : String :=
  api.jobsUrl u.eventId ++ "/" ++ u.job ++ "/status?watch=true"

def logsUrl (api : WorkerApi σ) (u : UnitRef) : String :=
  api.eventUrl u.eventId ++ "/logs?job=" ++ u.job ++ "&container=" ++ u.job ++ "&follow=false"

/-! ## Requests -/

/-- A character that a header may hold. -/
def fitsHeader (c : Char) : Bool :=
  (0x20 ≤ c.toNat && c.toNat != 0x7F) || c = '\t'

/-- Sends a request on behalf of whoever holds the token. -/
def send (api : WorkerApi σ) (method : Http.Method) (url : String) (body : Option Document) :
    Call σ Http.Fault Http.Response :=
  if Url.isUsable url && (api.token.getD "").toList.all fitsHeader then
    ExceptT.mk (api.exchange {
      method, body, target := url, authorization := api.token.map ("Bearer " ++ ·) })
  else throw .malformed

/-- Whether a response is a success; if not, its status tells the error. -/
def check (r : Http.Response) (job : String) : Except ClusterError Unit :=
  if r.isSuccess then .ok ()
  else if r.status = 404 then .error (.notFound "Job" job)
  else
    let body := if r.complete then Text.decodeLossy r.body else ""
    let reason := "API error (" ++ Http.statusText r.status ++ "): " ++ body
    .error (if r.isClientError then .rejected reason else .request reason)

def createJob (api : WorkerApi σ) (eventId : String) (job : Job) : Call σ ClusterError Unit := do
  let r ← (api.send .post (api.jobsUrl eventId) (JobRequest.ofJob job).toDocument).mapFault
    (ClusterError.request ·.message)
  ExceptT.mk (pure (check r job.name))

/-- The chunks that a body comes in. -/
def chunksOf (r : Http.Response) : List (Except String (List UInt8)) :=
  .ok r.body :: if r.complete then [] else [.error Http.Fault.brokenBody.message]

def subscribe (api : WorkerApi σ) (u : UnitRef) : Call σ ClusterError Feed := do
  let r ← (api.send .get (api.statusUrl u) none).mapFault (ClusterError.stream ·.message)
  ExceptT.mk (pure (check r u.job))
  return { items := (StatusFeed.items (chunksOf r)).map ((0, ·)) }

def readLogs (api : WorkerApi σ) (u : UnitRef) : Call σ ClusterError String := do
  let r ← (api.send .get (api.logsUrl u) none).mapFault (ClusterError.request ·.message)
  ExceptT.mk (pure (check r u.job))
  if r.complete then return LogLines.read (Text.decodeLossy r.body)
  else throw (.request Http.Fault.brokenBody.message)

/-- The API as a place to watch units. It cannot be read, only subscribed to. -/
def source (api : WorkerApi σ) : Source σ where
  read _ := return { result := .ok none }
  subscribe u := (api.subscribe u).run
  logs u := (api.readLogs u).run

end WorkerApi

end EventWorker
