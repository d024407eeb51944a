import EventWorker.Document

/-!
# Requests and responses

What two programs say to each other over HTTP, as far as the worker needs it. An `Exchange` is
whatever carries requests out and brings responses in: it acts on a state of its own, and it may bring
in nothing at all. Every answer that arrives is a response, whatever its status.

`Server` is a state for an exchange that is scripted: it gives its responses one after another, and
keeps the requests that it was sent.
-/

namespace EventWorker

namespace Http

inductive Method where
  | get
  | post
  | delete
  deriving DecidableEq

def Method.name : Method → String
  | get => "GET"
  | post => "POST"
  | delete => "DELETE"

structure Request where
  method : Method
  /-- The address that is asked: a path with a query, in front of which a whole base may stand. -/
  target : String
  /-- The value of the header that says who asks. -/
  authorization : Option String := none
  body : Option Document := none

structure Response where
  status : Nat
  body : List UInt8 := []
  /-- The connection did not end before the announced length of the body. -/
  complete : Bool := true
  deriving DecidableEq

namespace Response

def isSuccess (r : Response) : Bool :=
  200 ≤ r.status && r.status < 300

def isClientError (r : Response) : Bool :=
  400 ≤ r.status && r.status < 500

/-- An error of either side. -/
def isError (r : Response) : Bool :=
  400 ≤ r.status && r.status < 600

end Response

/-- Why there is no response, or not all of one. -/
inductive Fault where
  /-- Nothing can be sent that says what the request should say. -/
  | malformed
  /-- The request did not arrive. -/
  | unreachable
  /-- The body breaks off. -/
  | brokenBody
  deriving DecidableEq

def Fault.message : Fault → String
  | malformed => "builder error"
  | unreachable => "error sending request"
  | brokenBody => "error decoding response body"

abbrev Exchange (σ : Type) :=
  Request → StateM σ (Except Fault Response)

/-- Nothing ever arrives. -/
def unreachable {σ : Type} : Exchange σ :=
  fun _ => return .error .unreachable

/-! ## Scripted servers -/

structure Server where
  responses : List Response := []
  /-- The requests so far, in order. -/
  requests : List Request := []

namespace Server

/-- The next response; when there are none left, an error without a word. -/
def exchange : Exchange Server := fun r s =>
  let asked := s.requests ++ [r]
  match s.responses with
  | [] => (.ok { status := 500 }, { s with requests := asked })
  | answer :: rest => (.ok answer, { responses := rest, requests := asked })

end Server

/-! ## Status codes -/

/-- The usual name of a status. -/
def reason? : Nat → Option String
  | 100 => "Continue"
  | 101 => "Switching Protocols"
  | 102 => "Processing"
  | 200 => "OK"
  | 201 => "Created"
  | 202 => "Accepted"
  | 203 => "Non Authoritative Information"
  | 204 => "No Content"
  | 205 => "Reset Content"
  | 206 => "Partial Content"
  | 207 => "Multi-Status"
  | 208 => "Already Reported"
  | 226 => "IM Used"
  | 300 => "Multiple Choices"
  | 301 => "Moved Permanently"
  | 302 => "Found"
  | 303 => "See Other"
  | 304 => "Not Modified"
  | 305 => "Use Proxy"
  | 307 => "Temporary Redirect"
  | 308 => "Permanent Redirect"
  | 400 => "Bad Request"
  | 401 => "Unauthorized"
  | 402 => "Payment Required"
  | 403 => "Forbidden"
  | 404 => "Not Found"
  | 405 => "Method Not Allowed"
  | 406 => "Not Acceptable"
  | 407 => "Proxy Authentication Required"
  | 408 => "Request Timeout"
  | 409 => "Conflict"
  | 410 => "Gone"
  | 411 => "Length Required"
  | 412 => "Precondition Failed"
  | 413 => "Payload Too Large"
  | 414 => "URI Too Long"
  | 415 => "Unsupported Media Type"
  | 416 => "Range Not Satisfiable"
  | 417 => "Expectation Failed"
  | 418 => "I'm a teapot"
  | 421 => "Misdirected Request"
  | 422 => "Unprocessable Entity"
  | 423 => "Locked"
  | 424 => "Failed Dependency"
  | 426 => "Upgrade Required"
  | 428 => "Precondition Required"
  | 429 => "Too Many Requests"
  | 431 => "Request Header Fields Too Large"
  | 451 => "Unavailable For Legal Reasons"
  | 500 => "Internal Server Error"
  | 501 => "Not Implemented"
  | 502 => "Bad Gateway"
  | 503 => "Service Unavailable"
  | 504 => "Gateway Timeout"
  | 505 => "HTTP Version Not Supported"
  | 506 => "Variant Also Negotiates"
  | 507 => "Insufficient Storage"
  | 508 => "Loop Detected"
  | 510 => "Not Extended"
  | 511 => "Network Authentication Required"
  | _ => none

/-- A status as a message gives it. -/
def statusText (status : Nat) : String :=
  toString status ++ " " ++ (reason? status).getD "<unknown status code>"

end Http

end EventWorker
