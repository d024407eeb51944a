import EventWorker.Run.Journal
import EventWorker.Text.Lines

/-!
# The console

What a person sees of a command: lines of output, and beside them lines of messages in colour.
-/

namespace EventWorker

inductive Line where
  | output (text : String)
  | message (text : String)
  deriving DecidableEq

namespace Console

/-- Text in a style of the terminal, after which the style is as before. -/
def styled (style text : String) : String :=
  "\x1b[" ++ style ++ "m" ++ text ++ "\x1b[0m"

def marked (style mark text : String) : Line :=
  .message (styled style mark ++ " " ++ text)

/-- An action, aligned to the right, and what it is about. -/
def status (action text : String) : Line :=
  marked "1;36" (String.ofList (List.replicate (12 - action.length) ' ') ++ action) text

def success (text : String) : Line :=
  marked "1;32" "  ✓" text

def failure (text : String) : Line :=
  marked "1;31" "  ✗" text

/-- Something that has been checked. -/
def passed (text : String) : Line :=
  marked "32" "  ✓" text

def warning (text : String) : Line :=
  marked "33" "  !" text

def error (text : String) : Line :=
  marked "1;31" "error:" text

def info (text : String) : Line :=
  marked "36" "  i" text

def header (text : String) : Line :=
  .message (styled "1" ("==> " ++ text))

def dim (text : String) : Line :=
  .message (styled "2" text)

/-- The text of a job's failure, set off from what stands around it. -/
def detail (text : String) : List Line :=
  (Text.lines text).map fun line => .message (styled "31" ("        | " ++ line))

/-- A line about a job. -/
def jobText (job rest : String) : String :=
  "    Job '" ++ job ++ "' " ++ rest

def about (job : Option String) (text : String) : String :=
  match job with
  | some job => "[" ++ job ++ "] " ++ text
  | none => text

/-- What is shown of the progress of a run, given how to write how long a job took. -/
def progress (clock : Duration → String) : Progress → List Line
  | .fired source type => [status "Firing" (source ++ "/" ++ type)]
  | .started job => [.output (jobText job "starting")]
  | .submitted job unit => [dim (jobText job ("submitted as " ++ unit))]
  | .completed job phase took =>
    [.message (styled "32" (jobText job (phase.name ++ " (" ++ clock took ++ ")")))]
  | .failed job text took =>
    .message (styled "31" (jobText job ("FAIL (" ++ clock took ++ ")"))) :: detail text
  | .log .error text job => [error (about job text)]
  | .log .warning text job => [warning (about job text)]
  | .log .info text job => [dim (about job text)]

end Console

end EventWorker
