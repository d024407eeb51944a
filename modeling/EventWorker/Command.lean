import EventWorker.Cluster.Memory
import EventWorker.Command.Arguments
import EventWorker.Command.Console
import EventWorker.Config
import EventWorker.HandlerFile
import EventWorker.Run.Controller

/-!
# Commands

The worker as it is called. A command reads files and settings, shows lines on the console, and ends
with an exit code. A command that cannot do what it is for ends with a report: the chain of causes, the
outermost first.

A run wires the parts together in one of four ways. A dry run keeps its cluster in memory, and every
job in it succeeds. Otherwise jobs are run as pods of the cluster around the worker, which has to be
there; or by the worker API at the address that the event names; or not at all.
-/

namespace EventWorker

/-- What the worker finds around itself. -/
structure Machine where
  file : String → Except FileFault String
  setting : Lookup
  network : Http.Exchange Unit := Http.unreachable
  /-- How patterns for service accounts are read. -/
  patterns : Text.Pattern.Reader := Text.Pattern.ofText?
  /-- How a duration is shown. -/
  clock : Duration → String := Duration.toHundredths

/-- What has become of a command. -/
structure Outcome where
  lines : List Line := []
  code : Nat := 0
  report : Option (List String) := none

namespace Outcome

/-- The outcome after lines that were shown before. -/
def after (lines : List Line) (o : Outcome) : Outcome :=
  { o with lines := lines ++ o.lines }

def broken (causes : List String) : Outcome :=
  { code := 1, report := some causes }

end Outcome

namespace Command

/-- The handlers in a file. -/
def readHandlers (content : Except FileFault String) : Except ConfigError HandlerFile := do
  HandlerFile.parse (← content.mapError .file)

/-- A file that is not there is reported on its own. -/
def withHandlers (m : Machine) (path : String) (body : Except FileFault String → Outcome) :
    Outcome :=
  match m.file path with
  | .error .missing => .broken ["Handler file not found: " ++ path]
  | content => body content

def countText (f : HandlerFile) : String :=
  toString f.handlers.length ++ " handler(s), " ++ toString f.jobCount ++ " job(s)"

def eventText (e : Event) : String :=
  e.source ++ "/" ++ e.type

/-! ## Validating -/

/-- What a file declares, a line for each handler. -/
def declarationLines (f : HandlerFile) : List Line :=
  f.handlers.map fun h => .output
    ("  " ++ h.source ++ "/" ++ h.type ++ ": " ++ h.run.outline (·.name))

/-- Whether the event of a descriptor has a handler. -/
def handlerLine (f : HandlerFile) (e : Event) : Line :=
  if f.handlers.any (·.key == e.key) then
    Console.passed ("Event " ++ eventText e ++ " has a handler")
  else
    Console.warning
      ("No handler for event " ++ eventText e ++ "; the run would only do bookkeeping")

def validateFile (m : Machine) (path : String) (descriptor : Option String) : Outcome :=
  withHandlers m path fun content =>
    Outcome.after [Console.status "Validating" path] <|
      match readHandlers content with
      | .error e => { lines := [Console.error e.message], code := 1 }
      | .ok f =>
        Outcome.after ([Console.passed "YAML syntax valid", Console.passed "Job names valid"] ++
            declarationLines f) <|
          let done : List Line := [.output "", Console.success (countText f)]
          match descriptor.map fun path => Config.ofDescriptor (m.file path) m.setting m.patterns with
          | none => { lines := done }
          | some (.error e) =>
            { lines := [Console.error ("Descriptor: " ++ e.message)], code := 1 }
          | some (.ok config) => { lines := handlerLine f config.event :: done }

/-! ## Running -/

/-- The configuration of a run, or the causes why there is none. -/
def readConfig (m : Machine) (descriptor : Option String) : Except (List String) Config :=
  match descriptor with
  | some path => (Config.ofDescriptor (m.file path) m.setting m.patterns).mapError fun e =>
      ("loading descriptor " ++ path) :: e.chain
  | none => (Config.ofSettings m.setting m.patterns).mapError fun e =>
      "reading worker environment" :: e.chain

/-- The project of the descriptor, or a bare one of the configured name. -/
def inlineProject (c : Config) : Project :=
  c.scope (c.project.getD { id := c.projectId, name := c.projectId })

def watcher (a : RunArguments) : Watcher :=
  if a.streaming then .streaming default
  else .polling ((a.pollSeconds.map Duration.ofSeconds).getD Watcher.defaultInterval)

/-- How a run that is over is shown. A run that is to exit on an error says nothing more after one. -/
def finish (exitOnError : Bool) : Except ControllerError RunReport → Outcome
  | .error e => .broken e.chain
  | .ok r =>
    if r.exitCode = 0 then { lines := [.output "", Console.success "Run completed successfully"] }
    else if exitOnError then { code := r.exitCode }
    else
      { lines := [.output "",
          Console.failure ("Run failed: " ++ r.errorReason.getD "unknown error")]
        code := r.exitCode }

/-- Runs the event of a configuration on a state, and shows the progress of the run. -/
def conduct {σ : Type} (m : Machine) (config : Config) (exitOnError : Bool) (c : Controller σ)
    (state : σ) : Outcome :=
  let (result, scene) := (c.run config.projectId config.event).run { world := .ofCluster state }
  let shown := (scene.past.history.filterMap Entry.progress?).flatMap (Console.progress m.clock)
  Outcome.after
    (Console.header ("Event " ++ eventText config.event ++ " (" ++ config.event.id ++ ")") :: shown)
    (finish exitOnError result)

/-- A dry run: everything happens in memory. -/
def dryRun (config : Config) (w : Watcher) (bus : Bus Handler) : Controller MemoryCluster where
  bus := bus
  load id := Errand.call MemoryCluster.cluster (MemoryCluster.loadProject id)
  storage := .claims MemoryCluster.cluster
    { size := config.buildStorageSize, storageClass := config.buildStorageClass }
  backend := .pods MemoryCluster.cluster config.buildOptions w

/-- A run without a cluster of its own. -/
def detached {σ : Type} (config : Config) (bus : Bus Handler) (backend : Backend σ) :
    Controller σ where
  bus := bus
  load := loadKnown (inlineProject config)
  storage := .none
  backend := backend

/-- The cluster around the worker cannot be made out. -/
def noCluster : ClusterError :=
  .request "Failed to infer configuration"

/-- Runs the handlers of a bus in the way that the arguments say. -/
def dispatch (m : Machine) (a : RunArguments) (config : Config) (bus : Bus Handler) : Outcome :=
  let exitOnError := config.exitOnError || a.exitOnError
  if a.dryRun then
    Outcome.after (if a.mode = .pod then [] else [Console.warning "--dry-run always uses pod mode"]) <|
      conduct m config exitOnError (dryRun config (watcher a) bus)
        (MemoryCluster.succeeding.addProject (inlineProject config))
  else
    match a.mode with
    | .pod => .broken [noCluster.message]
    | .api =>
      match config.event.data.worker.apiAddress with
      | none => .broken ["api mode needs worker.apiAddress in the descriptor"]
      | some address =>
        let api := WorkerApi.ofAddress address config.event.data.worker.apiToken m.network
        conduct m config exitOnError
          (detached config bus (.workerApi api (.streaming default))) ()
    | .idle => conduct m config exitOnError (detached config bus .idle) ()

def runEvent (m : Machine) (a : RunArguments) : Outcome :=
  match readConfig m a.descriptor with
  | .error causes => .broken causes
  | .ok config =>
    withHandlers m a.handlers fun content =>
      Outcome.after [Console.status "Loading" a.handlers] <|
        match readHandlers content with
        | .error e => .broken e.chain
        | .ok f =>
          Outcome.after [Console.info (countText f)]
            (dispatch m a config (f.register Handler.ofStep {}))

/-- The files that a command reads. -/
def files : Command → List String
  | .run a => a.handlers :: a.descriptor.toList
  | .validate path descriptor => path :: descriptor.toList

def perform (m : Machine) : Command → Outcome
  | .run a => runEvent m a
  | .validate path descriptor => validateFile m path descriptor

end Command

/-- The name of the program with its version. -/
def versionText : String :=
  "ferry-worker 0.6.0"

def usageText : String :=
  "Usage: ferry-worker run --handlers <FILE> [OPTIONS]\n" ++
  "       ferry-worker validate <HANDLERS> [--descriptor <FILE>]"

/-- What comes of a command line. -/
def Invocation.perform (m : Machine) : Invocation → Outcome
  | .command c => c.perform m
  | .help => { lines := [.output usageText] }
  | .version => { lines := [.output versionText] }
  | .misuse => { lines := [.message usageText], code := 2 }

end EventWorker
