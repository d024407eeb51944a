import EventWorker.Unit

/-!
# Configuration

What a worker has to know before its event is fired: the event, the project, and the settings that
hold for all units. Settings come by name from a look-up such as the process environment, where a
value is taken without the blanks at its ends and a blank one counts as not given. Event and project
come from settings too (`Config.ofSettings`), or from a descriptor in JSON that holds the fields of
the event with the project among them (`Config.ofDescriptor`). Either way it is for a reader of patterns
to say which texts are patterns for service accounts.
-/

namespace EventWorker

open Decoder

/-- Where settings are looked up, by their full names. -/
abbrev Lookup := String → Option String

namespace Setting

/-- The full name of a setting. -/
def key (name : String) : String :=
  "FERRY_" ++ name

/-- The settings that there are. -/
def names : List String :=
  ["EVENT_ID", "EVENT_SOURCE", "EVENT_TYPE", "COMMIT_ID", "COMMIT_REF", "PAYLOAD", "PROJECT_ID",
    "PROJECT_NAMESPACE", "SERVICE_ACCOUNT", "SERVICE_ACCOUNT_REGEX", "LOG_LEVEL", "LEGACY_NAMING",
    "EXIT_ON_ERROR", "DEFAULT_CACHE_STORAGE_CLASS", "DEFAULT_BUILD_STORAGE_CLASS",
    "BUILD_STORAGE_SIZE"]

def get (lookup : Lookup) (name : String) : Option String :=
  (lookup (key name)).bind Text.trimmed?

def required (lookup : Lookup) (name : String) : Except ConfigError String :=
  match get lookup name with
  | some value => .ok value
  | none => .error (.missing (key name))

/-- A setting that has to be read, if it is given. -/
def parsed {α : Type} (lookup : Lookup) (name : String) (read : String → Option α)
    (complaint : String → String) : Except ConfigError (Option α) :=
  match get lookup name with
  | none => .ok none
  | some value =>
    match read value with
    | some a => .ok (some a)
    | none => .error (.invalid (key name) (complaint value))

def flag? (s : String) : Option Bool :=
  let t := Text.lowerAscii s
  if t = "true" ∨ t = "1" ∨ t = "yes" then some true
  else if t = "false" ∨ t = "0" ∨ t = "no" then some false
  else none

def flag (lookup : Lookup) (name : String) : Except ConfigError (Option Bool) :=
  parsed lookup name flag? fun s => "expected a boolean, got '" ++ s ++ "'"

def pattern (patterns : Text.Pattern.Reader) (lookup : Lookup) (name : String) :
    Except ConfigError (Option Text.Pattern) :=
  parsed lookup name patterns fun s => "not a pattern: " ++ s

def level (lookup : Lookup) (name : String) : Except ConfigError (Option LogLevel) :=
  parsed lookup name LogLevel.parse? fun s => "unknown level '" ++ s ++ "'"

end Setting

structure Config where
  projectId : String
  /-- The namespace that takes the place of the project's own. -/
  projectNamespace : Option String := none
  /-- The project, where it comes with the event. -/
  project : Option Project := none
  /-- It is the project of that identifier. -/
  hasProjectId : ∀ p ∈ project, p.id = projectId := by simp
  event : Event
  serviceAccount : Option String := none
  accountPattern : Option Text.Pattern := none
  cacheStorageClass : Option String := none
  buildStorageClass : Option String := none
  buildStorageSize : String := defaultBuildStorageSize
  logLevel : LogLevel := .info
  legacyNaming : Bool := false
  /-- The process ends with the run's exit code as soon as a failed run is over. -/
  exitOnError : Bool := false

namespace Config

open Setting

/-- Takes over the settings that hold for all units, the invalid one named first that is looked at
first. -/
def apply (c : Config) (patterns : Text.Pattern.Reader) (lookup : Lookup) :
    Except ConfigError Config := do
  let accountPattern ← pattern patterns lookup "SERVICE_ACCOUNT_REGEX"
  let level ← level lookup "LOG_LEVEL"
  let legacy ← flag lookup "LEGACY_NAMING"
  let exits ← flag lookup "EXIT_ON_ERROR"
  return { c with
    projectNamespace := get lookup "PROJECT_NAMESPACE"
    serviceAccount := get lookup "SERVICE_ACCOUNT"
    accountPattern
    cacheStorageClass := get lookup "DEFAULT_CACHE_STORAGE_CLASS"
    buildStorageClass := get lookup "DEFAULT_BUILD_STORAGE_CLASS"
    buildStorageSize := (get lookup "BUILD_STORAGE_SIZE").getD c.buildStorageSize
    logLevel := level.getD c.logLevel
    legacyNaming := legacy.getD c.legacyNaming
    exitOnError := exits.getD c.exitOnError }

/-- The event that the settings describe. -/
def eventOfSettings (lookup : Lookup) : Except ConfigError Event := do
  let id ← required lookup "EVENT_ID"
  let source ← required lookup "EVENT_SOURCE"
  let type ← required lookup "EVENT_TYPE"
  let commit := get lookup "COMMIT_ID"
  let gitRef := get lookup "COMMIT_REF"
  return .primary {
    id, source, type
    payload := get lookup "PAYLOAD"
    revision := if commit.isSome || gitRef.isSome then some { commit, gitRef } else none }

def ofSettings (lookup : Lookup) (patterns : Text.Pattern.Reader := Text.Pattern.ofText?) :
    Except ConfigError Config := do
  let event ← eventOfSettings lookup
  let projectId ← required lookup "PROJECT_ID"
  apply { projectId, event } patterns lookup

/-! ## Descriptors -/

/-- An event and the project that it belongs to. -/
structure Descriptor where
  event : Event
  project : Project

namespace Descriptor

/-- Decodes the project of a descriptor on the way through its fields; the rest of them are set
aside, to be taken for the event afterwards. -/
def split (terms : Terms) : (project : Option Project) → List (Document × Document) →
    Except DecodeError (Option Project × List (Document × Document))
  | project, [] => .ok (project, [])
  | project, (k, v) :: rest => do
    let key ← text terms k
    if key = "project" then
      if project.isSome then .error (.repeated key)
      else do
        let p ← Project.decode terms v
        split terms (some p) rest
    else if Document.isFree terms.levels v then do
      let (project, others) ← split terms project rest
      .ok (project, (k, v) :: others)
    else .error .mismatch

def decode : Decoder Descriptor := fun terms d =>
  match d with
  | .record fields => enter terms fun terms => do
    let (project, others) ← split terms none fields
    match project with
    | none => .error (.missing "project")
    | some project => return ⟨.primary (← Event.shape.ofFields terms others), project⟩
  | d => .error (fault d)

end Descriptor

def ofDescriptor (content : Except FileFault String) (lookup : Lookup)
    (patterns : Text.Pattern.Reader := Text.Pattern.ofText?) : Except ConfigError Config := do
  let s ← content.mapError .file
  let d ← (Decoder.ofJson Descriptor.decode s).mapError .descriptor
  if Text.isBlankText d.project.id then throw (.missing "project.id")
  if Text.isBlankText d.event.id then throw (.missing "id")
  apply {
    projectId := d.project.id
    event := d.event
    project := some d.project
    logLevel := d.event.data.worker.logLevel } patterns lookup

/-- The settings that the units of this worker are built with. -/
def buildOptions (c : Config) : BuildOptions where
  naming := if c.legacyNaming then .time else .run
  serviceAccount := c.serviceAccount
  accountPattern := c.accountPattern
  cacheStorageClass := c.cacheStorageClass
  buildStorageClass := c.buildStorageClass

/-- The project with its namespace replaced, where one is set. -/
def scope (c : Config) (p : Project) : Project :=
  match c.projectNamespace with
  | some namespaceName => { p with namespaceName }
  | none => p

end Config

end EventWorker
