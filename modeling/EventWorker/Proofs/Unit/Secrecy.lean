import Mathlib.Data.List.Basic
import EventWorker.Config
import EventWorker.Proofs.Table
import EventWorker.Proofs.Unit.Built

/-!
# Secrecy of units

Where literals are carried, the values that a job, an event and a project have to keep secret reach
nothing but the bytes of the unit's secret. What is to be kept secret is told by what is left of an input
when it is redacted (`Job.redact`, `Event.redact`, `Project.redact`): names of variables stay and so does
whether there are tasks, a key and a token, and everything else about them goes.

A unit that is built of redacted inputs is, but for those bytes, the unit that is built of the inputs
themselves (`build_redact`). It is shown for each part by itself. So two inputs of which the same is left
cannot be told apart by anything else than the bytes.

Main statement: `build_discreet`.
-/

namespace EventWorker

/-! ### Redaction -/

/-- Nothing is left of a value that is written out. -/
def EnvValue.redact : EnvValue → EnvValue
  | literal _ => literal ""
  | v => v

def Container.redact (c : Container) : Container :=
  { c with env := c.env.map EnvValue.redact }

/-- Of the tasks it is left whether there are any. -/
def Job.redact (job : Job) : Job :=
  { job with
    container := job.container.redact
    sidecars := job.sidecars.map Container.redact
    tasks := (job.tasks.take 1).map fun _ => "" }

def Event.redact (e : Event) : Event :=
  e.mapData fun d => { d with shortTitle := none, longTitle := none, payload := none, worker := {} }

/-- Of the key and the token it is left whether they are there. -/
def Project.redact (p : Project) : Project :=
  { p with
    secrets := {}
    repo := { p.repo with
      sshKey := p.repo.sshKey.map fun _ => ""
      token := p.repo.token.map fun _ => "" } }

/-- A secret without the bytes that it stores. -/
def Resource.Secret.redact (s : Resource.Secret) : Resource.Secret :=
  { s with data := s.data.map (·.map fun _ => []) }

namespace ExecutionUnit

open Resource

/-- The unit without the bytes that its secret stores. -/
def redact (u : ExecutionUnit) : ExecutionUnit :=
  { u with secret := u.secret.redact }

/-- Units that differ at most in the bytes that their secrets store. -/
structure SameButBytes (u u' : ExecutionUnit) : Prop where
  name : u.name = u'.name
  namespaceName : u.namespaceName = u'.namespaceName
  job : u.job = u'.job
  eventId : u.eventId = u'.eventId
  pod : u.pod = u'.pod
  cacheClaim : u.cacheClaim = u'.cacheClaim
  secretMetadata : u.secret.metadata = u'.secret.metadata
  secretKind : u.secret.kind = u'.secret.kind
  secretKeys : u.secret.data.map Table.keys = u'.secret.data.map Table.keys

theorem SameButBytes.of_redact {u u' : ExecutionUnit} (h : u.redact = u'.redact) :
    u.SameButBytes u' where
  name := (congrArg ExecutionUnit.name h :)
  namespaceName := (congrArg ExecutionUnit.namespaceName h :)
  job := (congrArg ExecutionUnit.job h :)
  eventId := (congrArg ExecutionUnit.eventId h :)
  pod := (congrArg ExecutionUnit.pod h :)
  cacheClaim := (congrArg ExecutionUnit.cacheClaim h :)
  secretMetadata := (congrArg (·.secret.metadata) h :)
  secretKind := (congrArg (·.secret.kind) h :)
  secretKeys := by
    have hkeys : ∀ w : ExecutionUnit,
        w.redact.secret.data.map Table.keys = w.secret.data.map Table.keys := fun w => by
      show (w.secret.data.map (·.map fun _ => [])).map Table.keys = _
      rw [Option.map_map]
      exact congrArg (w.secret.data.map ·) (funext fun t => Table.keys_map _ t)
    rw [← hkeys u, ← hkeys u', h]

/-! ### Environments -/

/-- What the pod says about an environment does not tell its literal values. -/
theorem envVars_redact (carrier : String) (scope : Option String) (env : Table EnvValue) :
    envVars carrier .carried scope (env.map EnvValue.redact) = envVars carrier .carried scope env := by
  have hvar : ∀ name v, envVar carrier .carried scope name (EnvValue.redact v) =
      envVar carrier .carried scope name v := fun name v => by cases v <;> rfl
  simp only [envVars, Table.map, Table.mapWithKey, List.map_map]
  exact List.map_congr_left fun e _ => hvar e.1 e.2

/-- Entries of the secret without their bytes. -/
def blanked (entries : List (String × List UInt8)) : List (String × List UInt8) :=
  entries.map fun e => (e.1, [])

theorem blanked_append (es fs : List (String × List UInt8)) :
    blanked (es ++ fs) = blanked es ++ blanked fs :=
  List.map_append

/-- Nor do the keys of the secret. -/
theorem blanked_carried_redact (scope : Option String) (env : Table EnvValue) :
    blanked (carried .carried scope (env.map EnvValue.redact)) =
      blanked (carried .carried scope env) := by
  simp only [blanked, carried, literals, Table.map, Table.mapWithKey, List.filterMap_map,
    List.map_filterMap]
  refine List.filterMap_congr fun e _ => ?_
  obtain ⟨name, v⟩ := e
  cases v <;> rfl

variable (job : Job) (event : Event) (project : Project) {options : BuildOptions}

theorem id_redact : event.redact.id = event.id := by
  cases event <;> rfl

theorem commit_redact : event.redact.commit = event.commit := by
  cases event <;> rfl

theorem gitRef_redact : event.redact.gitRef = event.gitRef := by
  cases event <;> rfl

/-- The container that fetches the source is given the same variables. -/
theorem map_redact_sourceEnv :
    (sourceEnv job.redact event.redact project.redact).map EnvValue.redact =
      (sourceEnv job event project).map EnvValue.redact := by
  have hurl : project.redact.cloneUrl = project.cloneUrl := rfl
  have hpath : sourcePath job.redact = sourcePath job := rfl
  have hkey : project.redact.repo.sshKey = project.repo.sshKey.map fun _ => "" := rfl
  have htoken : project.redact.repo.token = project.repo.token.map fun _ => "" := rfl
  rw [sourceEnv, sourceEnv, Table.map_ofList, Table.map_ofList]
  congr 1
  simp only [hurl, hpath, hkey, htoken, commit_redact, gitRef_redact, List.map_append]
  cases project.repo.sshKey <;> cases project.repo.token <;> rfl

/-! ### Checks -/

theorem validate_redact : job.redact.validate = job.validate := by
  have hkeys : job.redact.sidecars.keys = job.sidecars.keys := Table.keys_map _ _
  rw [Job.validate, Job.validate, hkeys]
  rfl

theorem checkServiceAccount_redact :
    checkServiceAccount options job.redact = checkServiceAccount options job :=
  rfl

theorem checkDocker_redact : checkDocker job.redact project.redact = checkDocker job project :=
  rfl

theorem unitName_redact (naming : Naming) (now : Int) :
    unitName naming job.redact.name event.redact now = unitName naming job.name event now := by
  have hrun : event.redact.runId = event.runId := id_redact event
  have hname : job.redact.name = job.name := rfl
  unfold unitName
  rw [hname, hrun, commit_redact]

theorem attached_redact (system : List String) :
    attached system job.redact project.redact = attached system job project :=
  attached_congr rfl rfl rfl rfl

/-! ### Parts -/

theorem systemVolumes_redact (unit : String) :
    systemVolumes unit job.redact event.redact project.redact = systemVolumes unit job event project := by
  have hrun : event.redact.runId = event.runId := id_redact event
  rw [systemVolumes, systemVolumes, hrun]
  rfl

theorem unitLabels_redact :
    unitLabels job.redact.name event.redact project.redact = unitLabels job.name event project := by
  have hrun : event.redact.runId = event.runId := id_redact event
  rw [unitLabels, unitLabels, runLabels, runLabels, hrun]
  rfl

theorem unitMetadata_redact (unit : String) :
    unitMetadata unit job.redact event.redact project.redact = unitMetadata unit job event project := by
  rw [unitMetadata, unitMetadata, unitLabels_redact]
  rfl

theorem cacheClaim?_redact :
    cacheClaim? options job.redact event.redact project.redact = cacheClaim? options job event project := by
  rw [cacheClaim?, cacheClaim?, unitLabels_redact]
  rfl

theorem isEmpty_tasks_redact : job.redact.tasks.isEmpty = job.tasks.isEmpty := by
  show ((job.tasks.take 1).map fun _ => "").isEmpty = _
  cases job.tasks <;> rfl

theorem mainContainer_redact (unit : String) (mounts : List VolumeMount) :
    mainContainer unit .carried job.redact project.redact mounts =
      mainContainer unit .carried job project mounts := by
  have henv : envVars unit .carried none job.redact.container.env =
      envVars unit .carried none job.container.env := envVars_redact unit none _
  rw [mainContainer, mainContainer, isEmpty_tasks_redact, henv]
  rfl

theorem sourceContainer_redact (unit : String) :
    sourceContainer unit .carried job.redact event.redact project.redact =
      sourceContainer unit .carried job event project := by
  have henv : envVars unit .carried (some sourceVolume)
        (sourceEnv job.redact event.redact project.redact) =
      envVars unit .carried (some sourceVolume) (sourceEnv job event project) := by
    rw [← envVars_redact, map_redact_sourceEnv, envVars_redact]
  rw [sourceContainer, sourceContainer, henv]
  rfl

theorem sidecarContainer_redact (unit name : String) (c : Container) :
    sidecarContainer unit .carried job.redact project.redact name c.redact =
      sidecarContainer unit .carried job project name c := by
  have henv : envVars unit .carried (some name) c.redact.env = envVars unit .carried (some name) c.env :=
    envVars_redact unit (some name) _
  rw [sidecarContainer, sidecarContainer, henv]
  rfl

theorem unitPod_redact (hmode : options.literals = .carried) (unit : String) (volumes : List Volume) :
    unitPod options unit job.redact event.redact project.redact volumes =
      unitPod options unit job event project volumes := by
  have hsidecars : job.redact.sidecars.entries.map
        (fun e => sidecarContainer unit .carried job.redact project.redact e.1 e.2) =
      job.sidecars.entries.map fun e => sidecarContainer unit .carried job project e.1 e.2 := by
    show (job.sidecars.entries.map fun e => (e.1, e.2.redact)).map _ = _
    rw [List.map_map]
    exact List.map_congr_left fun e _ => sidecarContainer_redact job project unit e.1 e.2
  have hfetches : fetchesSource job.redact project.redact = fetchesSource job project := rfl
  simp only [unitPod, hmode, unitMetadata_redact, systemVolumes_redact, mainContainer_redact,
    sourceContainer_redact, hsidecars, hfetches]
  rfl

/-- The secret has the same keys. -/
theorem blanked_carrierEntries :
    blanked (carrierEntries .carried job.redact event.redact project.redact) =
      blanked (carrierEntries .carried job event project) := by
  have hscript : blanked (if job.redact.tasks.isEmpty then []
        else [(scriptKey, Text.bytesOf (taskScript job.redact.shell job.redact.tasks))]) =
      blanked (if job.tasks.isEmpty then []
        else [(scriptKey, Text.bytesOf (taskScript job.shell job.tasks))]) := by
    rw [isEmpty_tasks_redact]
    cases job.tasks.isEmpty <;> rfl
  have hmain : blanked (carried .carried none job.redact.container.env) =
      blanked (carried .carried none job.container.env) := blanked_carried_redact none _
  have hsource : blanked (if fetchesSource job.redact project.redact then
          carried .carried (some sourceVolume) (sourceEnv job.redact event.redact project.redact)
        else []) =
      blanked (if fetchesSource job project then
          carried .carried (some sourceVolume) (sourceEnv job event project) else []) := by
    have hfetches : fetchesSource job.redact project.redact = fetchesSource job project := rfl
    rw [hfetches]
    cases fetchesSource job project with
    | false => rfl
    | true =>
      simp only [if_true]
      rw [← blanked_carried_redact, map_redact_sourceEnv, blanked_carried_redact]
  have hsidecars : blanked (job.redact.sidecars.entries.flatMap
        fun e => carried .carried (some e.1) e.2.env) =
      blanked (job.sidecars.entries.flatMap fun e => carried .carried (some e.1) e.2.env) := by
    show blanked ((job.sidecars.entries.map fun e => (e.1, e.2.redact)).flatMap _) = _
    simp only [blanked, List.flatMap_map, List.map_flatMap]
    exact List.flatMap_congr fun e _ => blanked_carried_redact (some e.1) e.2.env
  simp only [carrierEntries, blanked_append, hscript, hmain, hsource, hsidecars]

theorem unitSecret_redact (unit : String) :
    (unitSecret unit .carried job.redact event.redact project.redact).redact =
      (unitSecret unit .carried job event project).redact := by
  have hdata : (Table.ofList (carrierEntries .carried job.redact event.redact project.redact)).map
        (fun _ => ([] : List UInt8)) =
      (Table.ofList (carrierEntries .carried job event project)).map fun _ => ([] : List UInt8) := by
    rw [Table.map_ofList, Table.map_ofList]
    exact congrArg Table.ofList (blanked_carrierEntries job event project)
  simp only [unitSecret, Secret.redact, unitMetadata_redact, Option.map_some, hdata]

/-! ### Units -/

/-- **A unit that is built of redacted inputs** is the unit that is built of the inputs, but for the
bytes that its secret stores. -/
theorem build_redact (hmode : options.literals = .carried) (now : Int) :
    (build options job.redact event.redact project.redact now).map redact =
      (build options job event project now).map redact := by
  have hname := unitName_redact job event options.naming now
  simp only [build, validate_redact, checkServiceAccount_redact, checkDocker_redact, hname,
    systemVolumes_redact, attached_redact]
  -- both fail in the same check, if any
  cases job.validate with
  | error e => rfl
  | ok _ =>
    cases checkServiceAccount options job with
    | error e => rfl
    | ok _ =>
      cases checkDocker job project with
      | error e => rfl
      | ok _ =>
        cases attached ((systemVolumes (unitName options.naming job.name event now) job event
          project).map fun m => m.volume.name) job project with
        | error e => rfl
        | ok volumes =>
          refine congrArg Except.ok ?_
          simp only [redact, hmode, unitSecret_redact, unitPod_redact job event project hmode,
            cacheClaim?_redact, id_redact]
          rfl

/-- The settings of a worker have literals carried. -/
theorem literals_buildOptions (c : Config) : c.buildOptions.literals = .carried :=
  rfl

variable {job event project} {job' : Job} {event' : Event} {project' : Project}

/-- **Where literals are carried, secrets reach nothing but the bytes of the secret.** If inputs differ
in nothing that is left of them when they are redacted, then there is a unit of both or of neither, for
the same reason, and the units differ at most in these bytes. -/
theorem build_discreet (hmode : options.literals = .carried) (hjob : job.redact = job'.redact)
    (hevent : event.redact = event'.redact) (hproject : project.redact = project'.redact) (now : Int) :
    (∃ e, build options job event project now = .error e ∧
      build options job' event' project' now = .error e) ∨
    ∃ u u', build options job event project now = .ok u ∧
      build options job' event' project' now = .ok u' ∧ u.SameButBytes u' := by
  have hsame : (build options job event project now).map redact =
      (build options job' event' project' now).map redact := by
    rw [← build_redact job event project hmode, hjob, hevent, hproject, build_redact _ _ _ hmode]
  cases hbuild : build options job event project now with
  | error e =>
    cases hbuild' : build options job' event' project' now with
    | error e' =>
      rw [hbuild, hbuild'] at hsame
      obtain rfl : e = e' := Except.error.inj hsame
      exact Or.inl ⟨e, rfl, rfl⟩
    | ok u' =>
      rw [hbuild, hbuild'] at hsame
      cases hsame
  | ok u =>
    cases hbuild' : build options job' event' project' now with
    | error e' =>
      rw [hbuild, hbuild'] at hsame
      cases hsame
    | ok u' =>
      rw [hbuild, hbuild'] at hsame
      exact Or.inr ⟨u, u', rfl, rfl, .of_redact (Except.ok.inj hsame)⟩

/-! ### Units that keep something secret -/

/-- A job with tasks, and with a value of its own and one of a sidecar to be kept secret. -/
def guarded (value task : String) : Job where
  name := "build"
  container := {
    image := "alpine"
    env := .ofList [("PASSWORD", .literal value), ("USER", .secretRef "registry" "user")] }
  tasks := [task]
  sidecars := .ofList [("db", { image := "postgres", env := .ofList [("PASSWORD", .literal value)] })]

def guardedEvent (payload : String) : Event :=
  (Event.new "run1" "github" "push").withPayload payload

def guardedProject (key : String) : Project where
  id := "p1"
  name := "org/repo"
  repo := { cloneUrl := some "https://git.example/org/repo.git", sshKey := some key }

def guardedConfig : Config where
  projectId := "p1"
  event := guardedEvent ""

/-- Nothing of it can be told from the units. -/
theorem discreet_guarded :
    ∃ u u',
      build guardedConfig.buildOptions (guarded "swordfish" "make") (guardedEvent "one")
        (guardedProject "key1") 0 = .ok u ∧
      build guardedConfig.buildOptions (guarded "tuna" "make all") (guardedEvent "two")
        (guardedProject "key2") 0 = .ok u' ∧
      u.SameButBytes u' := by
  have hmode := literals_buildOptions guardedConfig
  have hjob : (guarded "swordfish" "make").redact = (guarded "tuna" "make all").redact := rfl
  have hevent : (guardedEvent "one").redact = (guardedEvent "two").redact := rfl
  have hproject : (guardedProject "key1").redact = (guardedProject "key2").redact := rfl
  have hok : (build guardedConfig.buildOptions (guarded "swordfish" "make") (guardedEvent "one")
      (guardedProject "key1") 0).isOk = true := by decide +kernel
  rcases build_discreet hmode hjob hevent hproject 0 with ⟨e, he, -⟩ | hunits
  · rw [he] at hok
    cases hok
  · exact hunits

end ExecutionUnit

end EventWorker
