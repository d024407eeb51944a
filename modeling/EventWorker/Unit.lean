import EventWorker.Naming
import EventWorker.Resource.Secret
import EventWorker.Text.Pattern
import EventWorker.Unit.Carrier
import EventWorker.Unit.Script
import EventWorker.UnitRef

/-!
# Execution units

An execution unit is all that is submitted for one job: a secret that carries credentials and the
task script, a pod, and a claim of a cache volume where the job wants one. `ExecutionUnit.build`
makes it from the job, the event and the project, or says why the job cannot be run.

The pod's volumes are the system volumes that the job's own switches call for (`systemVolumes`) and
after them the declared volumes that its mounts name (`attached`). A declared volume cannot take the
place of a system volume, and is not attached unless something mounts it.
-/

namespace EventWorker

open Resource

/-- Settings that hold for all units of a worker. -/
structure BuildOptions where
  naming : Naming := .run
  literals : LiteralMode := .carried
  serviceAccount : Option String := none
  /-- What the name of a service account has to match. -/
  accountPattern : Option Text.Pattern := none
  cacheStorageClass : Option String := none
  buildStorageClass : Option String := none
  deriving Inhabited

structure ExecutionUnit where
  name : String
  namespaceName : String
  job : String
  eventId : String
  secret : Secret
  pod : Pod
  cacheClaim : Option Claim

namespace ExecutionUnit

def ref (u : ExecutionUnit) : UnitRef :=
  ⟨u.namespaceName, u.name, u.job, u.eventId⟩

/-! ## Fixed names -/

def hookVolume : String := "hook"
def hookPath : String := "/hook"
def scriptKey : String := "main.sh"
def sourceVolume : String := "vcs-sidecar"
def defaultSourcePath : String := "/src"
def cacheVolume : String := "build-cache"
def buildVolume : String := "build-storage"
def dockerVolume : String := "docker-socket"
def dockerSocketPath : String := "/var/run/docker.sock"
def defaultServiceAccount : String := "ferry-worker"

/-! ## What a job asks for -/

/-- The service account that a job runs under. -/
def serviceAccount (options : BuildOptions) (job : Job) : String :=
  (job.serviceAccount.or options.serviceAccount).getD defaultServiceAccount

def checkServiceAccount (options : BuildOptions) (job : Job) : Except BuildError Unit :=
  let account := serviceAccount options job
  match options.accountPattern with
  | some pattern =>
    if pattern.isIn account then .ok ()
    else .error (.serviceAccountRejected job.name account pattern.text)
  | none => .ok ()

def checkDocker (job : Job) (project : Project) : Except BuildError Unit :=
  if job.docker && !project.allowHostMounts then
    .error (.hostMountDisallowed job.name dockerVolume)
  else .ok ()

/-- The path of the source in the first container. -/
def sourcePath (job : Job) : String :=
  job.container.sourceMountPath.getD defaultSourcePath

/-- The source is fetched before the job starts. -/
def fetchesSource (job : Job) (project : Project) : Bool :=
  job.useSource && project.cloneUrl.isSome

/-! ## Volumes -/

/-- A volume with the place where the first container mounts it. -/
structure Mounted where
  volume : Volume
  path : String
  readOnly : Option Bool := none

def Mounted.mount (m : Mounted) : VolumeMount :=
  { name := m.volume.name, mountPath := m.path, readOnly := m.readOnly }

def claimVolume (name claim : String) : Volume :=
  { name, claim := some { claimName := claim } }

def ifSo (b : Bool) (m : Mounted) : List Mounted :=
  if b then [m] else []

/-- The volumes that the job's own switches call for. -/
def systemVolumes (unit : String) (job : Job) (event : Event) (project : Project) : List Mounted :=
  [⟨{ name := hookVolume, secret := some { name := some unit } }, hookPath, some true⟩] ++
  ifSo (fetchesSource job project)
    ⟨{ name := sourceVolume, emptyDir := some {} }, sourcePath job, none⟩ ++
  ifSo job.cache.enabled
    ⟨claimVolume cacheVolume (cacheVolumeName project.name job.name), job.cache.path, none⟩ ++
  ifSo job.storage.enabled
    ⟨claimVolume buildVolume (buildVolumeName event.runId), job.storage.path, none⟩ ++
  ifSo job.docker
    ⟨{ name := dockerVolume, hostPath := some { path := dockerSocketPath } }, dockerSocketPath, none⟩

/-- The declared volume that a mount names, and none where it names a system volume. -/
def resolve (system : List String) (job : Job) (project : Project) (mount : VolumeMount) :
    Except BuildError (Option Volume) :=
  if system.contains mount.name then .ok none
  else
    match job.volumes.find? fun v => v.name == mount.name with
    | none => .error (.unmatchedVolumeMount job.name mount.name)
    | some volume =>
      if volume.hostPath.isSome && !project.allowHostMounts then
        .error (.hostMountDisallowed job.name volume.name)
      else .ok (some volume)

def resolveAll (system : List String) (job : Job) (project : Project) :
    List VolumeMount → Except BuildError (List Volume)
  | [] => .ok []
  | mount :: mounts => do
    let volume ← resolve system job project mount
    let volumes ← resolveAll system job project mounts
    .ok (volume.toList ++ volumes)

/-- Of volumes of one name the first. -/
def firstOfEach : List Volume → List Volume
  | [] => []
  | v :: vs => v :: (firstOfEach vs).filter fun w => w.name != v.name

/-- The declared volumes that the job's mounts name, in the order in which they are first named. -/
def attached (system : List String) (job : Job) (project : Project) :
    Except BuildError (List Volume) :=
  firstOfEach <$> resolveAll system job project job.volumeMounts

/-! ## Containers -/

def unlessEmpty {α : Type} : List α → Option (List α)
  | [] => none
  | items => some items

def amounts (spec : ResourceSpec) : Option (Table String) :=
  let t : Table String := .ofList ((spec.cpu.map (("cpu", ·))).toList ++
    (spec.memory.map (("memory", ·))).toList)
  if t.isEmpty then none else some t

def quantities (requests limits : ResourceSpec) : Option Quantities :=
  if requests.isEmpty && limits.isEmpty then none
  else some { requests := amounts requests, limits := amounts limits }

/-- The privilege of a container that asks for it: it is granted if job and project agree. -/
def privilege (asked : Bool) (job : Job) (project : Project) : Option Bool :=
  if asked then some (job.privileged && project.allowPrivilegedJobs) else none

/-- The environment of the container that fetches the source. -/
def sourceEnv (job : Job) (event : Event) (project : Project) : Table EnvValue :=
  let given (name : String) (value : Option String) : List (String × EnvValue) :=
    (value.map fun v => (name, EnvValue.literal v)).toList
  .ofList (given "FERRY_REPO_URL" project.cloneUrl ++ given "FERRY_COMMIT" event.commit ++
    given "FERRY_REF" event.gitRef ++ given "FERRY_SOURCE_PATH" (some (sourcePath job)) ++
    given "FERRY_SSH_KEY" project.repo.sshKey ++ given "FERRY_REPO_TOKEN" project.repo.token)

def sourceMount (job : Job) : VolumeMount :=
  { name := sourceVolume, mountPath := sourcePath job }

def sourceContainer (unit : String) (mode : LiteralMode) (job : Job) (event : Event)
    (project : Project) : PodContainer where
  name := sourceVolume
  image := some project.sidecar.image
  imagePullPolicy := some ImagePullPolicy.ifNotPresent.name
  env := unlessEmpty (envVars unit mode (some sourceVolume) (sourceEnv job event project))
  volumeMounts := some [sourceMount job]
  resources := quantities project.sidecar.requests project.sidecar.limits

/-- The container that runs the job: its tasks if it has any, or else what it declares. -/
def mainContainer (unit : String) (mode : LiteralMode) (job : Job) (project : Project)
    (mounts : List VolumeMount) : PodContainer where
  name := job.name
  image := some job.container.image
  imagePullPolicy := some job.container.imagePullPolicy.name
  command :=
    if job.tasks.isEmpty then unlessEmpty job.container.command
    else some [job.shell, hookPath ++ "/" ++ scriptKey]
  args := if job.tasks.isEmpty then unlessEmpty job.container.args else none
  env := unlessEmpty (envVars unit mode none job.container.env)
  workingDir := job.container.workingDirectory
  volumeMounts := some mounts
  privileged := privilege (job.privileged || job.container.privileged) job project
  resources := quantities job.resources.requests job.resources.limits

def sidecarContainer (unit : String) (mode : LiteralMode) (job : Job) (project : Project)
    (name : String) (c : Container) : PodContainer where
  name
  image := some c.image
  imagePullPolicy := some c.imagePullPolicy.name
  command := unlessEmpty c.command
  args := unlessEmpty c.args
  env := unlessEmpty (envVars unit mode (some name) c.env)
  workingDir := c.workingDirectory
  volumeMounts := if fetchesSource job project then some [sourceMount job] else none
  privileged := privilege c.privileged job project

/-! ## The parts of a unit -/

/-- Everything that the secret carries, in the order in which it is put there. -/
def carrierEntries (mode : LiteralMode) (job : Job) (event : Event) (project : Project) :
    List (String × List UInt8) :=
  (if job.tasks.isEmpty then []
    else [(scriptKey, Text.bytesOf (taskScript job.shell job.tasks))]) ++
  carried mode none job.container.env ++
  (if fetchesSource job project then carried mode (some sourceVolume) (sourceEnv job event project)
    else []) ++
  job.sidecars.entries.flatMap fun (name, c) => carried mode (some name) c.env

def unitMetadata (unit : String) (job : Job) (event : Event) (project : Project) : Metadata where
  name := some unit
  namespaceName := some project.namespaceName
  labels := some (unitLabels job.name event project)

def unitSecret (unit : String) (mode : LiteralMode) (job : Job) (event : Event)
    (project : Project) : Secret where
  metadata := unitMetadata unit job event project
  kind := some "Opaque"
  data := some (.ofList (carrierEntries mode job event project))

def nodeSelector (host : HostSpec) : Option (Table String) :=
  let t := match host.os with
    | some os => host.nodeSelector.insert "kubernetes.io/os" os
    | none => host.nodeSelector
  if t.isEmpty then none else some t

def unitPod (options : BuildOptions) (unit : String) (job : Job) (event : Event)
    (project : Project) (volumes : List Volume) : Pod where
  metadata := unitMetadata unit job event project
  spec :=
    let system := systemVolumes unit job event project
    some {
      containers :=
        mainContainer unit options.literals job project
          (system.map Mounted.mount ++ job.volumeMounts) ::
        job.sidecars.entries.map fun (name, c) =>
          sidecarContainer unit options.literals job project name c
      initContainers :=
        if fetchesSource job project then
          some [sourceContainer unit options.literals job event project]
        else none
      volumes := some (system.map Mounted.volume ++ volumes)
      restartPolicy := some "Never"
      serviceAccountName := some (serviceAccount options job)
      nodeName := job.host.nodeName
      nodeSelector := nodeSelector job.host
      imagePullSecrets := unlessEmpty job.imagePullSecrets }

/-- The claim of the job's cache volume, where it wants one. -/
def cacheClaim? (options : BuildOptions) (job : Job) (event : Event) (project : Project) :
    Option Claim :=
  if job.cache.enabled then
    some (sharedClaim (cacheVolumeName project.name job.name) project.namespaceName job.cache.size
      (storageClass? [job.cache.storageClass, project.cacheStorageClass,
        options.cacheStorageClass])
      (unitLabels job.name event project))
  else none

/-- The unit of a job, built at a time in milliseconds. -/
def build (options : BuildOptions) (job : Job) (event : Event) (project : Project) (now : Int) :
    Except BuildError ExecutionUnit := do
  job.validate
  checkServiceAccount options job
  checkDocker job project
  let name := unitName options.naming job.name event now
  let system := (systemVolumes name job event project).map fun m => m.volume.name
  let volumes ← attached system job project
  return {
    name
    namespaceName := project.namespaceName
    job := job.name
    eventId := event.id
    secret := unitSecret name options.literals job event project
    pod := unitPod options name job event project volumes
    cacheClaim := cacheClaim? options job event project }

end ExecutionUnit

end EventWorker
