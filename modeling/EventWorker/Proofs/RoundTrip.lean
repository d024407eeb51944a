import EventWorker.Event
import EventWorker.Project
import EventWorker.Proofs.Job.Spelling
import EventWorker.Proofs.Resource.Volume

/-!
# Writing a model and reading it again

A job, a project or an event without a cause is decoded from the JSON text that it is written as, and comes
out the same. Nothing is lost of a job whose timeout is a whole number of seconds, since every other field
is written in full; of its volumes and mounts it only has to be known that the same holds of them
(`Codec.Faithful`), as it does of those that the worker has. The secrets of a project and the configuration
files of an event are written in whatever order they come, and the order makes no difference.

What has been decoded in the first place, from whatever text in either format, has nothing that could be
lost: written and read again, it is the same from then on.

Main statement: `decode_toJson`.
-/

namespace EventWorker

open Document Decoder

variable {levels : Nat}

/-- A record with another value of one of its fields. -/
def Document.withField (d : Document) (name : String) (value : Document) : Document :=
  match d with
  | .record fields => .record (fields.map fun
      | (.text k, v) => (.text k, if k = name then value else v)
      | f => f)
  | d => d

/-! ### Projects -/

theorem Repository.spells (r : Repository) : Spells Repository.decode (levels + 1) r.toDocument r :=
  .object ⟨by decide, by decide⟩ rfl <|
    .field _ (.textOrNull r.cloneUrl) (fun _ => rfl) <|
    .field _ (.textOrNull r.sshKey) (fun _ => rfl) <|
    .field _ (.textOrNull r.token) (fun _ => rfl) <|
    .nil _

theorem SidecarConfig.spells (s : SidecarConfig) :
    Spells SidecarConfig.decode (levels + 2) s.toDocument s :=
  .object ⟨by decide, by decide⟩ rfl <|
    .field _ (.text s.image) (fun _ => rfl) <|
    .field _ s.requests.spells (fun _ => rfl) <|
    .field _ s.limits.spells (fun _ => rfl) <|
    .nil _

/-- What a project is written as when its secrets come in some order. -/
def Project.written (p : Project) (secrets : List (String × String)) : Document :=
  p.toDocument.withField "secrets" (.object (secrets.map fun e => (e.1, .text e.2)))

theorem Project.written_own (p : Project) : p.written p.secrets.entries = p.toDocument :=
  rfl

/-- **A project is spelled by what it is written as.** -/
theorem Project.spells {p : Project} {secrets : List (String × String)}
    (horder : secrets.Perm p.secrets.entries) :
    Spells Project.decode (levels + 3) (p.written secrets) p := by
  have hwritten : p.written secrets = .object [("id", .text p.id), ("name", .text p.name),
      ("namespace", .text p.namespaceName),
      ("secrets", .object (secrets.map fun e => (e.1, .text e.2))), ("repo", p.repo.toDocument),
      ("sidecar", p.sidecar.toDocument), ("cacheStorageClass", .textOrNull p.cacheStorageClass),
      ("buildStorageClass", .textOrNull p.buildStorageClass),
      ("allowPrivilegedJobs", .bool p.allowPrivilegedJobs),
      ("allowHostMounts", .bool p.allowHostMounts)] := rfl
  rw [hwritten]
  exact .object ⟨by decide, by decide⟩ rfl <|
    .field _ (.text p.id) (fun _ => rfl) <|
    .field _ (.text p.name) (fun _ => rfl) <|
    .field _ (.text p.namespaceName) (fun _ => rfl) <|
    .field _ (.tableOf horder fun e _ => .text e.2) (fun _ => rfl) <|
    .field _ p.repo.spells (fun _ => rfl) <|
    .field _ p.sidecar.spells (fun _ => rfl) <|
    .field _ (.textOrNull p.cacheStorageClass) (fun _ => rfl) <|
    .field _ (.textOrNull p.buildStorageClass) (fun _ => rfl) <|
    .field _ (.flag p.allowPrivilegedJobs) (fun _ => rfl) <|
    .field _ (.flag p.allowHostMounts) (fun _ => rfl) <|
    .nil _

/-! ### Events -/

theorem Revision.spells (r : Revision) : Spells Revision.decode (levels + 1) r.toDocument r :=
  .object ⟨by decide, by decide⟩ rfl <|
    .field _ (.textOrNull r.commit) (fun _ => rfl) <|
    .field _ (.textOrNull r.gitRef) (fun _ => rfl) <|
    .nil _

/-- What is said about a worker when its configuration files come in some order. -/
def Worker.written (w : Worker) (files : List (String × String)) : Document :=
  w.toDocument.withField "defaultConfigFiles" (.object (files.map fun e => (e.1, .text e.2)))

theorem Worker.spells {w : Worker} {files : List (String × String)}
    (horder : files.Perm w.defaultConfigFiles.entries) :
    Spells Worker.decode (levels + 2) (w.written files) w := by
  have hwritten : w.written files = .object [("apiAddress", .textOrNull w.apiAddress),
      ("apiToken", .textOrNull w.apiToken), ("configFilesDirectory", .text w.configFilesDirectory),
      ("defaultConfigFiles", .object (files.map fun e => (e.1, .text e.2))),
      ("logLevel", .text w.logLevel.filter)] := rfl
  rw [hwritten]
  exact .object ⟨by decide, by decide⟩ rfl <|
    .field _ (.textOrNull w.apiAddress) (fun _ => rfl) <|
    .field _ (.textOrNull w.apiToken) (fun _ => rfl) <|
    .field _ (.text w.configFilesDirectory) (fun _ => rfl) <|
    .field _ (.tableOf horder fun e _ => .text e.2) (fun _ => rfl) <|
    .field _ (.oneOf w.logLevel.ofName?_filter) (fun _ => rfl) <|
    .nil _

/-- What an event is written as when the configuration files of its worker come in some order. -/
def EventData.written (e : EventData) (files : List (String × String)) : Document :=
  (Event.primary e).toDocument.withField "worker" (e.worker.written files)

theorem EventData.written_own (e : EventData) :
    e.written e.worker.defaultConfigFiles.entries = (Event.primary e).toDocument :=
  rfl

theorem EventData.spells {e : EventData} {files : List (String × String)}
    (horder : files.Perm e.worker.defaultConfigFiles.entries) :
    Spells Event.shape.decode (levels + 3) (e.written files) e := by
  have hwritten : e.written files = .object [("id", .text e.id), ("source", .text e.source),
      ("type", .text e.type), ("shortTitle", .textOrNull e.shortTitle),
      ("longTitle", .textOrNull e.longTitle), ("payload", .textOrNull e.payload),
      ("revision", (e.revision.map Revision.toDocument).getD .null),
      ("worker", e.worker.written files)] := rfl
  have hrevision : Spells (optional Revision.decode) (levels + 2)
      ((e.revision.map Revision.toDocument).getD .null) e.revision := by
    cases e.revision with
    | none => exact .absent
    | some r => exact .given r.spells fun h => by cases h
  rw [hwritten]
  exact .object ⟨by decide, by decide⟩ rfl <|
    .field _ (.text e.id) (fun _ => rfl) <|
    .field _ (.text e.source) (fun _ => rfl) <|
    .field _ (.text e.type) (fun _ => rfl) <|
    .field _ (.textOrNull e.shortTitle) (fun _ => rfl) <|
    .field _ (.textOrNull e.longTitle) (fun _ => rfl) <|
    .field _ (.textOrNull e.payload) (fun _ => rfl) <|
    .field _ hrevision (fun _ => rfl) <|
    .field _ (Worker.spells horder) (fun _ => rfl) <|
    .nil _

/-- **An event without a cause is spelled by what it is written as.** -/
theorem Event.spells {e : EventData} {files : List (String × String)}
    (horder : files.Perm e.worker.defaultConfigFiles.entries) :
    Spells Event.decode (levels + 3) (e.written files) (.primary e) := by
  have hdata : Spells Event.shape.decode (levels + 3) (e.written files) e := EventData.spells horder
  refine ⟨hdata.plain, fun terms hterms => ?_⟩
  rw [Event.decode, hdata.decode terms hterms]
  rfl

/-- No cause is ever read. -/
theorem Event.yields_primary : Yields Event.decode fun e => ∃ data, e = .primary data := by
  intro terms d e h
  rw [Event.decode] at h
  cases hdata : Event.shape.decode terms d with
  | error fault =>
    rw [hdata] at h
    cases h
  | ok data =>
    rw [hdata] at h
    exact ⟨data, (Except.ok.inj h).symm⟩

/-! ### Round trips -/

section RoundTrip

variable {V M : Type} {volume : Codec V} {mount : Codec M}

/-- **Reading undoes writing**, for every job that can be written, every project, every event without a
cause and every value of the environment, in whatever order secrets and files are written. Whatever has been
read once, on any terms, is written and read again without a change. The volumes and mounts of jobs may be
of any types whose values are read back from what they are written as, two levels down in a document. -/
theorem decode_toJson (hvolume : volume.Faithful (jsonTerms.levels - 2))
    (hmount : mount.Faithful (jsonTerms.levels - 2)) :
    (∀ j : JobOf V M, j.Writable →
      ofJson (JobOf.decode volume mount) (j.toDocument volume mount).toJson = .ok j) ∧
    (∀ p : Project, ofJson Project.decode p.toDocument.toJson = .ok p ∧
      ∀ secrets, secrets.Perm p.secrets.entries →
        ofJson Project.decode (p.written secrets).toJson = .ok p) ∧
    (∀ e : EventData, ofJson Event.decode (Event.primary e).toDocument.toJson = .ok (.primary e) ∧
      ∀ files, files.Perm e.worker.defaultConfigFiles.entries →
        ofJson Event.decode (e.written files).toJson = .ok (.primary e)) ∧
    (∀ v : EnvValue, ofJson EnvValue.decode v.toDocument.toJson = .ok v) ∧
    (∀ terms d (j : JobOf V M), JobOf.decode volume mount terms d = .ok j →
      ofJson (JobOf.decode volume mount) (j.toDocument volume mount).toJson = .ok j) ∧
    (∀ terms d p, Project.decode terms d = .ok p →
      ofJson Project.decode p.toDocument.toJson = .ok p) ∧
    ∀ terms d e, Event.decode terms d = .ok e → ofJson Event.decode e.toDocument.toJson = .ok e := by
  have hjob : ∀ j : JobOf V M, j.Writable →
      ofJson (JobOf.decode volume mount) (j.toDocument volume mount).toJson = .ok j :=
    fun j hj => Spells.ofJson (JobOf.spells hvolume hmount hj)
  have hproject : ∀ (p : Project) secrets, secrets.Perm p.secrets.entries →
      ofJson Project.decode (p.written secrets).toJson = .ok p :=
    fun p secrets h => Spells.ofJson (Project.spells h)
  have hevent : ∀ (e : EventData) files, files.Perm e.worker.defaultConfigFiles.entries →
      ofJson Event.decode (e.written files).toJson = .ok (.primary e) :=
    fun e files h => Spells.ofJson (Event.spells h)
  refine ⟨hjob, fun p => ⟨hproject p _ (.refl _), hproject p⟩,
    fun e => ⟨hevent e _ (.refl _), hevent e⟩,
    fun v => Spells.ofJson v.spells,
    fun terms d j h => hjob j (JobOf.yields_writable terms d j h),
    fun _ _ p _ => hproject p _ (.refl _), fun terms d e h => ?_⟩
  obtain ⟨data, rfl⟩ := Event.yields_primary terms d e h
  exact hevent data _ (.refl _)

/-- A job with something in most of its fields. -/
def furnishedJob : Job where
  name := "build"
  container := {
    image := "alpine"
    env := .ofList [("A", .literal "null"), ("B", .secretRef "s" "secretKeyRef"),
      ("C", .configMapRef "" "\"\n")] }
  sidecars := .ofList [("db", { image := "postgres", imagePullPolicy := .always })]
  timeout := .ofSeconds 90
  volumes := [{
    name := "files"
    configMap := some { items := some [{ key := "k", path := "p", mode := some 0o600 }] } }]
  volumeMounts := [{ name := "files", mountPath := "/files", readOnly := some true }]

/-- The volumes and mounts that the worker has are read back from what they are written as. -/
theorem decode_toJson_furnishedJob :
    Resource.Volume.codec.Faithful (jsonTerms.levels - 2) ∧
    Resource.VolumeMount.codec.Faithful (jsonTerms.levels - 2) ∧ furnishedJob.Writable ∧
    ofJson Job.decode furnishedJob.toDocument.toJson = .ok furnishedJob := by
  have hvolume : Resource.Volume.codec.Faithful (jsonTerms.levels - 2) := Resource.Volume.faithful_codec
  have hmount : Resource.VolumeMount.codec.Faithful (jsonTerms.levels - 2) :=
    Resource.VolumeMount.faithful_codec
  have hwritable : furnishedJob.Writable := ⟨90, by decide, rfl⟩
  exact ⟨hvolume, hmount, hwritable, (decode_toJson hvolume hmount).1 furnishedJob hwritable⟩

end RoundTrip

end EventWorker
