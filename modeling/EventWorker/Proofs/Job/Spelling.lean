import EventWorker.Job
import EventWorker.Proofs.Document.Spelling
import EventWorker.Proofs.Document.Yield

/-!
# Jobs as they are written

A job is spelled by what it is written as, with everything in it: its containers, what they are given
as their environment, and its volumes and mounts, whatever their types are, as long as these are spelled
by what they are written as. Only whole seconds of its timeout are written, and they have to fit into a
word (`JobOf.Writable`).

Main statements: `EnvValue.spells`, `JobOf.spells`, `JobOf.yields_writable`.
-/

namespace EventWorker

open Document Decoder Resource

variable {levels : Nat}

/-! ### Environment values -/

namespace EnvValue

/-- The first form that fits is the one that the value has. -/
theorem ofFree?_toDocument (v : EnvValue) : ofFree? v.toDocument = some v := by
  cases v with
  | literal value => rfl
  | secretRef name key => rfl
  | configMapRef name key => rfl

/-- **A value of the environment is spelled by what it is written as**, whatever form it has. -/
theorem spells (v : EnvValue) : Spells EnvValue.decode (levels + 2) v.toDocument v where
  plain := by
    have hkeyRef : ∀ name key, Plain (keyRefDocument name key) := fun name key =>
      .object (by simpa using ⟨.text name, .text key⟩)
    cases v with
    | literal value => exact .text value
    | secretRef name key => exact .object (by simpa using hkeyRef name key)
    | configMapRef name key => exact .object (by simpa using hkeyRef name key)
  decode terms hterms := by
    obtain ⟨n, hn⟩ := Nat.exists_eq_add_of_le' hterms
    have hfree : isFree terms.levels v.toDocument = true := by
      have hlevels : terms.levels = n + levels + 1 + 1 := hn
      rw [hlevels]
      cases v <;> rfl
    rw [EnvValue.decode, hfree, ofFree?_toDocument]
    rfl

end EnvValue

/-! ### Containers -/

theorem Container.spells (c : Container) : Spells Container.decode (levels + 4) c.toDocument c :=
  .object ⟨by decide, by decide⟩ rfl <|
    .field _ (.text c.image) (fun _ => rfl) <|
    .field _ (.oneOf c.imagePullPolicy.ofName?_name) (fun _ => rfl) <|
    .field _ (.texts c.command) (fun _ => rfl) <|
    .field _ (.texts c.args) (fun _ => rfl) <|
    .field _ (.tableOf (.refl _) fun e _ => e.2.spells) (fun _ => rfl) <|
    .field _ (.textOrNull c.workingDirectory) (fun _ => rfl) <|
    .field _ (.textOrNull c.sourceMountPath) (fun _ => rfl) <|
    .field _ (.flag c.privileged) (fun _ => rfl) <|
    .nil _

theorem ResourceSpec.spells (r : ResourceSpec) :
    Spells ResourceSpec.decode (levels + 1) r.toDocument r :=
  .object ⟨by decide, by decide⟩ rfl <|
    .field _ (.textOrNull r.cpu) (fun _ => rfl) <|
    .field _ (.textOrNull r.memory) (fun _ => rfl) <|
    .nil _

theorem Resources.spells (r : Resources) : Spells Resources.decode (levels + 2) r.toDocument r :=
  .object ⟨by decide, by decide⟩ rfl <|
    .field _ r.requests.spells (fun _ => rfl) <|
    .field _ r.limits.spells (fun _ => rfl) <|
    .nil _

theorem HostSpec.spells (h : HostSpec) : Spells HostSpec.decode (levels + 2) h.toDocument h :=
  .object ⟨by decide, by decide⟩ rfl <|
    .field _ (.textOrNull h.os) (fun _ => rfl) <|
    .field _ (.textOrNull h.nodeName) (fun _ => rfl) <|
    .field _ (.tableOf (.refl _) fun e _ => .text e.2) (fun _ => rfl) <|
    .nil _

theorem CacheConfig.spells (c : CacheConfig) :
    Spells CacheConfig.decode (levels + 1) c.toDocument c :=
  .object ⟨by decide, by decide⟩ rfl <|
    .field _ (.flag c.enabled) (fun _ => rfl) <|
    .field _ (.text c.size) (fun _ => rfl) <|
    .field _ (.text c.path) (fun _ => rfl) <|
    .field _ (.textOrNull c.storageClass) (fun _ => rfl) <|
    .nil _

theorem StorageConfig.spells (s : StorageConfig) :
    Spells StorageConfig.decode (levels + 1) s.toDocument s :=
  .object ⟨by decide, by decide⟩ rfl <|
    .field _ (.flag s.enabled) (fun _ => rfl) <|
    .field _ (.text s.path) (fun _ => rfl) <|
    .nil _

/-! ### Jobs -/

namespace JobOf

variable {V M : Type} {volume : Codec V} {mount : Codec M} {j : JobOf V M}

/-- What has to hold of a job so that it can be written without loss. -/
def Writable (j : JobOf V M) : Prop :=
  ∃ n < UInt64.size, j.timeout = .ofSeconds n

theorem Writable.seconds (h : j.Writable) :
    j.timeout.seconds < UInt64.size ∧ Duration.ofSeconds j.timeout.seconds = j.timeout := by
  obtain ⟨n, hn, ht⟩ := h
  rw [ht, Duration.seconds_ofSeconds]
  exact ⟨hn, rfl⟩

theorem proper_shape : (shape volume mount).Proper where
  nodup := by
    show fields.Nodup
    decide
  required _ hname := by cases hname

/-- **A job is spelled by what it is written as**, if its volumes and mounts are. -/
theorem spells (hvolume : volume.Faithful (levels + 4)) (hmount : mount.Faithful (levels + 4))
    (hj : j.Writable) : Spells (decode volume mount) (levels + 6) (j.toDocument volume mount) j := by
  have hspells : Spells (decode volume mount) (levels + 6) (j.toDocument volume mount)
      { j with timeout := .ofSeconds j.timeout.seconds } :=
    .object proper_shape rfl <|
      .field _ (.text j.name) (fun _ => rfl) <|
      .field _ j.container.spells (fun _ => rfl) <|
      .field _ (.tableOf (.refl _) fun e _ => e.2.spells) (fun _ => rfl) <|
      .field _ (.texts j.tasks) (fun _ => rfl) <|
      .field _ (.text j.shell) (fun _ => rfl) <|
      .field _ (.natBelow hj.seconds.1) (fun _ => rfl) <|
      .field _ j.host.spells (fun _ => rfl) <|
      .field _ j.cache.spells (fun _ => rfl) <|
      .field _ j.storage.spells (fun _ => rfl) <|
      .field _ (.flag j.docker) (fun _ => rfl) <|
      .field _ (.listOf fun v _ => hvolume v) (fun _ => rfl) <|
      .field _ (.listOf fun m _ => hmount m) (fun _ => rfl) <|
      .field _ j.resources.spells (fun _ => rfl) <|
      .field _ (.textOrNull j.serviceAccount) (fun _ => rfl) <|
      .field _ (.texts j.imagePullSecrets) (fun _ => rfl) <|
      .field _ (.flag j.useSource) (fun _ => rfl) <|
      .field _ (.flag j.privileged) (fun _ => rfl) <|
      .field _ (.flag j.fallible) (fun _ => rfl) <|
      .nil _
  rw [hj.seconds.2] at hspells
  exact hspells

/-- **A job that has been read can be written without loss.** -/
theorem yields_writable : Yields (decode volume mount) Writable := by
  refine .shape ⟨900, by decide, rfl⟩ fun terms field d s t hs h => ?_
  dsimp only [shape, setField] at h
  split at h
  case h_6 =>
    obtain ⟨n, hn, ⟨rfl⟩⟩ := Except.bind_eq_ok_iff.1 h
    exact ⟨n, Yields.natBelow UInt64.size terms d n hn, rfl⟩
  case h_19 =>
    obtain rfl := Except.ok.inj h
    exact hs
  all_goals
    obtain ⟨a, -, ⟨rfl⟩⟩ := Except.bind_eq_ok_iff.1 h
    exact hs

end JobOf

end EventWorker
