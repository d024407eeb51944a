import EventWorker.Cluster
import EventWorker.Proofs.Unit.Environment

/-!
# Units are closed

Nothing in a unit refers to what is not there. Each mount of a container names a volume of the pod, and
only one, since no two volumes of a pod have the same name. A declared volume gets into the pod when a
mount names it, unless the name is that of a system volume or of a volume declared before it. The
volumes that are more than a name refer to resources that go with the unit: the hook to its secret, the
cache to its claim, and the build volume to the claim that is provisioned for the run.

Main statement: `build_closed`.
-/

namespace EventWorker.ExecutionUnit

open Resource

/-- The job's own switches call for a system volume of this name. -/
inductive IsSystem (job : Job) (project : Project) : String → Prop where
  | hook : IsSystem job project hookVolume
  | source : fetchesSource job project = true → IsSystem job project sourceVolume
  | cache : job.cache.enabled = true → IsSystem job project cacheVolume
  | build : job.storage.enabled = true → IsSystem job project buildVolume
  | docker : job.docker = true → IsSystem job project dockerVolume

/-- The claim of this name is what is asked for when the volume of a run is provisioned, and what is
deleted when it is released, on any cluster. -/
structure IsRunClaim (event : Event) (project : Project) (name : String) : Prop where
  provision : ∀ {σ : Type} (c : Cluster σ) (s : Cluster.BuildStorage), ∃ claim : Claim,
    c.provision s event project = c.createClaim claim ∧ claim.metadata.name = some name ∧
      claim.metadata.namespaceName = some project.namespaceName
  release : ∀ {σ : Type} (c : Cluster σ),
    c.release event project = c.deleteClaim project.namespaceName name

/-- A unit in which every reference can be followed. -/
structure Closed (u : ExecutionUnit) (job : Job) (event : Event) (project : Project) : Prop where
  distinct : (u.volumes.map (·.name)).Nodup
  mounts : ∀ c ∈ u.containers ++ u.initContainers, ∀ m ∈ c.volumeMounts.getD [],
    ∃ v ∈ u.volumes, v.name = m.name
  /-- The job's own mounts stand at the end of those of the first container. -/
  primary : ∃ main sidecars own, u.containers = main :: sidecars ∧ main.name = job.name ∧
    main.volumeMounts = some (own ++ job.volumeMounts)
  /-- The system volumes are there, and of the declared ones those that a mount names, unless their
  name is that of a system volume or of another one declared before. -/
  volumes : ∃ system attached, u.volumes = system ++ attached ∧
    (∀ name, name ∈ system.map (·.name) ↔ IsSystem job project name) ∧
    ∀ v, v ∈ attached ↔
      (∃ m ∈ job.volumeMounts, m.name = v.name) ∧ ¬ IsSystem job project v.name ∧
        FirstOfName job.volumes v
  hook : ∃ v ∈ u.volumes, v.name = hookVolume ∧
    v.secret.bind (·.name) = some u.name ∧ u.secret.metadata.name = some u.name
  cache : job.cache.enabled = true → ∃ v ∈ u.volumes, v.name = cacheVolume ∧
    ∃ claim name, u.cacheClaim = some claim ∧ claim.metadata.name = some name ∧
      v.claim.map (·.claimName) = some name
  storage : job.storage.enabled = true → ∃ v ∈ u.volumes, v.name = buildVolume ∧
    ∃ name, v.claim.map (·.claimName) = some name ∧ IsRunClaim event project name
  secretNamespace : u.secret.metadata.namespaceName = some project.namespaceName
  podNamespace : u.pod.metadata.namespaceName = some project.namespaceName
  cacheNamespace : ∀ claim, u.cacheClaim = some claim →
    claim.metadata.namespaceName = some project.namespaceName

variable {options : BuildOptions} {job : Job} {event : Event} {project : Project} {now : Int}
  {u : ExecutionUnit} {unit : String} {declared : List Volume}

/-! ### System volumes -/

/-- Each of the switches stands for one system volume. -/
theorem mem_systemNames_iff (unit : String) (event : Event) {name : String} :
    name ∈ systemNames unit job event project ↔ IsSystem job project name := by
  simp only [systemNames, List.mem_map, mem_systemVolumes_iff]
  constructor
  · rintro ⟨m, rfl | ⟨hs, rfl⟩ | ⟨hc, rfl⟩ | ⟨hb, rfl⟩ | ⟨hd, rfl⟩, rfl⟩
    · exact .hook
    · exact .source hs
    · exact .cache hc
    · exact .build hb
    · exact .docker hd
  · rintro (_ | hs | hc | hb | hd)
    · exact ⟨_, Or.inl rfl, rfl⟩
    · exact ⟨_, Or.inr (Or.inl ⟨hs, rfl⟩), rfl⟩
    · exact ⟨_, Or.inr (Or.inr (Or.inl ⟨hc, rfl⟩)), rfl⟩
    · exact ⟨_, Or.inr (Or.inr (Or.inr (Or.inl ⟨hb, rfl⟩))), rfl⟩
    · exact ⟨_, Or.inr (Or.inr (Or.inr (Or.inr ⟨hd, rfl⟩))), rfl⟩

theorem ifSo_sublist (b : Bool) (m : Mounted) :
    ((ifSo b m).map fun m => m.volume.name).Sublist [m.volume.name] := by
  cases b with
  | false => exact List.nil_sublist _
  | true => exact List.Sublist.refl _

/-- The system volumes have names of their own. -/
theorem nodup_systemNames : (systemNames unit job event project).Nodup := by
  have hall : [hookVolume, sourceVolume, cacheVolume, buildVolume, dockerVolume].Nodup := by decide
  refine hall.sublist ?_
  simp only [systemNames, systemVolumes, List.map_append]
  exact ((((List.Sublist.refl [hookVolume]).append (ifSo_sublist _ _)).append
    (ifSo_sublist _ _)).append (ifSo_sublist _ _)).append (ifSo_sublist _ _)

/-- A system volume is mounted under its own name. -/
theorem map_name_mount (system : List Mounted) :
    (system.map Mounted.mount).map (·.name) = system.map fun m => m.volume.name := by
  rw [List.map_map]
  rfl

theorem mem_systemVolumes_volume {m : Mounted} (hu : Built options job event project u declared)
    (hm : m ∈ systemVolumes u.name job event project) : m.volume ∈ u.volumes := by
  rw [volumes_eq hu.pod]
  exact List.mem_append_left _ (List.mem_map_of_mem hm)

/-! ### Volumes of a built unit -/

/-- The names of a unit's volumes are those of the system volumes and of the attached ones. -/
theorem map_name_volumes (hu : Built options job event project u declared) :
    u.volumes.map (·.name) = systemNames u.name job event project ++ declared.map (·.name) := by
  rw [volumes_eq hu.pod, List.map_append, List.map_map]
  rfl

/-- No two volumes of a unit share a name. -/
theorem nodup_volumes (hu : Built options job event project u declared) :
    (u.volumes.map (·.name)).Nodup := by
  have ha := attached_eq_ok hu.attached
  rw [map_name_volumes hu, List.nodup_append]
  refine ⟨nodup_systemNames, List.pairwise_map.2 ha.distinct, fun name hs other hd heq => ?_⟩
  obtain ⟨v, hv, rfl⟩ := List.mem_map.1 hd
  exact ((ha.mem_iff v).1 hv).2.1 (heq ▸ hs)

/-- Whatever names a system volume finds it in the unit. -/
theorem exists_volume_of_mem_systemNames {name : String}
    (hu : Built options job event project u declared)
    (hname : name ∈ systemNames u.name job event project) : ∃ v ∈ u.volumes, v.name = name := by
  obtain ⟨m, hm, rfl⟩ := List.mem_map.1 hname
  exact ⟨m.volume, mem_systemVolumes_volume hu hm, rfl⟩

/-- The mounts of the first container name volumes of the unit: system volumes or attached ones. -/
theorem exists_volume_of_mem_mounts {m : VolumeMount}
    (hu : Built options job event project u declared)
    (hm : m ∈ (systemVolumes u.name job event project).map Mounted.mount ++ job.volumeMounts) :
    ∃ v ∈ u.volumes, v.name = m.name := by
  rcases List.mem_append.1 hm with hm | hm
  · refine exists_volume_of_mem_systemNames hu ?_
    rw [systemNames, ← map_name_mount]
    exact List.mem_map_of_mem hm
  · rcases (attached_eq_ok hu.attached).found m hm with hs | ⟨v, hv, hname⟩
    · exact exists_volume_of_mem_systemNames hu hs
    · rw [volumes_eq hu.pod]
      exact ⟨v, List.mem_append_right _ hv, hname⟩

/-- The volume that the source is fetched to is there if it is. -/
theorem exists_volume_of_sourceMount {m : VolumeMount}
    (hu : Built options job event project u declared) (hf : fetchesSource job project = true)
    (hm : m ∈ [sourceMount job]) : ∃ v ∈ u.volumes, v.name = m.name := by
  obtain rfl := List.mem_singleton.1 hm
  exact exists_volume_of_mem_systemNames hu ((mem_systemNames_iff _ event).2 (.source hf))

theorem exists_volume_of_mounts (hu : Built options job event project u declared) {c : PodContainer}
    (hc : c ∈ u.containers ++ u.initContainers) {m : VolumeMount} (hm : m ∈ c.volumeMounts.getD []) :
    ∃ v ∈ u.volumes, v.name = m.name := by
  rw [containers_eq hu.pod, initContainers_eq hu.pod, List.mem_append, List.mem_cons, List.mem_map,
    List.mem_ite_nil_right, List.mem_singleton] at hc
  rcases hc with (rfl | ⟨d, -, rfl⟩) | ⟨hf, rfl⟩
  · exact exists_volume_of_mem_mounts hu hm
  · -- a sidecar has at most the source mounted
    by_cases hf : fetchesSource job project = true
    · rw [sidecarContainer, if_pos hf] at hm
      exact exists_volume_of_sourceMount hu hf hm
    · rw [sidecarContainer, if_neg hf] at hm
      exact absurd hm List.not_mem_nil
  · exact exists_volume_of_sourceMount hu hf hm

/-- The volume of a run has one name, whoever asks for it. -/
theorem isRunClaim_buildVolumeName (event : Event) (project : Project) :
    IsRunClaim event project (buildVolumeName event.runId) where
  provision _ s := ⟨buildClaim s.size s.storageClass event project, rfl, rfl, rfl⟩
  release _ := rfl

theorem cacheClaim?_of_enabled (options : BuildOptions) (event : Event) (project : Project)
    (h : job.cache.enabled = true) : ∃ claim, cacheClaim? options job event project = some claim ∧
      claim.metadata.name = some (cacheVolumeName project.name job.name) := by
  rw [cacheClaim?, if_pos h]
  exact ⟨_, rfl, rfl⟩

theorem namespaceName_cacheClaim? {claim : Claim}
    (h : cacheClaim? options job event project = some claim) :
    claim.metadata.namespaceName = some project.namespaceName := by
  rw [cacheClaim?] at h
  split at h
  · obtain rfl := Option.some.inj h
    rfl
  · exact absurd h.symm (Option.some_ne_none claim)

/-- **A unit that has been built is closed**: its volumes have different names, its mounts name volumes
of its own, and these are the resources that go with it. -/
theorem build_closed (h : build options job event project now = .ok u) :
    u.Closed job event project := by
  obtain ⟨declared, hu⟩ := built_of_build h
  have ha := attached_eq_ok hu.attached
  exact {
    distinct := nodup_volumes hu
    mounts := fun c hc m hm => exists_volume_of_mounts hu hc hm
    primary := ⟨_, _, _, containers_eq hu.pod, rfl, rfl⟩
    volumes := by
      refine ⟨_, declared, volumes_eq hu.pod, fun name => ?_, fun v => ?_⟩
      · rw [← mem_systemNames_iff u.name event, List.map_map]
        rfl
      · rw [ha.mem_iff, mem_systemNames_iff]
    hook := by
      have hm := mem_systemVolumes_volume hu (mem_systemVolumes_iff.2 (Or.inl rfl))
      exact ⟨_, hm, rfl, rfl, by rw [hu.secret]; rfl⟩
    cache := fun hc => by
      have hm := mem_systemVolumes_volume hu
        (mem_systemVolumes_iff.2 (Or.inr (Or.inr (Or.inl ⟨hc, rfl⟩))))
      obtain ⟨claim, hclaim, hname⟩ := cacheClaim?_of_enabled options event project hc
      exact ⟨_, hm, rfl, claim, _, hu.cacheClaim.trans hclaim, hname, rfl⟩
    storage := fun hs => by
      have hm := mem_systemVolumes_volume hu
        (mem_systemVolumes_iff.2 (Or.inr (Or.inr (Or.inr (Or.inl ⟨hs, rfl⟩)))))
      exact ⟨_, hm, rfl, _, rfl, isRunClaim_buildVolumeName event project⟩
    secretNamespace := by rw [hu.secret]; rfl
    podNamespace := by rw [hu.pod]; rfl
    cacheNamespace := fun claim hclaim =>
      namespaceName_cacheClaim? (hu.cacheClaim.symm.trans hclaim) }

/-! ### A unit with all kinds of volumes -/

/-- A job that calls for every system volume, declares a volume twice and one in the place of the cache,
and mounts these and the hook. -/
def crowded : Job where
  name := "build"
  container := { image := "alpine" }
  docker := true
  cache := { enabled := true }
  storage := { enabled := true }
  sidecars := .ofList [("db", { image := "postgres" })]
  volumes := [{ name := "data", emptyDir := some {} }, { name := "build-cache" },
    { name := "data", configMap := some { name := some "settings" } }, { name := "unused" }]
  volumeMounts := [{ name := "data", mountPath := "/a" }, { name := "build-cache", mountPath := "/b" },
    { name := "hook", mountPath := "/c" }, { name := "data", mountPath := "/d" }]

/-- A project with a source. -/
def sourced : Project where
  id := "p1"
  name := "org/repo"
  namespaceName := "ci"
  repo := { cloneUrl := some "https://git.example/org/repo.git" }
  allowHostMounts := true

/-- All of its volumes and claims can be found. -/
theorem closed_crowded :
    ∃ u, build {} crowded (.new "run1" "github" "push") sourced 0 = .ok u ∧
      u.Closed crowded (.new "run1" "github" "push") sourced := by
  have hok : (build {} crowded (.new "run1" "github" "push") sourced 0).isOk = true := by
    decide +kernel
  cases h : build {} crowded (.new "run1" "github" "push") sourced 0 with
  | error e =>
    rw [h] at hok
    cases hok
  | ok u => exact ⟨u, rfl, build_closed h⟩

end EventWorker.ExecutionUnit
