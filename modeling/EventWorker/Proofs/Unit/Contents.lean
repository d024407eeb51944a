import EventWorker.Proofs.Unit.Environment

/-!
# What the carrier holds

A unit's secret holds the task script, if there are tasks, and where literals are carried it holds the
literals of all containers, each under a key of its own kind (`IsLiteral`). It holds nothing else, and in
particular nothing of the secrets and config maps that variables refer to. The pod has one entry for each
variable of a container, in the order of their names (`Lists`).

Main statement: `build_holds_exactly`.
-/

namespace EventWorker

open Resource Text

namespace ExecutionUnit

/-- The literals of a unit's containers by the keys of the carrier. The first container's are kept under
their own names, those of the container that fetches the source and of sidecars under the name of the
container and theirs. -/
inductive IsLiteral (job : Job) (event : Event) (project : Project) : (key value : String) → Prop where
  | first {name value : String} :
    Declares job.container.env name value → IsLiteral job event project name value
  | source {name value : String} :
    fetchesSource job project = true → (name, some value) ∈ sourceVariables job event project →
      IsLiteral job event project ("vcs-sidecar." ++ name) value
  | sidecar {scope name value : String} {c : Container} :
    job.sidecars.get? scope = some c → Declares c.env name value →
      IsLiteral job event project (scope ++ "." ++ name) value

/-- The environment of a container has one entry for each variable, in the order of their names. -/
structure Lists (c : PodContainer) (IsVariable : String → Prop) : Prop where
  ordered : ((c.env.getD []).map (·.name)).Pairwise (· < ·)
  mem_iff : ∀ name, name ∈ (c.env.getD []).map (·.name) ↔ IsVariable name

/-- A unit's secret holds the script and the literals that are to be carried, and nothing else, and its
containers list their variables. -/
structure HoldsExactly (u : ExecutionUnit) (mode : LiteralMode) (job : Job) (event : Event)
    (project : Project) : Prop where
  keys : ∀ key, (∃ bytes, u.stored key = some bytes) ↔
    (key = "main.sh" ∧ job.tasks ≠ []) ∨
      mode = .carried ∧ ∃ value, IsLiteral job event project key value
  /-- Every value is the script or a literal that has this key. -/
  values : ∀ key bytes, u.stored key = some bytes →
    (key = "main.sh" ∧ job.tasks ≠ [] ∧ bytes = bytesOf (taskScript job.shell job.tasks)) ∨
      mode = .carried ∧ ∃ value, IsLiteral job event project key value ∧ bytes = bytesOf value
  containers : ∃ main sidecars, u.containers = main :: sidecars ∧
    main.name = job.name ∧ Lists main (· ∈ job.container.env.keys) ∧
    List.Forall₂ (fun c d => c.name = d.1 ∧ Lists c (· ∈ d.2.env.keys)) sidecars job.sidecars.entries
  source : if fetchesSource job project then
      ∃ c, u.initContainers = [c] ∧ c.name = sourceVolume ∧
        Lists c fun name => ∃ value, (name, some value) ∈ sourceVariables job event project
    else u.initContainers = []

variable {options : BuildOptions} {job : Job} {event : Event} {project : Project} {now : Int}
  {u : ExecutionUnit}

/-! ### Entries of the secret -/

theorem isLiteral_iff {key value : String} : IsLiteral job event project key value ↔
    ∃ scope name, Holds job event project scope name value ∧ key = carrierKey scope name := by
  constructor
  · rintro (hd | ⟨hf, hv⟩ | ⟨hc, hd⟩)
    · exact ⟨none, key, .first hd, rfl⟩
    · exact ⟨some sourceVolume, _, .source hf (declares_sourceEnv_iff.2 hv), rfl⟩
    · exact ⟨some _, _, .sidecar hc hd, rfl⟩
  · rintro ⟨scope, name, h, rfl⟩
    cases h with
    | first hd => exact .first hd
    | source hf hd => exact .source hf (declares_sourceEnv_iff.1 hd)
    | sidecar hc hd => exact .sidecar hc hd

/-- What is put into the carrier, in either mode. -/
theorem mem_carrierEntries_iff_isLiteral {mode : LiteralMode} {key : String} {bytes : List UInt8} :
    (key, bytes) ∈ carrierEntries mode job event project ↔
      (key = scriptKey ∧ job.tasks ≠ [] ∧ bytes = bytesOf (taskScript job.shell job.tasks)) ∨
        mode = .carried ∧ ∃ value, IsLiteral job event project key value ∧ bytes = bytesOf value := by
  have hscript : (job.tasks ≠ [] ∧
      (key, bytes) = (scriptKey, bytesOf (taskScript job.shell job.tasks))) ↔
        key = scriptKey ∧ job.tasks ≠ [] ∧ bytes = bytesOf (taskScript job.shell job.tasks) := by
    rw [Prod.mk.injEq, and_left_comm]
  cases mode with
  | carried =>
    rw [mem_carrierEntries_iff, hscript]
    refine or_congr_right ?_
    simp only [true_and, isLiteral_iff, Prod.mk.injEq]
    constructor
    · rintro ⟨scope, name, value, h, hkey, hbytes⟩
      exact ⟨value, ⟨scope, name, h, hkey⟩, hbytes⟩
    · rintro ⟨value, ⟨scope, name, h, hkey⟩, hbytes⟩
      exact ⟨scope, name, value, h, hkey, hbytes⟩
  | inline =>
    simp only [reduceCtorEq, false_and, or_false]
    by_cases ht : job.tasks = []
    · simp [carrierEntries, carried, ht]
    · rw [carrierEntries_inline ht, List.mem_singleton, ← hscript, and_iff_right ht]

/-- What the secret of a built unit gives is one of the entries, and there is something under each of
their keys. -/
theorem stored_of_build (hsecret : u.secret = unitSecret u.name options.literals job event project)
    (key : String) :
    ((∃ bytes, u.stored key = some bytes) ↔
      ∃ bytes, (key, bytes) ∈ carrierEntries options.literals job event project) ∧
    ∀ bytes, u.stored key = some bytes →
      (key, bytes) ∈ carrierEntries options.literals job event project := by
  have hstored : u.stored key =
      (Table.ofList (carrierEntries options.literals job event project)).get? key := by
    rw [stored, hsecret]
    rfl
  rw [hstored]
  exact ⟨Table.exists_get?_ofList_iff, fun bytes h => Table.mem_of_get?_ofList h⟩

/-! ### Variables in the pod -/

/-- Every variable gives one entry, of its own name. -/
theorem map_name_envVars (carrier : String) (mode : LiteralMode) (scope : Option String)
    (env : Table EnvValue) : (envVars carrier mode scope env).map (·.name) = env.keys := by
  have hname : ∀ name v, (envVar carrier mode scope name v).name = name := by
    intro name v
    cases v with
    | literal value => cases mode <;> rfl
    | secretRef secret key => rfl
    | configMapRef map key => rfl
  rw [envVars, Table.keys, List.map_map]
  exact List.map_congr_left fun e _ => hname e.1 e.2

theorem lists_of_env {c : PodContainer} {carrier : String} {mode : LiteralMode}
    {scope : Option String} {env : Table EnvValue}
    (hc : c.env = unlessEmpty (envVars carrier mode scope env)) : Lists c (· ∈ env.keys) := by
  have hnames : (c.env.getD []).map (·.name) = env.keys := by
    rw [hc, getD_unlessEmpty, map_name_envVars]
  refine ⟨?_, fun name => ?_⟩
  · rw [hnames]
    exact env.pairwise_keys
  · rw [hnames]

theorem mem_keys_sourceEnv_iff {name : String} : name ∈ (sourceEnv job event project).keys ↔
    ∃ value, (name, some value) ∈ sourceVariables job event project := by
  rw [Table.mem_keys_iff, Option.isSome_iff_exists]
  constructor
  · rintro ⟨v, hv⟩
    obtain ⟨value, hmem, -⟩ := get?_sourceEnv_eq_some_iff.1 hv
    exact ⟨value, hmem⟩
  · rintro ⟨value, hmem⟩
    exact ⟨_, get?_sourceEnv_eq_some_iff.2 ⟨value, hmem, rfl⟩⟩

/-- **The carrier holds exactly what it must**: the script if there are tasks, and where literals are
carried those of all containers. Every container lists each of its variables once, in order. -/
theorem build_holds_exactly (h : build options job event project now = .ok u) :
    u.HoldsExactly options.literals job event project := by
  obtain ⟨declared, hu⟩ := built_of_build h
  refine ⟨fun key => ?_, fun key bytes hb => ?_, ⟨_, _, containers_eq hu.pod, rfl, lists_of_env rfl, ?_⟩, ?_⟩
  · rw [(stored_of_build hu.secret key).1]
    simp only [mem_carrierEntries_iff_isLiteral]
    constructor
    · rintro ⟨bytes, ⟨hkey, ht, -⟩ | ⟨hmode, value, hv, -⟩⟩
      · exact Or.inl ⟨hkey, ht⟩
      · exact Or.inr ⟨hmode, value, hv⟩
    · rintro (⟨hkey, ht⟩ | ⟨hmode, value, hv⟩)
      · exact ⟨_, Or.inl ⟨hkey, ht, rfl⟩⟩
      · exact ⟨_, Or.inr ⟨hmode, value, hv, rfl⟩⟩
  · exact mem_carrierEntries_iff_isLiteral.1 ((stored_of_build hu.secret key).2 bytes hb)
  · rw [List.forall₂_map_left_iff, List.forall₂_same]
    exact fun d _ => ⟨rfl, lists_of_env rfl⟩
  · rw [initContainers_eq hu.pod]
    split
    · next hf =>
      have hlists : Lists (sourceContainer u.name options.literals job event project)
          (· ∈ (sourceEnv job event project).keys) := lists_of_env rfl
      exact ⟨_, rfl, rfl, hlists.ordered, fun name => (hlists.mem_iff name).trans mem_keys_sourceEnv_iff⟩
    · rfl

/-- A job with a task, variables of all three forms, and a sidecar. -/
def laden : Job where
  name := "build"
  container := {
    image := "alpine"
    env := .ofList [("USER", .secretRef "registry" "user"), ("MODE", .literal "fast"),
      ("LEVEL", .configMapRef "settings" "level")] }
  tasks := ["make"]
  sidecars := .ofList [("db", {
    image := "postgres"
    env := .ofList [("PASSWORD", .literal "swordfish"), ("HOST", .configMapRef "settings" "host")] })]

/-- A project with a repository that takes a key. -/
def keyed : Project where
  id := "p1"
  name := "org/repo"
  repo := { cloneUrl := some "https://git.example/org/repo.git", sshKey := some "key1" }

/-- Five literals and the script are carried, and none of the three references. -/
theorem holds_exactly_laden :
    ∃ u, build {} laden (.new "run1" "github" "push") keyed 0 = .ok u ∧
      u.secret.data.map Table.keys = some ["MODE", "db.PASSWORD", "main.sh",
        "vcs-sidecar.FERRY_REPO_URL", "vcs-sidecar.FERRY_SOURCE_PATH", "vcs-sidecar.FERRY_SSH_KEY"] ∧
      u.HoldsExactly .carried laden (.new "run1" "github" "push") keyed := by
  obtain ⟨u, hu, hkeys⟩ := Except.exists_ok_of_any
    (x := build {} laden (.new "run1" "github" "push") keyed 0)
    (p := fun u => u.secret.data.map Table.keys = some ["MODE", "db.PASSWORD", "main.sh",
      "vcs-sidecar.FERRY_REPO_URL", "vcs-sidecar.FERRY_SOURCE_PATH", "vcs-sidecar.FERRY_SSH_KEY"])
    (by decide +kernel)
  exact ⟨u, hu, hkeys, build_holds_exactly hu⟩

end ExecutionUnit

end EventWorker
