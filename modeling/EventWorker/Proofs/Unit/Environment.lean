import Mathlib.Data.List.Forall2
import EventWorker.Proofs.Unit.Built
import EventWorker.Proofs.Unit.Carrier

/-!
# Environments of containers

What a unit has to say about the environments of its containers, and whether it says it. A variable
with a literal value may be given that value, or a reference to a key of the unit's secret that holds
it; a variable that is a reference itself stays that reference (`EnvVar.Gives`). A unit is faithful if
every container is given the variables that it was declared with, and the script is where it is looked
for (`Faithful`).

Main statement: `build_faithful_iff`. Where literals are carried, a unit is faithful if and only if no
key of the secret is used for two values.
-/

namespace EventWorker

open Resource Text

namespace ExecutionUnit

/-- What the unit's secret holds under a key. -/
def stored (u : ExecutionUnit) (key : String) : Option (List UInt8) :=
  u.secret.data.bind (·.get? key)

def containers (u : ExecutionUnit) : List PodContainer :=
  (u.pod.spec.map (·.containers)).getD []

def initContainers (u : ExecutionUnit) : List PodContainer :=
  (u.pod.spec.bind (·.initContainers)).getD []

/-- A variable of a container of a unit comes to the value that is declared for a name. -/
def Gives (u : ExecutionUnit) (v : EnvVar) (name : String) : EnvValue → Prop
  | .literal value => v = { name, value := some value } ∨
      ∃ key, v = { name, secretKey := some { name := some u.name, key } } ∧
        u.stored key = some (bytesOf value)
  | .secretRef secret key => v = { name, secretKey := some { name := some secret, key } }
  | .configMapRef map key => v = { name, configMapKey := some { name := some map, key } }

/-- A container is given its environment, variable by variable. -/
def GivesAll (u : ExecutionUnit) (c : PodContainer) (env : Table EnvValue) : Prop :=
  List.Forall₂ (fun v e => u.Gives v e.1 e.2) (c.env.getD []) env.entries

/-- A unit does as the job says. -/
structure Faithful (u : ExecutionUnit) (job : Job) (event : Event) (project : Project) : Prop where
  /-- The secret can be found. -/
  carrier : u.secret.metadata.name = some u.name
  containers : ∃ main sidecars, u.containers = main :: sidecars ∧
    main.name = job.name ∧ u.GivesAll main job.container.env ∧
    List.Forall₂ (fun c d => c.name = d.1 ∧ u.GivesAll c d.2.env) sidecars job.sidecars.entries
  source : if fetchesSource job project then
      ∃ c, u.initContainers = [c] ∧ c.name = sourceVolume ∧
        u.GivesAll c (sourceEnv job event project)
    else u.initContainers = []
  script : job.tasks ≠ [] → u.stored scriptKey = some (bytesOf (taskScript job.shell job.tasks))

variable {options : BuildOptions} {job : Job} {event : Event} {project : Project} {now : Int}
  {u : ExecutionUnit}

theorem build_ok (h : build options job event project now = .ok u) :
    job.validate = .ok () ∧ u.secret = unitSecret u.name options.literals job event project ∧
      ∃ volumes, u.pod = unitPod options u.name job event project volumes := by
  obtain ⟨volumes, hu⟩ := built_of_build h
  exact ⟨hu.valid, hu.secret, volumes, hu.pod⟩

/-! ### Containers -/

theorem containers_eq {volumes : List Volume}
    (hpod : u.pod = unitPod options u.name job event project volumes) :
    u.containers =
      mainContainer u.name options.literals job project
          ((systemVolumes u.name job event project).map Mounted.mount ++ job.volumeMounts) ::
        job.sidecars.entries.map fun d =>
          sidecarContainer u.name options.literals job project d.1 d.2 := by
  rw [containers, hpod]
  rfl

theorem initContainers_eq {volumes : List Volume}
    (hpod : u.pod = unitPod options u.name job event project volumes) :
    u.initContainers = if fetchesSource job project then
      [sourceContainer u.name options.literals job event project] else [] := by
  rw [initContainers, hpod]
  show (if fetchesSource job project then some [_] else none).getD [] = _
  split <;> rfl

/-- What the pod says of a container's variables is right, one by one. -/
def Says (u : ExecutionUnit) (mode : LiteralMode) (scope : Option String) (env : Table EnvValue) : Prop :=
  ∀ e ∈ env.entries, u.Gives (envVar u.name mode scope e.1 e.2) e.1 e.2

theorem getD_unlessEmpty {α : Type} (items : List α) : (unlessEmpty items).getD [] = items := by
  cases items <;> rfl

theorem givesAll_iff {mode : LiteralMode} {scope : Option String} {env : Table EnvValue}
    {c : PodContainer} (hc : c.env = unlessEmpty (envVars u.name mode scope env)) :
    u.GivesAll c env ↔ u.Says mode scope env := by
  rw [GivesAll, hc, getD_unlessEmpty, envVars, List.forall₂_map_left_iff, List.forall₂_same]
  exact Iff.rfl

theorem says_inline (scope : Option String) (env : Table EnvValue) : u.Says .inline scope env := by
  rintro ⟨name, value⟩ -
  cases value with
  | literal text => exact Or.inl rfl
  | secretRef secret key => rfl
  | configMapRef map key => rfl

/-- Where literals are carried, the carrier has to hold them. -/
theorem says_carried_iff {scope : Option String} {env : Table EnvValue} :
    u.Says .carried scope env ↔ ∀ name value, Declares env name value →
      u.stored (carrierKey scope name) = some (bytesOf value) := by
  constructor
  · intro h name value hd
    rcases h (name, .literal value) (Table.mem_entries_iff.2 hd) with hv | ⟨key, hv, hstored⟩
    · exact absurd (congrArg EnvVar.value hv) (Option.some_ne_none value).symm
    · have hkey : carrierKey scope name = key :=
        congrArg KeySelector.key (Option.some.inj (congrArg EnvVar.secretKey hv))
      rw [hkey]
      exact hstored
  · rintro h ⟨name, value⟩ he
    cases value with
    | literal text => exact Or.inr ⟨carrierKey scope name, rfl, h name text (Table.mem_entries_iff.1 he)⟩
    | secretRef secret key => rfl
    | configMapRef map key => rfl

/-! ### Units -/

/-- A unit that has been built is faithful if its containers are given what they declare. -/
theorem faithful_iff (hsecret : u.secret = unitSecret u.name options.literals job event project)
    {volumes : List Volume} (hpod : u.pod = unitPod options u.name job event project volumes) :
    u.Faithful job event project ↔
      u.Says options.literals none job.container.env ∧
        (∀ d ∈ job.sidecars.entries, u.Says options.literals (some d.1) d.2.env) ∧
        (fetchesSource job project = true →
          u.Says options.literals (some sourceVolume) (sourceEnv job event project)) ∧
        (job.tasks ≠ [] →
          u.stored scriptKey = some (bytesOf (taskScript job.shell job.tasks))) := by
  let main := mainContainer u.name options.literals job project
    ((systemVolumes u.name job event project).map Mounted.mount ++ job.volumeMounts)
  let sidecars := job.sidecars.entries.map fun d =>
    sidecarContainer u.name options.literals job project d.1 d.2
  have hcontainers : u.containers = main :: sidecars := containers_eq hpod
  have hmain : u.GivesAll main job.container.env ↔ u.Says options.literals none job.container.env :=
    givesAll_iff rfl
  have hsidecars : List.Forall₂ (fun c d => c.name = d.1 ∧ u.GivesAll c d.2.env) sidecars
      job.sidecars.entries ↔
        ∀ d ∈ job.sidecars.entries, u.Says options.literals (some d.1) d.2.env := by
    rw [List.forall₂_map_left_iff, List.forall₂_same]
    refine forall₂_congr fun d _ => ?_
    have hgives : u.GivesAll (sidecarContainer u.name options.literals job project d.1 d.2) d.2.env ↔
        u.Says options.literals (some d.1) d.2.env := givesAll_iff rfl
    exact (and_iff_right rfl).trans hgives
  have hinit := initContainers_eq hpod
  constructor
  · intro h
    obtain ⟨c, rest, hc, -, hgives, hrest⟩ := h.containers
    rw [hcontainers] at hc
    obtain ⟨rfl, rfl⟩ := List.cons.inj hc
    refine ⟨hmain.1 hgives, hsidecars.1 hrest, fun hf => ?_, h.script⟩
    have hsource := h.source
    rw [if_pos hf, hinit, if_pos hf] at hsource
    obtain ⟨c, hc, -, hgives⟩ := hsource
    obtain ⟨rfl, -⟩ := List.cons.inj hc
    exact (givesAll_iff rfl).1 hgives
  · rintro ⟨hfirst, hrest, hsource, hscript⟩
    refine ⟨?_, ⟨main, sidecars, hcontainers, rfl, hmain.2 hfirst, hsidecars.2 hrest⟩, ?_, hscript⟩
    · rw [hsecret]
      rfl
    · rw [hinit]
      split
      · next hf => exact ⟨_, rfl, rfl, (givesAll_iff rfl).2 (hsource hf)⟩
      · rfl

/-- The conditions of a faithful unit are those of its carrier. -/
theorem says_all_iff (hstored : ∀ key, u.stored key =
      (Table.ofList (carrierEntries .carried job event project)).get? key) :
    (u.Says .carried none job.container.env ∧
      (∀ d ∈ job.sidecars.entries, u.Says .carried (some d.1) d.2.env) ∧
      (fetchesSource job project = true →
        u.Says .carried (some sourceVolume) (sourceEnv job event project)) ∧
      (job.tasks ≠ [] →
        u.stored scriptKey = some (bytesOf (taskScript job.shell job.tasks)))) ↔
      ∀ e ∈ carrierEntries .carried job event project,
        (Table.ofList (carrierEntries .carried job event project)).get? e.1 = some e.2 := by
  constructor
  · rintro ⟨hfirst, hsidecars, hsource, hscript⟩ e he
    rw [← hstored]
    rcases mem_carrierEntries_iff.1 he with ⟨ht, rfl⟩ | ⟨scope, name, value, h, rfl⟩
    · exact hscript ht
    · cases h with
      | first hd => exact says_carried_iff.1 hfirst name value hd
      | source hf hd => exact says_carried_iff.1 (hsource hf) name value hd
      | sidecar hc hd =>
        exact says_carried_iff.1 (hsidecars _ (Table.mem_entries_iff.2 hc)) name value hd
  · intro h
    have hholds : ∀ {scope : Option String} {name value : String},
        Holds job event project scope name value →
          u.stored (carrierKey scope name) = some (bytesOf value) := by
      intro scope name value hv
      rw [hstored]
      exact h _ (mem_carrierEntries_iff.2 (Or.inr ⟨scope, name, value, hv, rfl⟩))
    refine ⟨?_, ?_, ?_, ?_⟩
    · exact says_carried_iff.2 fun name value hd => hholds (.first hd)
    · intro d hmem
      exact says_carried_iff.2 fun name value hd => hholds (.sidecar (Table.mem_entries_iff.1 hmem) hd)
    · intro hf
      exact says_carried_iff.2 fun name value hd => hholds (.source hf hd)
    · intro ht
      rw [hstored]
      exact h _ (mem_carrierEntries_iff.2 (Or.inl ⟨ht, rfl⟩))

/-- Where literals are inline, only the script is carried. -/
theorem carrierEntries_inline (ht : job.tasks ≠ []) : carrierEntries .inline job event project =
    [(scriptKey, bytesOf (taskScript job.shell job.tasks))] := by
  have hempty : job.tasks.isEmpty = false := List.isEmpty_eq_false_iff.2 ht
  simp [carrierEntries, carried, hempty]

/-- **A unit is faithful** if literals are inline, and otherwise if and only if no key of its secret is
used for two values. -/
theorem build_faithful_iff (options : BuildOptions) (job : Job) (event : Event) (project : Project)
    (now : Int) :
    match build options job event project now with
    | .ok u => u.Faithful job event project ↔
        options.literals = .inline ∨ Distinguishable job event project
    | .error _ => True := by
  cases hbuild : build options job event project now with
  | error e => trivial
  | ok u =>
    obtain ⟨hvalid, hsecret, volumes, hpod⟩ := build_ok hbuild
    show u.Faithful job event project ↔ _
    rw [faithful_iff hsecret hpod]
    have hstored : ∀ key, u.stored key =
        (Table.ofList (carrierEntries options.literals job event project)).get? key := by
      intro key
      rw [stored, hsecret]
      rfl
    cases hmode : options.literals with
    | inline =>
      rw [hmode] at hstored
      refine ⟨fun _ => Or.inl rfl, fun _ => ⟨says_inline _ _, fun _ _ => says_inline _ _,
        fun _ => says_inline _ _, fun ht => ?_⟩⟩
      rw [hstored, carrierEntries_inline ht]
      exact Table.get?_insert .. |>.trans (if_pos rfl)
    | carried =>
      rw [hmode] at hstored
      rw [says_all_iff hstored, stored_iff hvalid]
      exact ⟨Or.inr, fun h => h.resolve_left LiteralMode.noConfusion⟩

/-! ### A unit that runs the wrong script -/

/-- A job that has a task, and a variable called like the script. -/
def ambiguous : Job where
  name := "build"
  container := { image := "alpine", env := .ofList [("main.sh", .literal "echo")] }
  tasks := ["make"]

/-- The variable takes the place of the script. -/
theorem not_faithful_ambiguous :
    ∃ u, build {} ambiguous (.new "run1" "github" "push") { id := "p1", name := "org/repo" } 0 = .ok u ∧
      ¬ u.Faithful ambiguous (.new "run1" "github" "push") { id := "p1", name := "org/repo" } := by
  have hstored : ((build {} ambiguous (.new "run1" "github" "push")
      { id := "p1", name := "org/repo" } 0).toOption.map fun u => u.stored scriptKey) =
        some (some (bytesOf "echo")) := by decide +kernel
  cases hbuild : build {} ambiguous (.new "run1" "github" "push")
      { id := "p1", name := "org/repo" } 0 with
  | error e =>
    rw [hbuild] at hstored
    cases hstored
  | ok u =>
    rw [hbuild] at hstored
    have hecho : u.stored scriptKey = some (bytesOf "echo") := Option.some.inj hstored
    refine ⟨u, rfl, fun h => ?_⟩
    have hscript := h.script (List.cons_ne_nil _ _)
    rw [hecho] at hscript
    exact absurd hscript (by decide +kernel)

end ExecutionUnit

end EventWorker
