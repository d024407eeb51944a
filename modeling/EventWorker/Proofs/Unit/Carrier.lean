import EventWorker.Proofs.Job.Name
import EventWorker.Proofs.Table
import EventWorker.Proofs.Text.Utf8
import EventWorker.Unit

/-!
# Keys of the carrier

All values that a unit's secret carries share one space of keys. A container's name holds no dot, so a
key with a dot in it stands for at most one container and one variable of it (`scoped_inj`), but also
for a variable of the first container that has the dot in its own name. The task script is kept where a
sidecar called `main` would keep its variable `sh`.

* `stored_iff`: the carrier gives back all that has been put there if no key is used for two values.
-/

namespace EventWorker

open Text

/-! ### Keys -/

/-- The key of a variable of a container that is not the first. -/
theorem toList_carrierKey (scope name : String) :
    (carrierKey (some scope) name).toList = scope.toList ++ '.' :: name.toList := by
  simp [carrierKey]

/-- Without a dot in it, a scope ends where the first dot of the key stands. -/
theorem append_dot_inj {s t n m : List Char} (hs : '.' ∉ s) (ht : '.' ∉ t) :
    s ++ '.' :: n = t ++ '.' :: m ↔ s = t ∧ n = m := by
  refine ⟨fun h => ?_, fun ⟨hst, hnm⟩ => by rw [hst, hnm]⟩
  rcases List.append_eq_append_iff.1 h with ⟨rest, rfl, hrest⟩ | ⟨rest, rfl, hrest⟩
  · cases rest with
    | nil => exact ⟨(List.append_nil s).symm, (List.cons.inj hrest).2⟩
    | cons c rest =>
      rw [← (List.cons.inj hrest).1] at ht
      exact absurd (List.mem_append_right s List.mem_cons_self) ht
  · cases rest with
    | nil => exact ⟨List.append_nil t, (List.cons.inj hrest).2.symm⟩
    | cons c rest =>
      rw [← (List.cons.inj hrest).1] at hs
      exact absurd (List.mem_append_right t List.mem_cons_self) hs

theorem scoped_inj {s t n m : String} (hs : '.' ∉ s.toList) (ht : '.' ∉ t.toList) :
    carrierKey (some s) n = carrierKey (some t) m ↔ s = t ∧ n = m := by
  rw [← String.toList_inj, toList_carrierKey, toList_carrierKey, append_dot_inj hs ht,
    String.toList_inj, String.toList_inj]

namespace ExecutionUnit

theorem scriptKey_eq : scriptKey = carrierKey (some "main") "sh" := by
  decide

/-! ### What the carrier is to hold -/

/-- An environment says that a variable has a literal value. -/
def Declares (env : Table EnvValue) (name value : String) : Prop :=
  env.get? name = some (.literal value)

theorem Declares.unique {env : Table EnvValue} {name v w : String} (hv : Declares env name v)
    (hw : Declares env name w) : v = w :=
  EnvValue.literal.inj (Option.some.inj (hv.symm.trans hw))

theorem mem_literals_iff {env : Table EnvValue} {name value : String} :
    (name, value) ∈ literals env ↔ Declares env name value := by
  rw [Declares, ← Table.mem_entries_iff, literals, List.mem_filterMap]
  constructor
  · rintro ⟨⟨n, v⟩, he, hsome⟩
    cases v with
    | literal text =>
      obtain ⟨rfl, rfl⟩ := Prod.mk.inj (Option.some.inj hsome)
      exact he
    | secretRef secret key => exact absurd hsome.symm (Option.some_ne_none _)
    | configMapRef map key => exact absurd hsome.symm (Option.some_ne_none _)
  · intro he
    exact ⟨(name, .literal value), he, rfl⟩

/-! ### The container that fetches the source -/

/-- The variables that the container may be given, each with its value where there is one. -/
def sourceVariables (job : Job) (event : Event) (project : Project) : List (String × Option String) :=
  [("FERRY_REPO_URL", project.cloneUrl), ("FERRY_COMMIT", event.commit), ("FERRY_REF", event.gitRef),
    ("FERRY_SOURCE_PATH", some (sourcePath job)), ("FERRY_SSH_KEY", project.repo.sshKey),
    ("FERRY_REPO_TOKEN", project.repo.token)]

theorem sourceEnv_eq (job : Job) (event : Event) (project : Project) :
    sourceEnv job event project = .ofList ((sourceVariables job event project).flatMap fun v =>
      (v.2.map fun value => (v.1, EnvValue.literal value)).toList) := by
  rw [sourceEnv]
  simp only [sourceVariables, List.flatMap_cons, List.flatMap_nil, List.append_nil, List.append_assoc]

/-- It is given those that have a value, and nothing but literals. -/
theorem get?_sourceEnv_eq_some_iff {job : Job} {event : Event} {project : Project} {name : String}
    {v : EnvValue} : (sourceEnv job event project).get? name = some v ↔
      ∃ value, (name, some value) ∈ sourceVariables job event project ∧ v = .literal value := by
  have hmem : ∀ n w, (n, w) ∈ (sourceVariables job event project).flatMap (fun v =>
      (v.2.map fun value => (v.1, EnvValue.literal value)).toList) ↔
        ∃ value, (n, some value) ∈ sourceVariables job event project ∧ w = .literal value := by
    intro n w
    simp only [List.mem_flatMap, Option.mem_toList, Option.map_eq_some_iff, Prod.mk.injEq]
    constructor
    · rintro ⟨⟨m, o⟩, hv, value, rfl, rfl, rfl⟩
      exact ⟨value, hv, rfl⟩
    · rintro ⟨value, hv, rfl⟩
      exact ⟨(n, some value), hv, value, rfl, rfl, rfl⟩
  have hnames : ((sourceVariables job event project).map Prod.fst).Nodup := by
    show ["FERRY_REPO_URL", "FERRY_COMMIT", "FERRY_REF", "FERRY_SOURCE_PATH", "FERRY_SSH_KEY",
      "FERRY_REPO_TOKEN"].Nodup
    decide
  rw [sourceEnv_eq, Table.get?_ofList_eq_some_iff, hmem]
  rintro ⟨n, v⟩ hv ⟨m, w⟩ hw rfl
  obtain ⟨value, hvalue, rfl⟩ := (hmem n v).1 hv
  obtain ⟨other, hother, rfl⟩ := (hmem n w).1 hw
  have hsame := List.inj_on_of_nodup_map hnames hvalue hother rfl
  rw [Option.some.inj (Prod.mk.inj hsame).2]

theorem declares_sourceEnv_iff {job : Job} {event : Event} {project : Project} {name value : String} :
    Declares (sourceEnv job event project) name value ↔
      (name, some value) ∈ sourceVariables job event project := by
  rw [Declares, get?_sourceEnv_eq_some_iff]
  constructor
  · rintro ⟨_, h, ⟨rfl⟩⟩
    exact h
  · exact fun h => ⟨value, h, rfl⟩

/-! ### Literals of all containers -/

/-- A variable with a literal value of one of the containers of a unit, by the scope of the container. -/
inductive Holds (job : Job) (event : Event) (project : Project) :
    (scope : Option String) → (name value : String) → Prop where
  | first {name value : String} :
    Declares job.container.env name value → Holds job event project none name value
  | source {name value : String} :
    fetchesSource job project = true → Declares (sourceEnv job event project) name value →
      Holds job event project (some sourceVolume) name value
  | sidecar {scope name value : String} {c : Container} :
    job.sidecars.get? scope = some c → Declares c.env name value →
      Holds job event project (some scope) name value

variable {job : Job} {event : Event} {project : Project}

theorem mem_carried_iff {scope : Option String} {env : Table EnvValue} {e : String × List UInt8} :
    e ∈ carried .carried scope env ↔
      ∃ name value, Declares env name value ∧ e = (carrierKey scope name, bytesOf value) := by
  show e ∈ (literals env).map _ ↔ _
  rw [List.mem_map]
  constructor
  · rintro ⟨⟨name, value⟩, hmem, rfl⟩
    exact ⟨name, value, mem_literals_iff.1 hmem, rfl⟩
  · rintro ⟨name, value, hd, rfl⟩
    exact ⟨(name, value), mem_literals_iff.2 hd, rfl⟩

/-- The carrier holds the script and the literals of all containers. -/
theorem mem_carrierEntries_iff {e : String × List UInt8} :
    e ∈ carrierEntries .carried job event project ↔
      (job.tasks ≠ [] ∧ e = (scriptKey, bytesOf (taskScript job.shell job.tasks))) ∨
        ∃ scope name value, Holds job event project scope name value ∧
          e = (carrierKey scope name, bytesOf value) := by
  have hscript : e ∈ (if job.tasks.isEmpty then []
      else [(scriptKey, bytesOf (taskScript job.shell job.tasks))]) ↔
        job.tasks ≠ [] ∧ e = (scriptKey, bytesOf (taskScript job.shell job.tasks)) := by
    cases job.tasks <;> simp
  rw [carrierEntries, List.mem_append, List.mem_append, List.mem_append, hscript, mem_carried_iff,
    List.mem_flatMap, or_assoc, or_assoc]
  refine or_congr_right ⟨?_, ?_⟩
  · rintro (⟨name, value, hd, rfl⟩ | hsource | ⟨⟨scope, c⟩, hc, hmem⟩)
    · exact ⟨none, name, value, .first hd, rfl⟩
    · cases hf : fetchesSource job project with
      | false =>
        rw [hf] at hsource
        exact absurd hsource List.not_mem_nil
      | true =>
        rw [hf] at hsource
        obtain ⟨name, value, hd, rfl⟩ := mem_carried_iff.1 hsource
        exact ⟨some sourceVolume, name, value, .source hf hd, rfl⟩
    · obtain ⟨name, value, hd, rfl⟩ := mem_carried_iff.1 hmem
      exact ⟨some scope, name, value, .sidecar (Table.mem_entries_iff.1 hc) hd, rfl⟩
  · rintro ⟨scope, name, value, h, rfl⟩
    cases h with
    | first hd => exact Or.inl ⟨name, value, hd, rfl⟩
    | source hf hd =>
      refine Or.inr (Or.inl ?_)
      rw [if_pos hf]
      exact mem_carried_iff.2 ⟨name, value, hd, rfl⟩
    | sidecar hc hd =>
      exact Or.inr (Or.inr ⟨_, Table.mem_entries_iff.2 hc, mem_carried_iff.2 ⟨name, value, hd, rfl⟩⟩)

/-! ### Keys used for two values -/

/-- No key of the carrier is used for two values. -/
structure Distinguishable (job : Job) (event : Event) (project : Project) : Prop where
  /-- Nothing takes the place of the script. -/
  script : job.tasks ≠ [] → ∀ value,
    (Declares job.container.env scriptKey value ∨
      ∃ c, job.sidecars.get? "main" = some c ∧ Declares c.env "sh" value) →
    value = taskScript job.shell job.tasks
  /-- No variable of the first container is called what one of a sidecar is kept under. -/
  sidecar : ∀ scope c name value other, job.sidecars.get? scope = some c →
    Declares c.env name value → Declares job.container.env (scope ++ "." ++ name) other → value = other
  /-- Nor what one of the container that fetches the source is kept under; and no sidecar has that
  container's name. -/
  source : fetchesSource job project = true → ∀ name value other,
    Declares (sourceEnv job event project) name value →
    (Declares job.container.env (sourceVolume ++ "." ++ name) other ∨
      ∃ c, job.sidecars.get? sourceVolume = some c ∧ Declares c.env name other) →
    value = other

/-- The names of containers hold no dots. -/
theorem Holds.dot_notMem (hvalid : job.validate = .ok ()) {scope name value : String}
    (h : Holds job event project (some scope) name value) : '.' ∉ scope.toList := by
  cases h with
  | source => decide
  | sidecar hc _ =>
    refine dot_notMem_of_nameFault?_eq_none (Job.validate_eq_ok_iff.1 hvalid scope ?_)
    exact List.mem_cons_of_mem _ (List.mem_map_of_mem (f := Prod.fst) (Table.mem_entries_iff.2 hc))

namespace Distinguishable

variable (d : Distinguishable job event project)

include d

theorem eq_script {scope : Option String} {name value : String} (hvalid : job.validate = .ok ())
    (h : Holds job event project scope name value) (ht : job.tasks ≠ [])
    (hkey : carrierKey scope name = scriptKey) : value = taskScript job.shell job.tasks := by
  cases h with
  | first hd =>
    rw [show name = scriptKey from hkey] at hd
    exact d.script ht value (Or.inl hd)
  | source hf hd =>
    rw [scriptKey_eq, scoped_inj (by decide) (by decide)] at hkey
    exact absurd hkey.1 (by decide)
  | sidecar hc hd =>
    have hdot := Holds.dot_notMem hvalid (.sidecar hc hd : Holds job event project _ _ _)
    rw [scriptKey_eq, scoped_inj hdot (by decide)] at hkey
    obtain ⟨rfl, rfl⟩ := hkey
    exact d.script ht value (Or.inr ⟨_, hc, hd⟩)

theorem eq_first {scope name value other : String}
    (h : Holds job event project (some scope) name value)
    (hd : Declares job.container.env (carrierKey (some scope) name) other) : value = other := by
  cases h with
  | source hf hv => exact d.source hf name value other hv (Or.inl hd)
  | sidecar hc hv => exact d.sidecar scope _ name value other hc hv hd

theorem eq_scoped {scope name value other : String}
    (h : Holds job event project (some scope) name value)
    (h' : Holds job event project (some scope) name other) : value = other := by
  cases h with
  | source hf hv =>
    cases h' with
    | source _ hv' => exact hv.unique hv'
    | sidecar hc hv' => exact d.source hf name value other hv (Or.inr ⟨_, hc, hv'⟩)
  | sidecar hc hv =>
    cases h' with
    | source hf hv' => exact (d.source hf name other value hv' (Or.inr ⟨_, hc, hv⟩)).symm
    | sidecar hc' hv' =>
      obtain rfl := Option.some.inj (hc.symm.trans hc')
      exact hv.unique hv'

/-- Values under one key are the same. -/
theorem eq_of_key {s t : Option String} {name name' value other : String}
    (hvalid : job.validate = .ok ()) (h : Holds job event project s name value)
    (h' : Holds job event project t name' other) (hkey : carrierKey s name = carrierKey t name') :
    value = other := by
  cases s with
  | none =>
    cases h with
    | first hd =>
      cases t with
      | none =>
        cases h' with
        | first hd' =>
          rw [show name = name' from hkey] at hd
          exact hd.unique hd'
      | some t =>
        rw [show name = carrierKey (some t) name' from hkey] at hd
        exact (d.eq_first h' hd).symm
  | some s =>
    cases t with
    | none =>
      cases h' with
      | first hd' =>
        rw [← show carrierKey (some s) name = name' from hkey] at hd'
        exact d.eq_first h hd'
    | some t =>
      obtain ⟨rfl, rfl⟩ := (scoped_inj (h.dot_notMem hvalid) (h'.dot_notMem hvalid)).1 hkey
      exact d.eq_scoped h h'

end Distinguishable

/-- **The carrier gives back all that has been put there** if no key is used for two values. -/
theorem stored_iff (hvalid : job.validate = .ok ()) :
    (∀ e ∈ carrierEntries .carried job event project,
      (Table.ofList (carrierEntries .carried job event project)).get? e.1 = some e.2) ↔
        Distinguishable job event project := by
  rw [Table.forall_get?_ofList_iff]
  constructor
  · intro h
    have hkeys : ∀ {s t : Option String} {name name' value other : String},
        Holds job event project s name value → Holds job event project t name' other →
          carrierKey s name = carrierKey t name' → value = other := by
      intro s t name name' value other hv hw hkey
      refine bytesOf_inj.1 (h (carrierKey s name, bytesOf value) ?_ (carrierKey t name', bytesOf other)
        ?_ hkey)
      · exact mem_carrierEntries_iff.2 (Or.inr ⟨s, name, value, hv, rfl⟩)
      · exact mem_carrierEntries_iff.2 (Or.inr ⟨t, name', other, hw, rfl⟩)
    have hscript : ∀ {s : Option String} {name value : String}, job.tasks ≠ [] →
        Holds job event project s name value → carrierKey s name = scriptKey →
          value = taskScript job.shell job.tasks := by
      intro s name value ht hv hkey
      refine bytesOf_inj.1 (h (carrierKey s name, bytesOf value) ?_
        (scriptKey, bytesOf (taskScript job.shell job.tasks)) ?_ hkey)
      · exact mem_carrierEntries_iff.2 (Or.inr ⟨s, name, value, hv, rfl⟩)
      · exact mem_carrierEntries_iff.2 (Or.inl ⟨ht, rfl⟩)
    constructor
    · rintro ht value (hd | ⟨c, hc, hd⟩)
      · exact hscript ht (.first hd) rfl
      · exact hscript ht (.sidecar hc hd) scriptKey_eq.symm
    · intro scope c name value other hc hd hother
      exact hkeys (.sidecar hc hd) (.first hother) rfl
    · rintro hf name value other hd (hother | ⟨c, hc, hother⟩)
      · exact hkeys (.source hf hd) (.first hother) rfl
      · exact hkeys (.source hf hd) (.sidecar hc hother) rfl
  · intro d a ha b hb hkey
    rcases mem_carrierEntries_iff.1 ha with ⟨ht, rfl⟩ | ⟨s, name, value, hv, rfl⟩
    · rcases mem_carrierEntries_iff.1 hb with ⟨-, rfl⟩ | ⟨t, name', other, hw, rfl⟩
      · rfl
      · exact (congrArg bytesOf (d.eq_script hvalid hw ht hkey.symm)).symm
    · rcases mem_carrierEntries_iff.1 hb with ⟨ht, rfl⟩ | ⟨t, name', other, hw, rfl⟩
      · exact congrArg bytesOf (d.eq_script hvalid hv ht hkey)
      · exact congrArg bytesOf (d.eq_of_key hvalid hv hw hkey)

end ExecutionUnit

end EventWorker
