import EventWorker.Proofs.Unit.Contents
import EventWorker.Proofs.Unit.Secrecy
import EventWorker.Proofs.Unit.Sourceless

/-!
# Credentials of the repository

A project may have a key and a token for its repository. Only the container that fetches the source is
given them, and it is given them as any container is given its literals: by reference to the unit's secret
where literals are carried, and in the pod where they are inline. So the pod is the same whatever they are
only where literals are carried or nothing is fetched.

Main statement: `credentials_carried_iff`.
-/

namespace EventWorker

/-- Of the key and the token it is left whether they are there. -/
def Project.withoutCredentials (p : Project) : Project :=
  { p with
    repo := { p.repo with
      sshKey := p.repo.sshKey.map fun _ => ""
      token := p.repo.token.map fun _ => "" } }

variable {project project' : Project}

/-- Projects that are the same without credentials differ in nothing else. -/
theorem Project.eq_of_withoutCredentials
    (h : project.withoutCredentials = project'.withoutCredentials) :
    project' = { project with
      repo := { project.repo with
        sshKey := project'.repo.sshKey
        token := project'.repo.token } } := by
  obtain ⟨_, _, _, _, ⟨_, _, _⟩, _, _, _, _, _⟩ := project
  obtain ⟨_, _, _, _, ⟨_, _, _⟩, _, _, _, _, _⟩ := project'
  simp only [withoutCredentials, mk.injEq, Repository.mk.injEq] at h
  obtain ⟨rfl, rfl, rfl, rfl, ⟨rfl, -, -⟩, rfl, rfl, rfl, rfl, rfl⟩ := h
  rfl

theorem Project.redact_withoutCredentials (p : Project) : p.withoutCredentials.redact = p.redact := by
  simp only [redact, withoutCredentials, Option.map_map]
  rfl

namespace ExecutionUnit

open Resource

/-- The variables that credentials are given in. -/
def credentialNames : List String :=
  ["FERRY_SSH_KEY", "FERRY_REPO_TOKEN"]

/-- A variable is nothing but a reference to something that the unit's secret holds. -/
def IsCarried (u : ExecutionUnit) (v : EnvVar) : Prop :=
  ∃ key, v = { name := v.name, secretKey := some { name := u.secret.metadata.name, key } } ∧
    (u.stored key).isSome = true

/-- Credentials are given to the containers that run first by reference to the unit's secret only. -/
def KeepsCredentials (u : ExecutionUnit) : Prop :=
  ∀ c ∈ u.initContainers, ∀ v ∈ c.env.getD [], v.name ∈ credentialNames → u.IsCarried v

variable {options : BuildOptions} {job : Job} {event : Event} {now : Int} {u : ExecutionUnit}

/-! ### Variables of the container that fetches the source -/

theorem mem_envVars_inline_iff (carrier : String) (scope : Option String) {env : Table EnvValue}
    {name value : String} :
    { name, value := some value } ∈ envVars carrier .inline scope env ↔ Declares env name value := by
  rw [Declares, ← Table.mem_entries_iff, envVars, List.mem_map]
  constructor
  · rintro ⟨⟨n, v⟩, he, hv⟩
    cases v with
    | literal text =>
      obtain ⟨rfl, hvalue⟩ := (EnvVar.mk.injEq ..).mp hv
      obtain rfl := Option.some.inj hvalue.1
      exact he
    | secretRef secret key => exact absurd (congrArg EnvVar.value hv) (Option.some_ne_none value).symm
    | configMapRef map key => exact absurd (congrArg EnvVar.value hv) (Option.some_ne_none value).symm
  · exact fun he => ⟨_, he, rfl⟩

/-- The key and the token are literals of this container if there are any. -/
theorem declares_sshKey_iff (job : Job) (event : Event) {value : String} :
    Declares (sourceEnv job event project) "FERRY_SSH_KEY" value ↔ project.repo.sshKey = some value := by
  rw [declares_sourceEnv_iff]
  simp [sourceVariables, eq_comm]

theorem declares_token_iff (job : Job) (event : Event) {value : String} :
    Declares (sourceEnv job event project) "FERRY_REPO_TOKEN" value ↔
      project.repo.token = some value := by
  rw [declares_sourceEnv_iff]
  simp [sourceVariables, eq_comm]

theorem exists_credential_iff (job : Job) (event : Event) :
    (∃ name ∈ credentialNames, ∃ value, Declares (sourceEnv job event project) name value) ↔
      ¬ (project.repo.sshKey = none ∧ project.repo.token = none) := by
  simp only [credentialNames, List.exists_mem_cons_iff, List.not_mem_nil, false_and, exists_false,
    or_false, declares_sshKey_iff, declares_token_iff, ← Option.isSome_iff_exists,
    ← Option.isNone_iff_eq_none, not_and_or, Bool.not_eq_true, Option.isNone_eq_false_iff]

/-! ### Units of projects with other credentials -/

/-- What is wrong with a job has nothing to do with credentials. -/
theorem error_of_withoutCredentials (h : project.withoutCredentials = project'.withoutCredentials)
    {e : BuildError} (he : build options job event project now = .error e) :
    build options job event project' now = .error e := by
  have hproject := Project.eq_of_withoutCredentials h
  have hdocker : checkDocker job project' = checkDocker job project := by
    rw [hproject]
    rfl
  have hsystem : ∀ unit, systemNames unit job event project' = systemNames unit job event project := by
    intro unit
    rw [hproject]
    rfl
  have hmounts : project'.allowHostMounts = project.allowHostMounts := by
    rw [hproject]
  rw [build_eq_error_iff_checks] at he ⊢
  rw [hdocker, hsystem, attached_congr rfl rfl rfl hmounts]
  exact he

/-- Where literals are carried, or nothing is fetched, the pods are the same. -/
theorem pod_of_withoutCredentials (h : project.withoutCredentials = project'.withoutCredentials)
    (hkept : options.literals = .carried ∨ fetchesSource job project = false) :
    (build options job event project now).map (·.pod) =
      (build options job event project' now).map (·.pod) := by
  rcases hkept with hmode | hf
  · have hredact : project.redact = project'.redact := by
      rw [← Project.redact_withoutCredentials, h, Project.redact_withoutCredentials]
    rcases build_discreet hmode (rfl : job.redact = job.redact) (rfl : event.redact = event.redact)
        hredact now with
      ⟨e, he, he'⟩ | ⟨u, u', hu, hu', hsame⟩
    · rw [he, he']
    · rw [hu, hu']
      exact congrArg Except.ok hsame.pod
  · have hproject := Project.eq_of_withoutCredentials h
    have hf' : fetchesSource job project' = false := by
      rw [hproject]
      exact hf
    have hbare : project.withoutSource = project'.withoutSource := by
      rw [hproject]
      rfl
    rw [← build_withoutSource hf, ← build_withoutSource hf', hbare]

/-- Where they are inline, a pod with a container that fetches the source tells the credentials. -/
theorem credentials_eq_of_pod {u' : ExecutionUnit} (hmode : options.literals = .inline)
    (hf : fetchesSource job project = true) (hf' : fetchesSource job project' = true)
    (hu : build options job event project now = .ok u)
    (hu' : build options job event project' now = .ok u') (hpod : u.pod = u'.pod) :
    project.repo.sshKey = project'.repo.sshKey ∧ project.repo.token = project'.repo.token := by
  obtain ⟨declared, hbuilt⟩ := built_of_build hu
  obtain ⟨declared', hbuilt'⟩ := built_of_build hu'
  have hinit : u.initContainers = u'.initContainers := by
    rw [initContainers, initContainers, hpod]
  rw [initContainers_eq hbuilt.pod, initContainers_eq hbuilt'.pod, if_pos hf, if_pos hf', hmode] at hinit
  have henv := congrArg (fun c => c.env.getD []) (List.cons.inj hinit).1
  simp only [sourceContainer, getD_unlessEmpty] at henv
  have hsame : ∀ name value, Declares (sourceEnv job event project) name value ↔
      Declares (sourceEnv job event project') name value := by
    intro name value
    rw [← mem_envVars_inline_iff u.name (some sourceVolume), henv,
      mem_envVars_inline_iff]
  constructor
  · refine Option.ext fun value => ?_
    rw [← declares_sshKey_iff job event, hsame, declares_sshKey_iff]
  · refine Option.ext fun value => ?_
    rw [← declares_token_iff job event, hsame, declares_token_iff]

/-- When the container that fetches the source is given credentials by reference only. -/
theorem keepsCredentials_iff (hu : build options job event project now = .ok u) :
    u.KeepsCredentials ↔ options.literals = .carried ∨ fetchesSource job project = false ∨
      (project.repo.sshKey = none ∧ project.repo.token = none) := by
  obtain ⟨declared, hbuilt⟩ := built_of_build hu
  have hinit := initContainers_eq hbuilt.pod
  have henv : ((sourceContainer u.name options.literals job event project).env.getD []) =
      envVars u.name options.literals (some sourceVolume) (sourceEnv job event project) :=
    getD_unlessEmpty _
  cases hf : fetchesSource job project with
  | false =>
    rw [if_neg (by simp [hf])] at hinit
    simp [KeepsCredentials, hinit]
  | true =>
    rw [if_pos hf] at hinit
    simp only [KeepsCredentials, hinit, List.mem_singleton, forall_eq, henv]
    cases hmode : options.literals with
    | carried =>
      refine iff_of_true (fun v hv _ => ?_) (Or.inl rfl)
      obtain ⟨⟨name, w⟩, he, rfl⟩ := List.mem_map.1 hv
      obtain ⟨value, hvalue, rfl⟩ := get?_sourceEnv_eq_some_iff.1 (Table.mem_entries_iff.1 he)
      have hcarrier : u.secret.metadata.name = some u.name := by
        rw [hbuilt.secret]
        rfl
      refine ⟨carrierKey (some sourceVolume) name, ?_, ?_⟩
      · rw [hcarrier]
        rfl
      · refine Option.isSome_iff_exists.2 (((build_holds_exactly hu).keys _).2 (Or.inr ⟨hmode, value, ?_⟩))
        exact IsLiteral.source hf hvalue
    | inline =>
      rw [or_iff_right LiteralMode.noConfusion, or_iff_right Bool.noConfusion, ← not_iff_not,
        ← exists_credential_iff job event]
      constructor
      · intro hkept
        push Not at hkept
        obtain ⟨v, hv, hname, -⟩ := hkept
        obtain ⟨⟨name, w⟩, he, rfl⟩ := List.mem_map.1 hv
        obtain ⟨value, hvalue, rfl⟩ := get?_sourceEnv_eq_some_iff.1 (Table.mem_entries_iff.1 he)
        exact ⟨name, hname, value, declares_sourceEnv_iff.2 hvalue⟩
      · rintro ⟨name, hname, value, hd⟩ hkept
        obtain ⟨key, hv, -⟩ := hkept _ ((mem_envVars_inline_iff _ _).2 hd) hname
        exact absurd (congrArg EnvVar.value hv) (Option.some_ne_none value)

/-- **When credentials are backed by the carrier.** Two projects that differ in the values of their
credentials only have the same pod, or are refused for the same reason, exactly if literals are carried,
nothing is fetched, they have the same credentials after all, or there is no unit. The container that
fetches the source is given credentials by reference to the unit's secret only, exactly if literals are
carried, nothing is fetched or there are none. -/
theorem credentials_carried_iff (h : project.withoutCredentials = project'.withoutCredentials)
    (options : BuildOptions) (job : Job) (event : Event) (now : Int) :
    ((build options job event project now).map (·.pod) =
        (build options job event project' now).map (·.pod) ↔
      options.literals = .carried ∨ fetchesSource job project = false ∨
        (project.repo.sshKey = project'.repo.sshKey ∧ project.repo.token = project'.repo.token) ∨
        ∃ e, build options job event project now = .error e) ∧
    ∀ u, build options job event project now = .ok u →
      (u.KeepsCredentials ↔ options.literals = .carried ∨ fetchesSource job project = false ∨
        (project.repo.sshKey = none ∧ project.repo.token = none)) := by
  refine ⟨⟨fun hpods => ?_, ?_⟩, fun u hu => keepsCredentials_iff hu⟩
  · cases hmode : options.literals with
    | carried => exact Or.inl rfl
    | inline =>
      cases hf : fetchesSource job project with
      | false => exact Or.inr (Or.inl rfl)
      | true =>
        have hf' : fetchesSource job project' = true := by
          rw [Project.eq_of_withoutCredentials h]
          exact hf
        cases hu : build options job event project now with
        | error e => exact Or.inr (Or.inr (Or.inr ⟨e, rfl⟩))
        | ok u =>
          cases hu' : build options job event project' now with
          | error e =>
            rw [hu, hu'] at hpods
            cases hpods
          | ok u' =>
            rw [hu, hu'] at hpods
            exact Or.inr (Or.inr (Or.inl
              (credentials_eq_of_pod hmode hf hf' hu hu' (Except.ok.inj hpods))))
  · rintro (hmode | hf | ⟨hkey, htoken⟩ | ⟨e, he⟩)
    · exact pod_of_withoutCredentials h (Or.inl hmode)
    · exact pod_of_withoutCredentials h (Or.inr hf)
    · rw [Project.eq_of_withoutCredentials h, ← hkey, ← htoken]
    · rw [he, error_of_withoutCredentials h he]

/-! ### A unit that tells its key -/

/-- Where literals are carried, the key of a repository makes no difference to the pod. -/
theorem credentials_carried_guarded :
    (guardedProject "key1").withoutCredentials = (guardedProject "key2").withoutCredentials ∧
      (build {} (guarded "swordfish" "make") (guardedEvent "one") (guardedProject "key1") 0).map (·.pod) =
        (build {} (guarded "swordfish" "make") (guardedEvent "one") (guardedProject "key2") 0).map
          (·.pod) := by
  have h : (guardedProject "key1").withoutCredentials = (guardedProject "key2").withoutCredentials := rfl
  exact ⟨h, (credentials_carried_iff h {} _ _ 0).1.2 (Or.inl rfl)⟩

/-- A worker that puts literals into the pod. -/
def outspoken : BuildOptions where
  literals := .inline

/-- Where they are inline, the pod tells the key, and differs from that for another key. -/
theorem not_carried_outspoken :
    (guardedProject "key1").withoutCredentials = (guardedProject "key2").withoutCredentials ∧
      (∃ u, build outspoken (guarded "swordfish" "make") (guardedEvent "one") (guardedProject "key1") 0 =
          .ok u ∧ ¬ u.KeepsCredentials ∧
        ∃ c ∈ u.initContainers, { name := "FERRY_SSH_KEY", value := some "key1" } ∈ c.env.getD []) ∧
      (build outspoken (guarded "swordfish" "make") (guardedEvent "one") (guardedProject "key1") 0).map
          (·.pod) ≠
        (build outspoken (guarded "swordfish" "make") (guardedEvent "one") (guardedProject "key2") 0).map
          (·.pod) := by
  have hf : ∀ key, fetchesSource (guarded "swordfish" "make") (guardedProject key) = true := fun key => by
    rw [show fetchesSource (guarded "swordfish" "make") (guardedProject key) =
      fetchesSource (guarded "swordfish" "make") (guardedProject "") from rfl]
    decide +kernel
  obtain ⟨u, hu⟩ : ∃ u, build outspoken (guarded "swordfish" "make") (guardedEvent "one")
      (guardedProject "key1") 0 = .ok u := Except.exists_ok_of_isOk (by decide +kernel)
  obtain ⟨u', hu'⟩ : ∃ u, build outspoken (guarded "swordfish" "make") (guardedEvent "one")
      (guardedProject "key2") 0 = .ok u := Except.exists_ok_of_isOk (by decide +kernel)
  obtain ⟨declared, hbuilt⟩ := built_of_build hu
  refine ⟨rfl, ⟨u, hu, ?_, ?_⟩, fun hpods => ?_⟩
  · rw [keepsCredentials_iff hu, hf]
    rintro (hmode | hf | ⟨hkey, -⟩)
    · cases hmode
    · cases hf
    · cases hkey
  · rw [initContainers_eq hbuilt.pod, if_pos (hf "key1")]
    refine ⟨_, List.mem_singleton_self _, ?_⟩
    rw [sourceContainer, getD_unlessEmpty]
    exact (mem_envVars_inline_iff _ _).2 ((declares_sshKey_iff _ _).2 rfl)
  · rw [hu, hu'] at hpods
    have hsame := credentials_eq_of_pod rfl (hf "key1") (hf "key2") hu hu' (Except.ok.inj hpods)
    exact absurd hsame.1 (by decide)

end ExecutionUnit

end EventWorker
