import EventWorker.Command
import EventWorker.Proofs.Cluster.Memory
import EventWorker.Proofs.HandlerFile
import EventWorker.Proofs.Run.Verdict

/-!
# Dry runs

A dry run tells whether the jobs of a file could be run at all. Its cluster has nothing against a unit
and makes every unit succeed at once, so a job fails for one of two reasons only: there is no unit of
it, or there is no time to watch the unit (`Runnable`). Nothing else goes wrong on the way. The project
is there, since the cluster starts out with it; the volume of the run can be claimed, since nothing has
been claimed before; and the cache of one job does not get into the way of that of another.

Which jobs a run comes to depends on the handlers alone: those for its event, and, if there is a handler
for it, those for the event that comes after.

Main statement: `dryRun_decides`.
-/

namespace EventWorker

open Activity

/-! ### A job -/

/-- There is a unit of the job, and some time to watch it. -/
structure Runnable (options : BuildOptions) (scope : RunScope) (now : Int) (j : Job) : Prop where
  built : ∃ u, ExecutionUnit.build options j scope.event scope.project now = .ok u
  timely : 0 < j.timeout.millis

/-- A calm cluster, and nothing in the background. -/
def Undisturbed (w : World MemoryCluster) : Prop :=
  w.seen.source.Calm ∧ w.tasks = []

namespace MemoryCluster

variable {options : BuildOptions} {watcher : Watcher} {scope : RunScope} {j : Job} (now : Int)

/-- What has come of the submission of a job: a pod, if there is a unit. -/
def Submitted (options : BuildOptions) (scope : RunScope) (now : Int) (j : Job) :
    Except JobError UnitRef → MemoryCluster → Prop
  | .error _, m => m.Calm ∧ ¬ Runnable options scope now j
  | .ok u, m => (m.Calm ∧ m.pods.contains u.name) ∧
      (Runnable options scope now j ↔ 0 < j.timeout.millis)

theorem submit_leads : Leads (fun seen => seen.source.Calm)
    ((Backend.pods cluster options watcher).submit j scope)
    fun r seen => Submitted options scope now j r seen.source := by
  refine .bind .now fun moment => .call (P := Calm) (Q := Submitted options scope now j) fun m hm => ?_
  have hsubmit := submit_of_calm hm options j scope.event scope.project moment.millis
  cases hbuild : ExecutionUnit.build options j scope.event scope.project moment.millis with
  | error e =>
    rw [hbuild] at hsubmit
    rw [hsubmit]
    refine ⟨hm, fun h => ?_⟩
    obtain ⟨u, hu⟩ := (ExecutionUnit.exists_build_iff moment.millis).1 h.built
    rw [hbuild] at hu
    cases hu
  | ok u =>
    rw [hbuild] at hsubmit
    obtain ⟨m', hrun, hm', hpod⟩ := hsubmit
    rw [hrun]
    have hbuilt := (ExecutionUnit.exists_build_iff now).1 ⟨u, hbuild⟩
    exact ⟨⟨hm', hpod⟩, fun h => h.timely, fun ht => ⟨hbuilt, ht⟩⟩

theorem observe_leads (hw : ∀ i, watcher = .polling i → 0 < i.millis) {u : UnitRef} :
    Leads (fun seen => seen.source.Calm ∧ seen.source.pods.contains u.name)
      ((Backend.pods cluster options watcher).observe j u) fun r seen => seen.source.Calm ∧
        r = .ok (if 0 < j.timeout.millis then .succeeded else .timedOut) := by
  refine .bind .now fun start => ?_
  have hwatch : Leads (fun seen => seen.source.Calm ∧ seen.source.pods.contains u.name)
      (Errand.watch (watcher.observe cluster.source u j.fallible j.timeout)) fun v seen =>
        seen.source.Calm ∧ v.outcome = .ok (if 0 < j.timeout.millis then .succeeded else .timedOut) := by
    intro s hs
    obtain ⟨v, seen, hobserve, hcalm, hv⟩ := observe_of_calm hw hs.1 hs.2 j.fallible j.timeout
    show (watcher.observe cluster.source u j.fallible j.timeout s.world).2.source.Calm ∧
      (watcher.observe cluster.source u j.fallible j.timeout s.world).1.outcome = _
    rw [hobserve]
    exact ⟨hcalm, hv⟩
  refine .bind hwatch fun v => .bind (.goTo _) fun _ => .pure fun seen hseen => ⟨hseen.1, ?_⟩
  rw [hseen.2]
  rfl

/-- A job is submitted and observed, and succeeds if it can be run. -/
theorem execute_leads (hw : ∀ i, watcher = .polling i → 0 < i.millis) :
    Leads Undisturbed (j.execute (Backend.pods cluster options watcher) scope) fun r w =>
      Undisturbed w ∧ (r.2 = .ok () ↔ Runnable options scope now j) := by
  rw [Job.execute]
  refine .bind (.see (submit_leads now) []) fun r => ?_
  cases r with
  | error e =>
    refine .pure fun w h => ⟨⟨h.1.1, h.2⟩, ?_⟩
    exact iff_of_false (fun heq => by cases heq) h.1.2
  | ok u =>
    refine .weaken (P := fun w => ((w.seen.source.Calm ∧ w.seen.source.pods.contains u.name) ∧
      w.tasks = []) ∧ (Runnable options scope now j ↔ 0 < j.timeout.millis)) (.known fun hiff => ?_)
      fun w h => ⟨⟨h.1.1, h.2⟩, h.1.2⟩
    refine .bind (.emit _) fun _ => .bind (.see (observe_leads hw) []) fun r => ?_
    refine .weaken (P := fun w => Undisturbed w ∧
      r = .ok (if 0 < j.timeout.millis then .succeeded else .timedOut)) (.known fun hr => ?_)
      fun w h => ⟨⟨h.1.1, h.2⟩, h.1.2⟩
    rw [hr, hiff]
    refine .pure fun w h => ⟨h, ?_⟩
    by_cases ht : 0 < j.timeout.millis
    · simp [ht, Job.judge]
    · simp [ht, Job.judge]

/-- A job leaves the cluster as calm as it was. -/
theorem decided_run (hw : ∀ i, watcher = .polling i → 0 < i.millis) :
    Decided Undisturbed (Runnable options scope now j)
      (Job.run (Backend.pods cluster options watcher) scope j) :=
  Job.leads_run (execute_leads now hw)

/-! ### What stands around the handlers -/

/-- The project is there. -/
theorem load_leads (p : Project) :
    Leads (fun w => w.seen.source = succeeding.addProject p ∧ w.tasks = [])
      (Work.see (Errand.call cluster (loadProject p.id)))
      fun r w => (w.seen.source = succeeding.addProject p ∧ w.tasks = []) ∧ r = .ok p := by
  have hcall : Leads (fun seen : Seen MemoryCluster => seen.source = succeeding.addProject p)
      (Errand.call cluster (loadProject p.id))
      fun r seen => seen.source = succeeding.addProject p ∧ r = .ok p := by
    refine .call (P := (· = succeeding.addProject p))
      (Q := fun r m => m = succeeding.addProject p ∧ r = .ok p) fun m hm => ?_
    have hthere : m.projects.get? p.id = some p := by
      rw [hm]
      show ((succeeding.projects.insert p.id p).get? p.id) = some p
      rw [Table.get?_insert, if_pos rfl]
    have hload : (loadProject p.id).run m = (.ok p, m) := by
      simp only [loadProject, run_call, hthere]
    rw [hload]
    exact ⟨hm, rfl⟩
  exact .imp (.see hcall []) fun r w hw => ⟨⟨hw.1.1, hw.2⟩, hw.1.2⟩

/-- The volume of the run can be claimed, since nothing has been claimed before. -/
theorem provision_leads (p : Project) (storage : Cluster.BuildStorage) (event : Event) :
    Leads (fun w => w.seen.source = succeeding.addProject p ∧ w.tasks = [])
      (Work.see (Errand.call cluster (cluster.provision storage event p)))
      fun r w => (Undisturbed w ∧ w.seen.source.pods = {}) ∧ r = .ok () := by
  have hcall : Leads (fun seen : Seen MemoryCluster => seen.source = succeeding.addProject p)
      (Errand.call cluster (cluster.provision storage event p))
      fun r seen => (seen.source.Calm ∧ seen.source.pods = {}) ∧ r = .ok () := by
    refine .call (P := (· = succeeding.addProject p))
      (Q := fun r m => (m.Calm ∧ m.pods = {}) ∧ r = .ok ()) fun m hm => ?_
    have hcalm : m.Calm := hm ▸ calm_succeeding.addProject p
    let claim := buildClaim storage.size storage.storageClass event p
    have habsent : m.claims.get? claim.name = none := by
      rw [hm]
      rfl
    obtain ⟨m', hcreate, hm', hpods⟩ := createClaim_of_get?_eq_none hcalm habsent
    have hprovision : (cluster.provision storage event p).run m = (.ok (), m') := hcreate
    rw [hprovision]
    refine ⟨⟨hm', hpods.trans ?_⟩, rfl⟩
    rw [hm]
    rfl
  exact .imp (.see hcall []) fun r w hw => ⟨⟨⟨hw.1.1.1, hw.2⟩, hw.1.1.2⟩, hw.1.2⟩

/-- Giving the volume back leaves the pods alone. -/
theorem release_leads {P : Table Resource.Pod → Prop} (p : Project) (event : Event) :
    Leads (fun w => P w.seen.source.pods ∧ w.tasks = [])
      (Work.see (Errand.call cluster (cluster.release event p)))
      fun _ w => P w.seen.source.pods ∧ w.tasks = [] := by
  have hcall : Leads (fun seen : Seen MemoryCluster => P seen.source.pods)
      (Errand.call cluster (cluster.release event p)) fun _ seen => P seen.source.pods := by
    refine .call (P := fun m : MemoryCluster => P m.pods)
      (Q := fun _ (m : MemoryCluster) => P m.pods) fun m hm => ?_
    show P ((deleteClaim (buildVolumeName event.runId)).run m).2.pods
    rw [pods_deleteClaim]
    exact hm
  exact .see hcall []

end MemoryCluster

/-! ### A run -/

namespace Command

open HandlerFile

/-- Every job can be run that is declared for the events of a key. -/
def AllRunnable (f : HandlerFile) (options : BuildOptions) (scope : RunScope) (now : Int)
    (key : EventKey) : Prop :=
  ∀ d ∈ f.handlers, d.key = key → ∀ j ∈ d.run.jobs, Runnable options scope now j

theorem fine_step?_iff {f : HandlerFile} (hnodup : (f.handlers.map (·.key)).Nodup)
    {options : BuildOptions} {scope : RunScope} {now : Int} {key : EventKey} :
    Fine f.step? (Runnable options scope now) key ↔ AllRunnable f options scope now key := by
  constructor
  · intro h d hd hkey
    exact h d.run ((step?_eq_some_iff hnodup).2 ⟨d, hd, hkey, rfl⟩)
  · intro h s hs
    obtain ⟨d, hd, hkey, rfl⟩ := (step?_eq_some_iff hnodup).1 hs
    exact h d hd hkey

theorem id_inlineProject (config : Config) : (inlineProject config).id = config.projectId := by
  have hscope : ∀ p, (config.scope p).id = p.id := by
    intro p
    rw [Config.scope]
    cases config.projectNamespace <;> rfl
  rw [inlineProject, hscope]
  cases hproject : config.project with
  | none => rfl
  | some p => exact config.hasProjectId p hproject

/-- The command ends with the exit code of the report. -/
theorem code_dispatch {m : Machine} {a : RunArguments} (ha : a.dryRun = true) {config : Config}
    {bus : Bus Handler} {report : RunReport} {scene : Scene (World MemoryCluster) Entry}
    (hrun : ((dryRun config (watcher a) bus).run config.projectId config.event).run
      { world := .ofCluster (MemoryCluster.succeeding.addProject (inlineProject config)) } =
        (.ok report, scene)) :
    (dispatch m a config bus).code = report.exitCode := by
  have hfinish : ∀ exitOnError, (finish exitOnError (.ok report)).code = report.exitCode := by
    intro exitOnError
    by_cases hcode : report.exitCode = 0
    · simp [finish, hcode]
    · cases exitOnError <;> simp [finish, hcode]
  rw [dispatch, if_pos ha, conduct, hrun]
  exact hfinish _

section

variable {f : HandlerFile} (hnodup : (f.handlers.map (·.key)).Nodup) (config : Config) {w : Watcher}
  (hw : ∀ i, w = .polling i → 0 < i.millis) (now : Int)

include hnodup hw

theorem foreseen_dryRun : Foreseen (dryRun config w (f.register Handler.ofStep {}))
    { event := config.event, project := inlineProject config } f.step?
    (Runnable config.buildOptions { event := config.event, project := inlineProject config } now)
    Undisturbed where
  handler := handler?_register_empty hnodup
  job _ := MemoryCluster.decided_run now hw
  tasks _ h := h.2

/-- The handlers are decided by their jobs, and without one for the event the pods stay as they are. -/
theorem runHandlers_dryRun :
    let scope : RunScope := { event := config.event, project := inlineProject config }
    let all := AllRunnable f config.buildOptions scope now
    Leads (fun w => Undisturbed w ∧ w.seen.source.pods = {})
      ((dryRun config w (f.register Handler.ofStep {})).runHandlers scope) fun first w =>
        ((first = none ↔ all config.event.key ∧
          ((f.step? config.event.key).isSome → all (config.event.source, afterType))) ∧
        (f.step? config.event.key = none → w.seen.source.pods = {})) ∧ w.tasks = [] := by
  intro scope all s hs
  have hforeseen := foreseen_dryRun hnodup config hw now
  obtain ⟨hundisturbed, hverdict⟩ := hforeseen.runHandlers_leads s hs.1
  rw [fine_step?_iff hnodup, fine_step?_iff hnodup] at hverdict
  refine ⟨⟨hverdict, fun hnone => ?_⟩, hundisturbed.2⟩
  have hunhandled : (dryRun config w (f.register Handler.ofStep {})).bus.handler? scope.event.key =
      none :=
    (hforeseen.handler scope.event.key).trans (congrArg (Option.map Handler.ofStep) hnone)
  have hkept := Controller.runHandlers_leads_of_unhandled
    (I := fun w => Undisturbed w ∧ w.seen.source.pods = {}) (fun _ h => h.1.2) hunhandled s hs
  exact hkept.2

end

/-- **A dry run tells whether the jobs that it comes to can be run.** It ends with a report, and no failure
is reported exactly if there is a unit of each such job, at whatever time, and some time to watch it.
Where there is no handler for the event there is nothing to fail, and no pod is created. The configuration is
any that can be read (`Config.ofSettings`, `Config.ofDescriptor`): where the project comes with the event, it
is the one that the run is for (`Config.hasProjectId`). -/
theorem dryRun_decides {text : String} {f : HandlerFile} (hf : parse text = .ok f) (config : Config)
    {w : Watcher} (hw : ∀ i, w = .polling i → 0 < i.millis) (start : Moment) (now : Int) :
    let scope : RunScope := { event := config.event, project := inlineProject config }
    let all := AllRunnable f config.buildOptions scope now
    ∃ report scene,
      ((dryRun config w (f.register Handler.ofStep {})).run config.projectId config.event).run
        { now := start
          world := .ofCluster (MemoryCluster.succeeding.addProject (inlineProject config)) } =
        (.ok report, scene) ∧
      (report.exitCode = 0 ↔ all config.event.key ∧
        ((∃ d ∈ f.handlers, d.key = config.event.key) → all (config.event.source, afterType))) ∧
      ((∀ d ∈ f.handlers, d.key ≠ config.event.key) →
        report.exitCode = 0 ∧ scene.world.seen.source.pods = {}) := by
  intro scope all
  have hnodup := nodup_keys_of_parse hf
  have hload := MemoryCluster.load_leads (inlineProject config)
  rw [id_inlineProject] at hload
  -- the volume is given back after the handlers, which changes nothing of what they have come to
  let settled (first : Option Failure) (pods : Table Resource.Pod) : Prop :=
    (first = none ↔ all config.event.key ∧
      ((f.step? config.event.key).isSome → all (config.event.source, afterType))) ∧
    (f.step? config.event.key = none → pods = {})
  obtain ⟨report, first, hreport, hcode, ⟨hfirst, hpods⟩, -⟩ := Controller.run_leads hload
    (MemoryCluster.provision_leads _ _ _) (runHandlers_dryRun hnodup config hw now)
    (fun first => MemoryCluster.release_leads (P := settled first) _ _)
    { now := start
      world := .ofCluster (MemoryCluster.succeeding.addProject (inlineProject config)) } ⟨rfl, rfl⟩
  have hhandled : (f.step? config.event.key).isSome ↔ ∃ d ∈ f.handlers, d.key = config.event.key := by
    rw [Option.isSome_iff_ne_none, Ne, step?_eq_none_iff]
    simp
  rw [← hcode, hhandled] at hfirst
  refine ⟨report, _, Prod.ext hreport rfl, hfirst, fun hnone => ?_⟩
  constructor
  · refine hfirst.2 ⟨fun d hd hkey => absurd hkey (hnone d hd), ?_⟩
    rintro ⟨d, hd, hkey⟩
    exact absurd hkey (hnone d hd)
  · exact hpods (step?_eq_none_iff.2 hnone)

/-- A file with a job for every push and one that comes after it. -/
def pushHandlers : String :=
  "handlers:\n" ++
  "  - {source: forge, type: push, run: {job: {name: build}}}\n" ++
  "  - {source: forge, type: after, run: {job: {name: tell}}}\n"

def pushConfig : Config where
  projectId := "p"
  event := .primary { id := "e", source := "forge", type := "push" }

/-- There are units of both jobs, so nothing fails. -/
theorem dryRun_decides_pushHandlers : ∃ f, parse pushHandlers = .ok f ∧
    ∃ report scene,
      ((dryRun pushConfig (.polling (.ofSeconds 1)) (f.register Handler.ofStep {})).run
          pushConfig.projectId pushConfig.event).run
        { now := {}
          world := .ofCluster (MemoryCluster.succeeding.addProject (inlineProject pushConfig)) } =
        (.ok report, scene) ∧
      report.exitCode = 0 := by
  have hunits : ((parse pushHandlers).toOption.map fun f =>
      f.handlers.all fun d => d.run.jobs.all fun j => decide (0 < j.timeout.millis) &&
        (ExecutionUnit.build pushConfig.buildOptions j pushConfig.event (inlineProject pushConfig)
          0).isOk) = some true := by
    decide +kernel
  cases hf : parse pushHandlers with
  | error e =>
    rw [hf] at hunits
    cases hunits
  | ok f =>
    rw [hf] at hunits
    simp only [Except.toOption, Option.map_some, Option.some.injEq, List.all_eq_true,
      Bool.and_eq_true, decide_eq_true_eq] at hunits
    have hall : ∀ key, AllRunnable f pushConfig.buildOptions
        { event := pushConfig.event, project := inlineProject pushConfig } 0 key := by
      intro key d hd _ j hj
      obtain ⟨htimely, hbuilt⟩ := hunits d hd j hj
      refine ⟨?_, htimely⟩
      cases hbuild : ExecutionUnit.build pushConfig.buildOptions j pushConfig.event
          (inlineProject pushConfig) 0 with
      | error e =>
        rw [hbuild] at hbuilt
        cases hbuilt
      | ok u => exact ⟨u, rfl⟩
    have hinterval : ∀ i, Watcher.polling (.ofSeconds 1) = .polling i → 0 < i.millis := by
      rintro i ⟨rfl⟩
      decide
    obtain ⟨report, scene, hrun, hcode, -⟩ := dryRun_decides hf pushConfig hinterval {} 0
    exact ⟨f, rfl, report, scene, hrun, hcode.2 ⟨hall _, fun _ => hall _⟩⟩

end Command

end EventWorker
