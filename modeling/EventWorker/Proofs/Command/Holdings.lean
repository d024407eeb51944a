import EventWorker.Proofs.Cluster.Holdings
import EventWorker.Proofs.Command.DryRun
import EventWorker.Proofs.Naming
import EventWorker.Proofs.Run.Spending

/-!
# What a dry run leaves in its cluster

A unit is named after its job and the run, so in one run the units of two jobs have one name only if the
jobs have. A file is read with jobs of one name in it all the same. If the jobs that a dry run may come to
have names of their own, everything that it notes to have created is stored in the end, but for the volume
of the run, which is given back.

Main statement: `creations_accounted`.
-/

namespace EventWorker

open Resource Activity

namespace MemoryCluster

/-! ### Jobs that are still to come -/

/-- A cluster in which there is nothing yet of the jobs that are still to come. -/
structure Awaits (naming : Naming) (event : Event) (jobs : List Job) (m : MemoryCluster) : Prop where
  distinct : (jobs.map (·.name)).Nodup
  proper : ∀ j ∈ jobs, IsJobName j.name
  balanced : m.Balanced
  free : ∀ j ∈ jobs, ∀ now : Nat, ∀ k, k ≠ .claim → unitName naming j.name event now ∉ m.names k
  volume : buildVolumeName event.runId ∈ m.names .claim
  claimDeleteFailure : m.claimDeleteFailure = none

variable {naming : Naming} {event : Event} {jobs : List Job} {m m' : MemoryCluster} {c : Creation}

theorem wanes_awaits (naming : Naming) (event : Event) : Wanes (Awaits naming event) := by
  intro jobs fewer m hsub h
  have hmem : ∀ j ∈ fewer, j ∈ jobs := fun j hj => hsub.subset hj
  obtain ⟨some, hperm, hsublist⟩ := hsub
  refine ⟨?_, fun j hj => h.proper j (hmem j hj), h.balanced, fun j hj => h.free j (hmem j hj), h.volume,
    h.claimDeleteFailure⟩
  exact (hperm.map _).nodup_iff.1 (h.distinct.sublist (hsublist.map _))

/-- Creating a resource does not matter to jobs that it does not belong to. -/
theorem Awaits.created (h : Awaits naming event jobs m) (hc : Created c m m')
    (hfresh : c.name ∉ m.names c.kind)
    (hother : c.kind ≠ .claim → ∀ j ∈ jobs, ∀ now : Nat, unitName naming j.name event now ≠ c.name) :
    Awaits naming event jobs m' where
  distinct := h.distinct
  proper := h.proper
  balanced := hc.balanced hfresh h.balanced
  free j hj now k hk := by
    rw [hc.mem_names_iff]
    rintro (⟨rfl, hname⟩ | hmem)
    · exact hother hk j hj now hname.symm
    · exact h.free j hj now k hk hmem
  volume := hc.mem_names_iff.2 (.inr h.volume)
  claimDeleteFailure := hc.claimDeleteFailure.trans h.claimDeleteFailure

theorem Awaits.withCache (h : Awaits naming event jobs m) (cache : Option Claim) :
    Awaits naming event jobs (m.withCache cache) := by
  cases cache with
  | none => exact h
  | some claim =>
    by_cases hthere : m.claims.contains claim.name
    · rw [MemoryCluster.withCache, if_pos hthere]
      exact h
    · have habsent : m.claims.get? claim.name = none := by simpa [Table.contains] using hthere
      refine h.created (created_claim habsent) ?_ (fun hkind => absurd rfl hkind)
      exact fun hmem => hthere (Table.mem_keys_iff.1 hmem)

/-- No job that is still to come has a unit of the name of this one's. -/
theorem Awaits.unitName_ne {job j : Job} (h : Awaits naming event (job :: jobs) m) (hj : j ∈ jobs)
    {now now' : Nat} : unitName naming j.name event now' ≠ unitName naming job.name event now := by
  intro heq
  have hname : j.name = job.name := eq_of_unitName_eq (h.proper j (List.mem_cons_of_mem _ hj))
    (h.proper job List.mem_cons_self) heq
  have hmem : job.name ∈ jobs.map (·.name) := by
    rw [← hname]
    exact List.mem_map_of_mem hj
  exact (List.nodup_cons.1 h.distinct).1 hmem

/-- What a submission does is over with its job. -/
theorem Awaits.submit {s : Submission} {now : Nat} (hnow : s.now = now) (hnaming : s.options.naming = naming)
    (hevent : s.scope.event = event) (h : Awaits naming event (s.job :: jobs) m) :
    Awaits naming event jobs ((s.submit cluster).run m).2 := by
  have hless : ∀ {m}, Awaits naming event (s.job :: jobs) m → Awaits naming event jobs m :=
    fun h => wanes_awaits naming event _ _ _ (List.sublist_cons_self _ _).subperm h
  obtain ⟨e, -, hrun⟩ | ⟨cause, hrun⟩ | ⟨u, hbuild, hrun⟩ := Submission.submit_cases s m
  · rw [hrun]
    exact hless h
  · rw [hrun]
    exact hless h
  · have hname : u.name = unitName naming s.job.name event now := by
      rw [(ExecutionUnit.name_and_job_of_build hbuild).1, hnaming, hevent, hnow]
    have hother : ∀ j ∈ jobs, ∀ now : Nat, unitName naming j.name event now ≠ u.name := by
      rw [hname]
      exact fun j hj _ => h.unitName_ne hj
    have hcache := h.withCache u.cacheClaim
    have hsecretName : (Creation.secret u.secret).name = u.name := Submission.nameText_secret hbuild
    have hpodName : (Creation.pod u.pod).name = u.name := nameText_pod hbuild
    have hfree := hcache.free s.job List.mem_cons_self now
    rw [← hname] at hfree
    have hready : Awaits naming event jobs (Submission.ready m u) := by
      refine (hless hcache).created (created_secret u.secret _) ?_ ?_
      · rw [hsecretName]
        exact hfree .secret nofun
      · rw [hsecretName]
        exact fun _ => hother
    -- the pod has the name of the secret, which is free all the same, since it is of another kind
    obtain ⟨cause, hrun⟩ | hrun := hrun
    · rw [hrun]
      exact hready
    · rw [hrun]
      refine hready.created (created_pod u.pod _) ?_ ?_
      · rw [hpodName]
        exact hfree .pod nofun
      · rw [hpodName]
        exact fun _ => hother

/-- Looking at a unit changes nothing of what is stored. -/
theorem keeps_awaits (naming : Naming) (event : Event) (jobs : List Job) :
    cluster.source.Keeps (Awaits naming event jobs) where
  read u m h := by
    show Awaits naming event jobs ((readPhase u).run m).2
    rw [readPhase, run_call]
    dsimp only
    split
    all_goals exact ⟨h.distinct, h.proper, h.balanced, h.free, h.volume, h.claimDeleteFailure⟩
  subscribe u m h := by
    show Awaits naming event jobs ((subscribe u).run m).2
    rw [subscribe, run_call]
    dsimp only
    split
    all_goals exact ⟨h.distinct, h.proper, h.balanced, h.free, h.volume, h.claimDeleteFailure⟩

/-- A job is over when it has been run. -/
theorem spends_job (options : BuildOptions) (watcher : Watcher) (scope : RunScope) (j : Job) :
    Spends (fun jobs => Around (Awaits options.naming scope.event jobs)) [j]
      (Job.run (Backend.pods cluster options watcher) scope j) := by
  intro rest
  refine Job.leads_around (P := Awaits options.naming scope.event (j :: rest))
    (Q := Awaits options.naming scope.event rest) ?_ ?_
  · refine .bind .now fun now => .call (P := Awaits options.naming scope.event (j :: rest))
      (Q := fun _ => Awaits options.naming scope.event rest) fun m hm => ?_
    exact Awaits.submit (s := { options, job := j, scope, now := now.millis }) rfl rfl rfl hm
  · exact fun u => Backend.keeps_watchUnit (keeps_awaits options.naming scope.event rest) watcher j u

/-! ### The volume of the run -/

/-- All jobs are still to come when the volume of the run has been claimed. -/
theorem awaits_provision (naming : Naming) (hused : m.Unused) (hdelete : m.claimDeleteFailure = none)
    (hdistinct : (jobs.map (·.name)).Nodup) (hproper : ∀ j ∈ jobs, IsJobName j.name)
    (storage : Cluster.BuildStorage) (project : Project) :
    ((cluster.provision storage event project).run m).1 = .ok () ∧
      Awaits naming event jobs ((cluster.provision storage event project).run m).2 := by
  let claim := buildClaim storage.size storage.storageClass event project
  have habsent : m.claims.get? claim.name = none := by
    rw [hused.claims]
    rfl
  have hrun : (cluster.provision storage event project).run m = (.ok (), m.withCache (some claim)) :=
    createClaim_run habsent
  have hcreated := created_claim habsent
  have hfresh : ∀ name k, name ∉ m.names k := by
    intro name k
    rw [hused.names_eq]
    exact List.not_mem_nil
  rw [hrun]
  refine ⟨rfl, hdistinct, hproper, hcreated.balanced (hfresh _ _) hused.balanced, ?_, ?_,
    hcreated.claimDeleteFailure.trans hdelete⟩
  · intro j _ now k hk
    rw [hcreated.mem_names_iff]
    rintro (⟨rfl, -⟩ | hmem)
    · exact hk rfl
    · exact hfresh _ _ hmem
  · exact hcreated.mem_names_iff.2 (.inl ⟨rfl, rfl⟩)

/-- A deletion is noted otherwise than a creation. -/
theorem noted_delete (m : MemoryCluster) (name : String) (k : Kind) :
    (m.note ("delete-claim:" ++ name)).noted k = m.noted k := by
  have hmark : k.mark.toList.isPrefixOf ("delete-claim:" ++ name).toList = false := by
    rw [String.toList_append]
    cases k <;> simp only [Kind.mark, String.reduceToList, List.cons_append] <;> rfl
  rw [noted, note, List.countP_append, List.countP_singleton, hmark]
  rfl

/-- What the cluster is like when the volume has been given back. -/
def released (m : MemoryCluster) (volume : String) : MemoryCluster :=
  { ({ m with claimDeletes := m.claimDeletes + 1 } : MemoryCluster).note ("delete-claim:" ++ volume) with
    claims := m.claims.erase volume }

theorem release_run (h : Awaits naming event jobs m) (project : Project) :
    (cluster.release event project).run m = (.ok (), m.released (buildVolumeName event.runId)) := by
  have hthere : m.claims.contains (buildVolumeName event.runId) := Table.mem_keys_iff.1 h.volume
  simp only [Cluster.release, cluster, deleteClaim, call, ExceptT.run, ExceptT.mk, released,
    h.claimDeleteFailure]
  exact if_pos hthere

/-- A claim that is there is one less when it has been deleted. -/
theorem length_names_released {volume : String} (h : volume ∈ m.names .claim) (k : Kind) :
    (m.names k).length = ((m.released volume).names k).length + if k = .claim then 1 else 0 := by
  cases k with
  | secret => rfl
  | pod => rfl
  | claim =>
    have herase : (m.claims.erase volume).keys = m.claims.keys.erase volume := by
      rw [m.claims.nodup_keys.erase_eq_filter, Table.keys, Table.keys, List.filter_map]
      rfl
    show m.claims.keys.length = (m.claims.erase volume).keys.length + 1
    have hmem : volume ∈ m.claims.keys := h
    have hpos : 0 < m.claims.keys.length := List.length_pos_of_mem hmem
    rw [herase, List.length_erase_of_mem hmem]
    omega

/-- The volume is noted, and no longer there. -/
theorem noted_release (h : Awaits naming event jobs m) (project : Project) (k : Kind) :
    let after := ((cluster.release event project).run m).2
    after.noted k = (after.names k).length + if k = .claim then 1 else 0 := by
  dsimp only
  rw [release_run h project, ← length_names_released h.volume, ← h.balanced k]
  exact noted_delete _ _ k

theorem unused_succeeding (p : Project) : (succeeding.addProject p).Unused :=
  ⟨rfl, rfl, rfl, rfl⟩

/-- In a dry run nothing has been done before the volume is claimed. -/
theorem awaits_leads (naming : Naming) (hdistinct : (jobs.map (·.name)).Nodup)
    (hproper : ∀ j ∈ jobs, IsJobName j.name) (storage : Cluster.BuildStorage) (p : Project) :
    Leads (fun w => w.seen.source = succeeding.addProject p ∧ w.tasks = [])
      (Work.see (Errand.call cluster (cluster.provision storage event p)))
      fun r w => Around (Awaits naming event jobs) w ∧ r = .ok () := by
  refine .weaken (.aroundCall (P := (· = succeeding.addProject p))
    (Q := fun (r : Except ClusterError Unit) m => Awaits naming event jobs m ∧ r = .ok ()) ?_)
    fun _ hw => hw.1
  rintro m rfl
  obtain ⟨hok, hawaits⟩ := awaits_provision naming (unused_succeeding p) rfl hdistinct hproper
    storage p
  exact ⟨hawaits, hok⟩

theorem noted_leads (naming : Naming) (p : Project) (k : Kind) :
    Leads (Around (Awaits naming event [])) (Work.see (Errand.call cluster (cluster.release event p)))
      fun _ => Around fun after => after.noted k = (after.names k).length + if k = .claim then 1 else 0 :=
  .aroundCall (P := Awaits naming event []) (Q := fun (_ : Except ClusterError Unit) after =>
    after.noted k = (after.names k).length + if k = .claim then 1 else 0) fun _ hm => noted_release hm p k

end MemoryCluster

namespace Command

open HandlerFile MemoryCluster Controller

/-- The jobs that the run of an event may come to: those for the event, for the failure that is told of, and
for what comes after. -/
def jobsOf (f : HandlerFile) (event : Event) : List Job :=
  jobsFor f.step? event.key ++ (jobsFor f.step? (event.source, errorType) ++
    jobsFor f.step? (event.source, afterType))

theorem isJobName_of_mem_jobsOf {text : String} {f : HandlerFile} (hf : parse text = .ok f) {event : Event}
    {j : Job} (hj : j ∈ jobsOf f event) : IsJobName j.name := by
  have hproper := (parse_eq_ok_iff.1 hf).2
  have hdeclared : ∀ key, j ∈ jobsFor f.step? key → IsJobName j.name := by
    intro key hj
    cases hstep : f.step? key with
    | none =>
      rw [jobsFor, hstep] at hj
      cases hj
    | some s =>
      rw [jobsFor, hstep] at hj
      obtain ⟨d, hd, -, rfl⟩ := (step?_eq_some_iff hproper.nodup).1 hstep
      exact nameFault?_eq_none_iff.1
        (hproper.named d hd j (Step.mem_jobs_iff.1 hj) j.name List.mem_cons_self)
  rw [jobsOf, List.mem_append, List.mem_append] at hj
  obtain hj | hj | hj := hj
  · exact hdeclared _ hj
  · exact hdeclared _ hj
  · exact hdeclared _ hj

/-- The cluster in the end of a dry run that begins at a moment. -/
def clusterAfter (f : HandlerFile) (config : Config) (w : Watcher) (start : Moment) : MemoryCluster :=
  (((dryRun config w (f.register Handler.ofStep {})).run config.projectId config.event).run
    { now := start
      world := .ofCluster (succeeding.addProject (inlineProject config)) }).2.world.seen.source

/-- **A dry run has stored what it has noted**, apart from the volume of the run, if the jobs that it may
come to have names of their own. -/
theorem noted_clusterAfter {text : String} {f : HandlerFile} (hf : parse text = .ok f) (config : Config)
    (w : Watcher) (start : Moment) (hdistinct : ((jobsOf f config.event).map (·.name)).Nodup) (k : Kind) :
    (clusterAfter f config w start).noted k =
      ((clusterAfter f config w start).names k).length + if k = .claim then 1 else 0 := by
  have hload := load_leads (inlineProject config)
  rw [id_inlineProject] at hload
  let scope : RunScope := { event := config.event, project := inlineProject config }
  have hhandlers := spends_runHandlers (c := dryRun config w (f.register Handler.ofStep {}))
    (wanes_awaits config.buildOptions.naming config.event)
    (handler?_register_empty (nodup_keys_of_parse hf)) (spends_job config.buildOptions w scope)
  have hproper : ∀ j ∈ jobsOf f config.event, IsJobName j.name :=
    fun _ hj => isJobName_of_mem_jobsOf hf hj
  obtain ⟨report, first, -, -, hnoted⟩ := run_leads hload (awaits_leads _ hdistinct hproper _ _) hhandlers
    (fun _ => noted_leads _ _ k)
    { now := start
      world := .ofCluster (succeeding.addProject (inlineProject config)) } ⟨rfl, rfl⟩
  exact hnoted

/-- **What is noted of creations agrees with what is stored.** After any creations in a cluster to which
nothing has been done, as many resources of a kind are noted as are stored exactly if no two of the kind
have been created under one name, and exactly then each of them has added a resource and left the others as
they were. Of claims this is always so; secrets and pods are all created, unless pods are turned down. After
a dry run as much is noted as is stored, and the volume of the run besides, if the jobs that it may come to
have names of their own. -/
theorem creations_accounted (k : Kind) :
    (∀ m : MemoryCluster, m.Unused → ∀ cs : List Creation,
      ((m.createAll cs).noted k = ((m.createAll cs).names k).length ↔ (m.created cs k).Nodup) ∧
      ((∀ s ∈ m.successes cs, s.creation.kind = k → s.Adds) ↔ (m.created cs k).Nodup) ∧
      (k = .claim → (m.created cs k).Nodup) ∧
      (k ≠ .claim → m.podRejection = none →
        m.created cs k = (cs.filter fun c => c.kind = k).map Creation.name)) ∧
    ∀ (text : String) (f : HandlerFile), parse text = .ok f → ∀ (config : Config) (w : Watcher)
      (start : Moment), ((jobsOf f config.event).map (·.name)).Nodup →
      (clusterAfter f config w start).noted k =
        ((clusterAfter f config w start).names k).length + if k = .claim then 1 else 0 := by
  constructor
  · intro m hused cs
    exact accounted_createAll hused cs k
  · intro text f hf config w start hdistinct
    exact noted_clusterAfter hf config w start hdistinct k

/-- The jobs for a push and for what comes after it have names of their own. -/
theorem creations_accounted_pushHandlers : ∃ f, parse pushHandlers = .ok f ∧
    (clusterAfter f pushConfig (.polling (.ofSeconds 1)) {}).noted .pod =
      ((clusterAfter f pushConfig (.polling (.ofSeconds 1)) {}).names .pod).length ∧
    ∀ s ∈ MemoryCluster.successes {} [.claim (sharedClaim "spare" "ci" "1Gi" none {})],
      s.creation.kind = .claim → s.Adds := by
  obtain ⟨f, hf, hjobs⟩ : ∃ f, parse pushHandlers = .ok f ∧
      (jobsOf f pushConfig.event).map (·.name) = ["build", "tell"] :=
    Except.exists_ok_of_any (by decide +kernel)
  have hdistinct : ((jobsOf f pushConfig.event).map (·.name)).Nodup := by
    rw [hjobs]
    decide
  obtain ⟨-, hadds, hclaims, -⟩ := (creations_accounted .claim).1 {} ⟨rfl, rfl, rfl, rfl⟩
    [.claim (sharedClaim "spare" "ci" "1Gi" none {})]
  have hpods := (creations_accounted .pod).2 pushHandlers f hf pushConfig (.polling (.ofSeconds 1)) {}
    hdistinct
  rw [if_neg nofun, Nat.add_zero] at hpods
  exact ⟨f, hf, hpods, hadds.2 (hclaims rfl)⟩

/-- A file with two jobs of one name for every push. -/
def namesakeHandlers : String :=
  "handlers:\n" ++
  "  - {source: forge, type: push, run: {serial: [{job: {name: build}}, {job: {name: build}}]}}\n"

/-- The file is accepted. Both jobs are noted, and the unit of the second has taken the place of the first. -/
theorem not_accounted_namesakeHandlers : ∃ f, parse namesakeHandlers = .ok f ∧
    (clusterAfter f pushConfig (.polling (.ofSeconds 1)) {}).operations =
      ["claim:build-e", "secret:build-e", "pod:build-e", "secret:build-e", "pod:build-e",
        "delete-claim:build-e"] ∧
    (clusterAfter f pushConfig (.polling (.ofSeconds 1)) {}).noted .pod = 2 ∧
    (clusterAfter f pushConfig (.polling (.ofSeconds 1)) {}).names .pod = ["build-e"] :=
  Except.exists_ok_of_any (by decide +kernel)

end Command

end EventWorker
