import EventWorker.Proofs.Cluster.Submission
import EventWorker.Proofs.HandlerFile
import EventWorker.Proofs.Run.Keeping

/-!
# Claims over a run

All claims of a cluster in memory share one space of names, and the names of caches and of the volumes of
runs are made of texts that anybody may choose. Still a run takes away nothing but the volume that it has
claimed for itself: a claim is created only where there is none of its name, so what has been claimed
stays, and what is added by the jobs of a run is the caches that they want (`Grows`), each of them made
when the unit of such a job is submitted (`MadeFor`). Where the name of the run's own volume is taken
already the run ends before it begins; otherwise that name is free again in the end, whoever has found a
cache under it in the meantime.

Main statement: `run_claims`.
-/

namespace EventWorker

open Resource Activity

namespace MemoryCluster

/-! ### Claims that are added -/

/-- The claim is that of the cache of a unit of a kind, and is made among the operations, right before the
secret of the unit. -/
def MadeFor (kind : ExecutionUnit → Prop) (operations : List String) (claim : Claim) : Prop :=
  ∃ u, kind u ∧ u.cacheClaim = some claim ∧
    ["claim:" ++ claim.name, "secret:" ++ u.name] <:+: operations

theorem MadeFor.mono {kind : ExecutionUnit → Prop} {done more : List String} {claim : Claim}
    (h : MadeFor kind done claim) (hmore : done <:+: more) : MadeFor kind more claim := by
  obtain ⟨u, hu, hclaim, hmade⟩ := h
  exact ⟨u, hu, hclaim, hmade.trans hmore⟩

/-- From one state to the other no claim has been removed or replaced, and every new one has been made for a
unit of a kind by what was done. -/
structure Grows (kind : ExecutionUnit → Prop) (before after : MemoryCluster) : Prop where
  claimDeleteFailure : after.claimDeleteFailure = before.claimDeleteFailure
  kept : ∀ name claim, before.claims.get? name = some claim → after.claims.get? name = some claim
  new : ∃ done, after.operations = before.operations ++ done ∧
    ∀ name claim, after.claims.get? name = some claim →
      before.claims.get? name = some claim ∨ (claim.name = name ∧ MadeFor kind done claim)

namespace Grows

variable {kind : ExecutionUnit → Prop} {a b c : MemoryCluster} {done : List String}

theorem of_eq (hclaims : b.claims = a.claims) (hfailure : b.claimDeleteFailure = a.claimDeleteFailure)
    (hdone : b.operations = a.operations ++ done) : Grows kind a b where
  claimDeleteFailure := hfailure
  kept _ _ h := hclaims ▸ h
  new := ⟨done, hdone, fun _ _ h => .inl (hclaims ▸ h)⟩

theorem refl (a : MemoryCluster) : Grows kind a a :=
  of_eq rfl rfl (List.append_nil _).symm

theorem trans (hab : Grows kind a b) (hbc : Grows kind b c) : Grows kind a c where
  claimDeleteFailure := hbc.claimDeleteFailure.trans hab.claimDeleteFailure
  kept name claim h := hbc.kept name claim (hab.kept name claim h)
  new := by
    obtain ⟨first, hfirst, hnew⟩ := hab.new
    obtain ⟨second, hsecond, hnewer⟩ := hbc.new
    refine ⟨first ++ second, by rw [hsecond, hfirst, List.append_assoc], fun name claim h => ?_⟩
    rcases hnewer name claim h with h | ⟨hname, hmade⟩
    · exact (hnew name claim h).imp_right fun ⟨hname, hmade⟩ =>
        ⟨hname, hmade.mono (List.prefix_append first second).isInfix⟩
    · exact .inr ⟨hname, hmade.mono (List.suffix_append first second).isInfix⟩

end Grows

/-! ### Calls -/

variable {kind : ExecutionUnit → Prop}

/-- Looking at a unit does not touch any claim. -/
theorem grows_readPhase (u : UnitRef) (m : MemoryCluster) : Grows kind m ((readPhase u).run m).2 := by
  have hnone : ∀ ops : List String, ops = ops ++ [] := fun ops => (List.append_nil ops).symm
  simp only [readPhase, run_call]
  split
  · exact .of_eq rfl rfl (hnone _)
  · exact .of_eq rfl rfl (hnone _)
  · exact .of_eq rfl rfl (hnone _)

theorem grows_subscribe (u : UnitRef) (m : MemoryCluster) : Grows kind m ((subscribe u).run m).2 := by
  have hnone : ∀ ops : List String, ops = ops ++ [] := fun ops => (List.append_nil ops).symm
  simp only [subscribe, run_call]
  split
  · exact .of_eq rfl rfl (hnone _)
  · exact .of_eq rfl rfl (hnone _)

theorem claimDeleteFailure_withCache (m : MemoryCluster) (cache : Option Claim) :
    (m.withCache cache).claimDeleteFailure = m.claimDeleteFailure := by
  unfold withCache
  split
  · rfl
  · split <;> rfl

/-- **When the pod of a unit is asked for, the claim of its cache has been added at most.** -/
theorem grows_ready {s : Submission} {u : ExecutionUnit} (hbuild : s.build = .ok u) (hu : kind u)
    (m : MemoryCluster) : Grows kind m (Submission.ready m u) where
  claimDeleteFailure := claimDeleteFailure_withCache m u.cacheClaim
  kept name claim h := by
    show (m.withCache u.cacheClaim).claims.get? name = some claim
    cases u.cacheClaim with
    | none => exact h
    | some own =>
      rw [get?_withCache, h]
      rfl
  new := by
    refine ⟨m.cacheOperations u.cacheClaim ++ ["secret:" ++ u.name], ?_, fun name claim h => ?_⟩
    · rw [Submission.operations_ready hbuild, Submission.cacheOperations_eq hbuild, List.append_assoc]
    change (m.withCache u.cacheClaim).claims.get? name = some claim at h
    cases hcache : u.cacheClaim with
    | none =>
      rw [hcache] at h
      exact .inl h
    | some own =>
      rw [hcache, get?_withCache] at h
      cases hthere : m.claims.get? name with
      | some old =>
        rw [hthere] at h
        exact .inl h
      | none =>
        rw [hthere, Option.none_or] at h
        split at h
        · next hname =>
          obtain rfl := Option.some.inj h
          subst hname
          have habsent : m.claims.contains own.name = false := by
            rw [Table.contains, hthere]
            rfl
          refine .inr ⟨rfl, u, hu, hcache, ?_⟩
          rw [cacheOperations, habsent]
          exact List.infix_rfl
        · cases h

/-- **A submission adds the claim of the cache of its unit at most.** -/
theorem grows_submit (s : Submission) (h : ∀ u, s.build = .ok u → kind u) (m : MemoryCluster) :
    Grows kind m ((s.submit cluster).run m).2 := by
  rcases s.submit_cases m with ⟨e, -, hrun⟩ | ⟨cause, hrun⟩ | ⟨u, hbuild, ⟨cause, hrun⟩ | hrun⟩ <;> rw [hrun]
  · exact .refl m
  · exact .refl m
  · exact grows_ready hbuild (h u hbuild) m
  · exact (grows_ready hbuild (h u hbuild) m).trans (.of_eq rfl rfl rfl)

/-- A unit is watched without touching any claim. -/
theorem keeps_source (before : MemoryCluster) : cluster.source.Keeps (Grows kind before) where
  read u m h := h.trans (grows_readPhase u m)
  subscribe u m h := h.trans (grows_subscribe u m)

/-! ### The volume of a run -/

variable {before claimed : MemoryCluster} {event : Event}

/-- Why there is no volume of a name that is taken. -/
def taken (volume : String) : ClusterError :=
  .rejected ("claim '" ++ volume ++ "' already exists")

/-- Where the name of the volume is taken nothing is done. -/
theorem provision_leads_of_contains (storage : Cluster.BuildStorage) (project : Project)
    (h : before.claims.contains (buildVolumeName event.runId)) :
    Leads (Around (· = before)) (Work.see (Errand.call cluster (cluster.provision storage event project)))
      fun r w => Around (· = before) w ∧ r = .error (taken (buildVolumeName event.runId)) := by
  refine .aroundCall (P := (· = before)) (Q := fun (r : Except ClusterError Unit) after =>
    after = before ∧ r = .error (taken (buildVolumeName event.runId))) ?_
  rintro m rfl
  have hrun : (cluster.provision storage event project).run m =
      (.error (taken (buildVolumeName event.runId)), m) := if_pos h
  rw [hrun]
  exact ⟨rfl, rfl⟩

/-- Otherwise the volume is claimed. -/
theorem exists_provision_leads (storage : Cluster.BuildStorage) (project : Project)
    (h : before.claims.get? (buildVolumeName event.runId) = none) :
    ∃ claimed : MemoryCluster, claimed.claims = before.claims.insert (buildVolumeName event.runId)
        (buildClaim storage.size storage.storageClass event project) ∧
      claimed.claimDeleteFailure = before.claimDeleteFailure ∧
      claimed.operations = before.operations ++ ["claim:" ++ buildVolumeName event.runId] ∧
      Leads (Around (· = before))
        (Work.see (Errand.call cluster (cluster.provision storage event project)))
        fun r w => Around (· = claimed) w ∧ r = .ok () := by
  have habsent : ¬ before.claims.contains (buildVolumeName event.runId) := by simp [Table.contains, h]
  let claim := buildClaim storage.size storage.storageClass event project
  let claimed : MemoryCluster :=
    { before.note ("claim:" ++ claim.name) with claims := before.claims.insert claim.name claim }
  refine ⟨claimed, rfl, rfl, rfl, .aroundCall (P := (· = before))
    (Q := fun (r : Except ClusterError Unit) after => after = claimed ∧ r = .ok ()) ?_⟩
  rintro m rfl
  have hrun : (cluster.provision storage event project).run m = (.ok (), claimed) := if_neg habsent
  rw [hrun]
  exact ⟨rfl, rfl⟩

/-- The volume is given back, and nothing else. -/
theorem claims_release_run {m : MemoryCluster} (project : Project) (hdelete : m.claimDeleteFailure = none)
    (h : m.claims.contains (buildVolumeName event.runId)) :
    ((cluster.release event project).run m) =
      (.ok (), { ({ m with claimDeletes := m.claimDeletes + 1 } : MemoryCluster).note
        ("delete-claim:" ++ buildVolumeName event.runId) with
          claims := m.claims.erase (buildVolumeName event.runId) }) := by
  simp only [Cluster.release, cluster, deleteClaim, call, ExceptT.run, ExceptT.mk, hdelete]
  exact if_pos h

/-- What has become of the state in which the volume was claimed when it has been given back. -/
def Released (kind : ExecutionUnit → Prop) (claimed : MemoryCluster) (volume : String)
    (after : MemoryCluster) : Prop :=
  ∃ grown, Grows kind claimed grown ∧ after.claims = grown.claims.erase volume ∧
    after.operations = grown.operations ++ ["delete-claim:" ++ volume]

theorem release_leads_of_grows (project : Project) (hdelete : claimed.claimDeleteFailure = none)
    (h : claimed.claims.contains (buildVolumeName event.runId)) :
    Leads (Around (Grows kind claimed)) (Work.see (Errand.call cluster (cluster.release event project)))
      fun _ => Around (Released kind claimed (buildVolumeName event.runId)) := by
  refine .aroundCall (P := Grows kind claimed) (Q := fun (_ : Except ClusterError Unit) =>
    Released kind claimed (buildVolumeName event.runId)) fun m hm => ?_
  obtain ⟨claim, hclaim⟩ := Option.isSome_iff_exists.1 h
  have hthere : m.claims.contains (buildVolumeName event.runId) := by
    rw [Table.contains, hm.kept _ claim hclaim]
    rfl
  rw [claims_release_run project (hm.claimDeleteFailure.trans hdelete) hthere]
  exact ⟨m, hm, rfl, rfl⟩

/-- What is left when a name has been claimed, claims have been added, and the name is free again. -/
theorem Released.tidy {before after : MemoryCluster} {volume : String} {claim : Claim}
    (h : Released kind claimed volume after) (hfree : before.claims.get? volume = none)
    (hclaimed : claimed.claims = before.claims.insert volume claim)
    (hoperations : claimed.operations = before.operations ++ ["claim:" ++ volume]) :
    after.claims.get? volume = none ∧
    (∀ name claim, before.claims.get? name = some claim → after.claims.get? name = some claim) ∧
    ∃ done, after.operations = before.operations ++ done ∧
      ∀ name claim, after.claims.get? name = some claim →
        before.claims.get? name = some claim ∨ (claim.name = name ∧ MadeFor kind done claim) := by
  obtain ⟨grown, hgrown, hafter, hreleased⟩ := h
  have hget : ∀ name, after.claims.get? name = if name = volume then none else grown.claims.get? name :=
    fun name => by rw [hafter, Table.get?_erase]
  have hother : ∀ name, name ≠ volume → claimed.claims.get? name = before.claims.get? name :=
    fun name hne => by rw [hclaimed, Table.get?_insert, if_neg (Ne.symm hne)]
  obtain ⟨done, hdone, hnew⟩ := hgrown.new
  refine ⟨(hget volume).trans (if_pos rfl), fun name claim h => ?_,
    ["claim:" ++ volume] ++ done ++ ["delete-claim:" ++ volume], ?_, fun name claim h => ?_⟩
  · have hne : name ≠ volume := by
      rintro rfl
      rw [hfree] at h
      cases h
    rw [hget, if_neg hne]
    exact hgrown.kept name claim ((hother name hne).trans h)
  · rw [hreleased, hdone, hoperations]
    simp only [List.append_assoc]
  · rw [hget] at h
    split at h
    · cases h
    · next hne =>
      rw [← hother name hne]
      exact (hnew name claim h).imp_right fun ⟨hname, hmade⟩ =>
        ⟨hname, hmade.mono ⟨_, _, rfl⟩⟩

end MemoryCluster

/-! ### A run -/

namespace Controller

open MemoryCluster

variable (bus : Bus Handler) (options : BuildOptions) (event : Event) (project : Project)

/-- The unit of a job that a handler runs. -/
def IsUnit (u : ExecutionUnit) : Prop :=
  ∃ key s, bus.handler? key = some (Handler.ofStep s) ∧ ∃ j ∈ s.jobs, ∃ now,
    ExecutionUnit.build options j event project now = .ok u

variable {bus options event project} {watcher : Watcher}

/-- A job of a handler adds its cache at most. -/
theorem keeps_pods {key : EventKey} {s : Step Job} (hs : bus.handler? key = some (Handler.ofStep s))
    {j : Job} (hj : j ∈ s.jobs) (before : MemoryCluster) :
    (Backend.pods cluster options watcher).Keeps (Grows (IsUnit bus options event project) before)
      { event, project } j where
  submit := by
    refine .bind .now fun moment => Keeps.call fun m hm => hm.trans ?_
    let s' : Submission := { options, job := j, scope := { event, project }, now := moment.millis }
    exact grows_submit s' (fun u hu => ⟨key, s, hs, j, hj, _, hu⟩) m
  observe u := Backend.keeps_watchUnit (keeps_source before) watcher j u

/-- What comes of the run of an event in a cluster in the state `before`: the claims that were there stay,
and no other is left but the caches that have been made in the run for the units of jobs submitted in it. If
the name of the volume is taken there is no run. -/
def Tidy (bus : Bus Handler) (options : BuildOptions) (event : Event) (project : Project)
    (before : MemoryCluster) (result : Except ControllerError RunReport) (after : MemoryCluster) :
    Prop :=
  let volume := buildVolumeName event.runId
  if before.claims.contains volume then
    result = .error (.storageProvision event.runId (taken volume)) ∧ after = before
  else
    (∃ report, result = .ok report) ∧ after.claims.get? volume = none ∧
    (∀ name claim, before.claims.get? name = some claim → after.claims.get? name = some claim) ∧
    ∃ done, after.operations = before.operations ++ done ∧
      ∀ name claim, after.claims.get? name = some claim → before.claims.get? name = some claim ∨
        (claim.name = name ∧ MadeFor (IsUnit bus options event project) done claim)

/-- **A run leaves the claims of the cluster as it has found them**, apart from caches: whatever its
handlers do, as long as they run steps, and whether or not any of their jobs fail. -/
theorem run_claims {bus : Bus Handler}
    (hbus : ∀ key h, bus.handler? key = some h → ∃ s, h = Handler.ofStep s)
    {load : String → Errand MemoryCluster (Except ClusterError Project)} {id : String}
    {before : MemoryCluster} {loaded : Except ClusterError Project}
    (hload : Leads (fun seen => seen.source = before) (load id)
      fun r seen => seen.source = before ∧ r = loaded)
    (hdelete : before.claimDeleteFailure = none) (options : BuildOptions) (watcher : Watcher)
    (storage : Cluster.BuildStorage) (event : Event) :
    let c : Controller MemoryCluster :=
      { bus, load, storage := .claims cluster storage, backend := .pods cluster options watcher }
    Leads (Around (· = before)) (c.run id event) fun result => Around fun after =>
      match loaded with
      | .error e => after = before ∧ result = .error (.projectLoad id e)
      | .ok project => Tidy bus options event project before result after := by
  intro c
  have hloaded : Leads (Around (· = before)) (Work.see (load id)) fun r w =>
      Around (· = before) w ∧ r = loaded :=
    .around (P := (· = before)) (Q := fun r after => after = before ∧ r = loaded) hload
  cases loaded with
  | error e => exact run_leads_of_unloaded hloaded
  | ok project =>
    by_cases hthere : before.claims.contains (buildVolumeName event.runId)
    · refine .imp (run_leads_of_unprovisioned hloaded (provision_leads_of_contains storage project hthere)) ?_
      rintro r w ⟨hw, hr⟩
      simp only [Around, Tidy, if_pos hthere]
      exact ⟨hr, hw⟩
    · have hfree : before.claims.get? (buildVolumeName event.runId) = none := by
        simpa [Table.contains] using hthere
      obtain ⟨claimed, hclaims, hfailure, hoperations, hprovision⟩ :=
        exists_provision_leads storage project hfree
      have hclaimed : claimed.claims.contains (buildVolumeName event.runId) := by
        rw [hclaims, Table.contains, Table.get?_insert, if_pos rfl]
        rfl
      have hhandlers : Keeps (Around (Grows (IsUnit bus options event project) claimed))
          (c.runHandlers { event, project }) := by
        refine keeps_runHandlers fun e handler hhandler => ?_
        obtain ⟨s, rfl⟩ := hbus e.key handler hhandler
        exact Handler.keeps_ofStep (fun j hj => keeps_pods hhandler hj claimed) e
      have hbegun : ∀ w, Around (· = claimed) w →
          Around (Grows (IsUnit bus options event project) claimed) w := by
        rintro w rfl
        exact .refl _
      refine .imp (run_leads hloaded hprovision (hhandlers.weaken hbegun) fun _ =>
        release_leads_of_grows project (hfailure.trans hdelete) hclaimed) ?_
      rintro r w ⟨report, first, hreport, -, hreleased⟩
      simp only [Around, Tidy, if_neg hthere]
      exact ⟨⟨report, hreport⟩, hreleased.tidy hfree hclaims hoperations⟩

/-- A cluster in which somebody has a claim of their own. -/
def furnished : MemoryCluster :=
  MemoryCluster.succeeding.addClaim (sharedClaim "spare" "ci" "1Gi" none {})

def pushed : Event :=
  .primary { id := "e", source := "github", type := "push" }

/-- A job that wants a cache, for every push. -/
def cachingBus : Bus Handler :=
  Bus.on {} pushed.key (Handler.ofStep (.job
    { Job.ofImage "build" "alpine" with cache := { enabled := true } }))

def hostProject : Project where
  id := "p"
  name := "org/repo"

def caching : Controller MemoryCluster where
  bus := cachingBus
  load := loadKnown hostProject
  storage := .claims cluster {}
  backend := .pods cluster {} (.polling (.ofSeconds 1))

/-- The volume of the run is gone in the end, and the cache is left beside what was there before. -/
theorem run_claims_caching :
    Leads (Around (· = furnished)) (caching.run "p" pushed)
      (fun result => Around (Tidy cachingBus {} pushed hostProject furnished result)) ∧
    (caching.run "p" pushed { world := .ofCluster furnished }).2.world.seen.source.claims.keys =
      ["org-repo-build", "spare"] := by
  have hbus : ∀ key h, cachingBus.handler? key = some h → ∃ s, h = Handler.ofStep s := by
    intro key h hkey
    rw [cachingBus, Bus.handler?_on] at hkey
    split at hkey
    · exact ⟨_, (Option.some.inj hkey).symm⟩
    · cases hkey
  have hload : Leads (fun seen => seen.source = furnished) (loadKnown hostProject "p")
      fun r seen => seen.source = furnished ∧ r = .ok hostProject :=
    fun _ hs => ⟨hs, rfl⟩
  refine ⟨run_claims hbus hload rfl {} (.polling (.ofSeconds 1)) {} pushed, ?_⟩
  decide +kernel

end Controller

end EventWorker
