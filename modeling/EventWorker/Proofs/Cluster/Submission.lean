import EventWorker.Proofs.Cluster.Memory
import EventWorker.Proofs.Run.Verdict
import EventWorker.Proofs.Unit.Closed

/-!
# Submissions in order

A submission creates what a unit needs before the unit: the claim of the cache unless it is there, then
the secret, and the pod last. Whatever fails leaves nothing behind that comes later (`Orderly`). So a pod
never refers to a secret that is not there yet, nor to a cache that it is given. To say this of every pod, the
cluster is asked to keep a record: with each pod that it creates it notes the state in which it was asked for
it (`Recorder`). The record changes nothing else, and all that is in it is `Provided`. A job that is given no
cache may declare a volume by the name of one itself; nobody sees to the claim that it names then
(`borrowing`).

Main statement: `submissions_orderly`.
-/

namespace EventWorker

open Resource

/-- A job that is handed over to be run: in which scope, under which settings of the worker, and at which
time in milliseconds. -/
structure Submission where
  options : BuildOptions := {}
  job : Job
  scope : RunScope
  now : Int := 0

namespace Submission

variable {σ : Type} (s : Submission) (c : Cluster σ)

def build : Except BuildError ExecutionUnit :=
  ExecutionUnit.build s.options s.job s.scope.event s.scope.project s.now

def submit : Call σ JobError UnitRef :=
  c.submit s.options s.job s.scope.event s.scope.project s.now

/-- All of a submission but the pod. -/
def prepare : Call σ JobError ExecutionUnit := do
  match s.build with
  | .error e => throw (.build e)
  | .ok unit =>
    if let some claim := unit.cacheClaim then
      discard ((c.ensure claim).mapFault (JobError.cache s.job.name))
    (c.createSecret unit.secret).mapFault (JobError.scheduling s.job.name)
    return unit

/-- The pod comes last. -/
theorem submit_eq : s.submit c = do
    let unit ← s.prepare c
    (c.createPod unit.pod).mapFault (JobError.scheduling s.job.name)
    return unit.ref := by
  unfold submit prepare Cluster.submit build
  cases ExecutionUnit.build s.options s.job s.scope.event s.scope.project s.now with
  | error e => rfl
  | ok unit =>
    dsimp only
    cases unit.cacheClaim with
    | none => simp only [bind_assoc, pure_bind]
    | some claim => simp only [bind_assoc, pure_bind]

end Submission

/-! ### A cluster in memory -/

namespace MemoryCluster

/-- The state in which the claim of a cache is there. -/
def withCache (m : MemoryCluster) : Option Claim → MemoryCluster
  | none => m
  | some claim =>
    if m.claims.contains claim.name then m
    else { m.note ("claim:" ++ claim.name) with claims := m.claims.insert claim.name claim }

def withSecret (m : MemoryCluster) (s : Secret) : MemoryCluster :=
  { m.note ("secret:" ++ s.metadata.nameText) with secrets := m.secrets.insert s.metadata.nameText s }

def withPod (m : MemoryCluster) (p : Pod) : MemoryCluster :=
  { m.note ("pod:" ++ p.metadata.nameText) with pods := m.pods.insert p.metadata.nameText p }

/-- What has to be done for a cache. -/
def cacheOperations (m : MemoryCluster) : Option Claim → List String
  | none => []
  | some claim => if m.claims.contains claim.name then [] else ["claim:" ++ claim.name]

section Calls

variable (m : MemoryCluster)

theorem createPod_run (p : Pod) : (createPod p).run m =
    match m.podRejection with
    | some reason => (.error (.rejected reason), m)
    | none => (.ok (), m.withPod p) :=
  rfl

theorem checkCache_run (claim : Claim) : (cluster.checkCache claim).run m =
    match m.claimReadFailure with
    | some reason => (.error (.check claim.name (.request reason)), m)
    | none => (.ok (m.claims.contains claim.name), m) := by
  cases hfail : m.claimReadFailure with
  | some reason =>
    have hget : (getClaim claim.name).run m = (.error (.request reason), m) := by
      simp only [getClaim, run_call, hfail]
    exact Call.lift_run_bind hget
  | none =>
    cases hthere : m.claims.get? claim.name with
    | some found =>
      have hget : (getClaim claim.name).run m = (.ok found, m) := by
        simp only [getClaim, run_call, hfail, hthere]
      rw [Table.contains, hthere]
      exact Call.lift_run_bind hget
    | none =>
      have hget : (getClaim claim.name).run m =
          (.error (.notFound Claim.kindName claim.name), m) := by
        simp only [getClaim, run_call, hfail, hthere]
      rw [Table.contains, hthere]
      exact Call.lift_run_bind hget

/-- A cache is there if its claim can be looked for: what is missing is created, and nobody else can have
created it in the meantime. -/
theorem ensure_run (claim : Claim) : (cluster.ensure claim).run m =
    match m.claimReadFailure with
    | some reason => (.error (.check claim.name (.request reason)), m)
    | none => (.ok (if m.claims.contains claim.name then .reused else .created),
        m.withCache (some claim)) := by
  have hcheck := checkCache_run m claim
  cases hfail : m.claimReadFailure with
  | some reason =>
    rw [hfail] at hcheck
    exact Call.bind_of_error hcheck
  | none =>
    rw [hfail] at hcheck
    refine (Call.bind_of_ok hcheck).trans ?_
    cases hthere : m.claims.contains claim.name with
    | true => simp only [withCache, hthere, if_true]; rfl
    | false =>
      have hcreate : (createClaim claim).run m = (.ok (), m.withCache (some claim)) := by
        simp only [createClaim, run_call, withCache, hthere]
        rfl
      exact Call.bind_of_ok (Call.mapFault_of_ok hcreate)

end Calls

variable {m : MemoryCluster} {cache : Option Claim}

theorem operations_withCache :
    (m.withCache cache).operations = m.operations ++ m.cacheOperations cache := by
  cases cache with
  | none => exact (List.append_nil _).symm
  | some claim =>
    cases h : m.claims.contains claim.name with
    | true => simp only [withCache, cacheOperations, h, if_true, List.append_nil]
    | false => simp only [withCache, cacheOperations, h, Bool.false_eq_true, if_false, note]

theorem pods_withCache : (m.withCache cache).pods = m.pods := by
  unfold withCache
  split
  · rfl
  · split <;> rfl

theorem contains_withCache (claim : Claim) :
    (m.withCache (some claim)).claims.contains claim.name = true := by
  unfold withCache
  dsimp only
  split
  · next hthere => exact hthere
  · show ((m.claims.insert claim.name claim).get? claim.name).isSome = true
    rw [Table.get?_insert, if_pos rfl]
    rfl

/-- A claim that is there stays, and only one that is not there is added. -/
theorem get?_withCache {claim : Claim} {name : String} : (m.withCache (some claim)).claims.get? name =
    (m.claims.get? name).or (if claim.name = name then some claim else none) := by
  unfold withCache
  dsimp only
  split
  · next hthere =>
    by_cases hname : claim.name = name
    · obtain ⟨found, hfound⟩ := Option.isSome_iff_exists.1 hthere
      rw [← hname, hfound]
      rfl
    · rw [if_neg hname, Option.or_none]
  · next habsent =>
    show (m.claims.insert claim.name claim).get? name = _
    rw [Table.get?_insert]
    by_cases hname : claim.name = name
    · have hnone : m.claims.get? name = none := by simpa [Table.contains, hname] using habsent
      rw [hnone, Option.none_or, if_pos hname]
    · rw [if_neg hname, if_neg hname, Option.or_none]

end MemoryCluster

namespace Submission

open MemoryCluster

variable (s : Submission) (m : MemoryCluster)

/-- The state in which the pod of a unit is asked for. -/
def ready (u : ExecutionUnit) : MemoryCluster :=
  (m.withCache u.cacheClaim).withSecret u.secret

/-- All that can come of a submission before the pod is asked for. -/
theorem prepare_cases :
    (∃ e, s.build = .error e ∧ (s.prepare cluster).run m = (.error (.build e), m)) ∨
    (∃ cause, (s.prepare cluster).run m = (.error (.cache s.job.name cause), m)) ∨
    ∃ u, s.build = .ok u ∧ (s.prepare cluster).run m = (.ok u, ready m u) := by
  unfold prepare
  cases hbuild : s.build with
  | error e => exact .inl ⟨e, rfl, rfl⟩
  | ok u =>
    dsimp only
    cases hcache : u.cacheClaim with
    | none =>
      refine .inr (.inr ⟨u, rfl, ?_⟩)
      rw [ready, hcache]
      rfl
    | some claim =>
      have hensure := ensure_run m claim
      cases hfail : m.claimReadFailure with
      | some reason =>
        rw [hfail] at hensure
        exact .inr (.inl ⟨_, Call.bind_of_error (Call.bind_of_error (Call.mapFault_of_error hensure))⟩)
      | none =>
        rw [hfail] at hensure
        refine .inr (.inr ⟨u, rfl, ?_⟩)
        rw [ready, hcache]
        exact Call.bind_of_ok (Call.discard_of_ok (Call.mapFault_of_ok hensure))

theorem prepare_eq_ok {u : ExecutionUnit} {m' : MemoryCluster}
    (h : (s.prepare cluster).run m = (.ok u, m')) : s.build = .ok u ∧ m' = ready m u := by
  rcases prepare_cases s m with ⟨e, -, hrun⟩ | ⟨cause, hrun⟩ | ⟨u', hbuild, hrun⟩
  · cases hrun.symm.trans h
  · cases hrun.symm.trans h
  · cases hrun.symm.trans h
    exact ⟨hbuild, rfl⟩

/-- All that can come of a submission. -/
theorem submit_cases :
    (∃ e, s.build = .error e ∧ (s.submit cluster).run m = (.error (.build e), m)) ∨
    (∃ cause, (s.submit cluster).run m = (.error (.cache s.job.name cause), m)) ∨
    ∃ u, s.build = .ok u ∧
      ((∃ cause, (s.submit cluster).run m = (.error (.scheduling s.job.name cause), ready m u)) ∨
        (s.submit cluster).run m = (.ok u.ref, (ready m u).withPod u.pod)) := by
  rw [submit_eq]
  rcases prepare_cases s m with ⟨e, hbuild, hprepare⟩ | ⟨cause, hprepare⟩ | ⟨u, hbuild, hprepare⟩
  · exact .inl ⟨e, hbuild, Call.bind_of_error hprepare⟩
  · exact .inr (.inl ⟨cause, Call.bind_of_error hprepare⟩)
  · refine .inr (.inr ⟨u, hbuild, ?_⟩)
    rw [Call.bind_of_ok hprepare]
    have hcreate := createPod_run (ready m u) u.pod
    cases hreject : (ready m u).podRejection with
    | some reason =>
      rw [hreject] at hcreate
      exact .inl ⟨_, Call.bind_of_error (Call.mapFault_of_error hcreate)⟩
    | none =>
      rw [hreject] at hcreate
      exact .inr (Call.bind_of_ok (Call.mapFault_of_ok hcreate))

/-! ### The order -/

/-- What is done for the cache of the job: its claim is created if the job wants one and there is none. -/
def cacheOperations (before : MemoryCluster) : List String :=
  let cache := cacheVolumeName s.scope.project.name s.job.name
  if s.job.cache.enabled && !before.claims.contains cache then ["claim:" ++ cache] else []

/-- What comes of a submission: first the cache, then the secret, then the pod, and nothing after what
has failed. -/
def Orderly (before : MemoryCluster) : Except JobError UnitRef → MemoryCluster → Prop
  | .ok ref, after => ∃ u, s.build = .ok u ∧ ref = u.ref ∧ after.pods.get? ref.name = some u.pod ∧
      after.operations = before.operations ++ s.cacheOperations before ++
        ["secret:" ++ ref.name, "pod:" ++ ref.name]
  | .error (.build e), after => s.build = .error e ∧ after = before
  | .error (.cache ..), after => after = before
  | .error (.scheduling ..), after => ∃ u, s.build = .ok u ∧ after.pods = before.pods ∧
      after.operations = before.operations ++ s.cacheOperations before ++ ["secret:" ++ u.name]
  | .error _, _ => False

variable {s m} {u : ExecutionUnit}

theorem cacheOperations_eq (hbuild : s.build = .ok u) :
    m.cacheOperations u.cacheClaim = s.cacheOperations m := by
  obtain ⟨volumes, hu⟩ := ExecutionUnit.built_of_build hbuild
  rw [hu.cacheClaim, ExecutionUnit.cacheClaim?, cacheOperations]
  cases s.job.cache.enabled with
  | false => rfl
  | true =>
    show (if m.claims.contains (cacheVolumeName s.scope.project.name s.job.name) then _ else _) = _
    cases m.claims.contains (cacheVolumeName s.scope.project.name s.job.name) <;> rfl

theorem nameText_secret (hbuild : s.build = .ok u) : u.secret.metadata.nameText = u.name := by
  obtain ⟨volumes, hu⟩ := ExecutionUnit.built_of_build hbuild
  rw [hu.secret]
  rfl

theorem operations_ready (hbuild : s.build = .ok u) :
    (ready m u).operations = m.operations ++ s.cacheOperations m ++ ["secret:" ++ u.name] := by
  show (m.withCache u.cacheClaim).operations ++ ["secret:" ++ u.secret.metadata.nameText] = _
  rw [operations_withCache, cacheOperations_eq hbuild, nameText_secret hbuild]

/-- **A submission goes by the order.** -/
theorem orderly_submit (s : Submission) (m : MemoryCluster) :
    s.Orderly m ((s.submit cluster).run m).1 ((s.submit cluster).run m).2 := by
  rcases submit_cases s m with
    ⟨e, hbuild, hrun⟩ | ⟨cause, hrun⟩ | ⟨u, hbuild, ⟨cause, hrun⟩ | hrun⟩ <;> rw [hrun]
  · exact ⟨hbuild, rfl⟩
  · rfl
  · exact ⟨u, hbuild, pods_withCache, operations_ready hbuild⟩
  · have hname := nameText_pod hbuild
    refine ⟨u, hbuild, rfl, ?_, ?_⟩
    · show ((ready m u).pods.insert u.pod.metadata.nameText u.pod).get? u.name = some u.pod
      rw [hname, Table.get?_insert, if_pos rfl]
    · show (ready m u).operations ++ ["pod:" ++ u.pod.metadata.nameText] = _
      rw [operations_ready hbuild, hname, List.append_assoc]
      rfl

end Submission

/-! ### A record of the pods -/

/-- A cluster in memory with the pods that it has created, and the state in which it was asked for each
of them. -/
structure Recorder where
  state : MemoryCluster
  creations : List (MemoryCluster × Pod) := []

namespace Recorder

variable {ε φ α β : Type}

/-- A call that creates no pod. -/
def pass (f : Call MemoryCluster ε α) : Call Recorder ε α :=
  ExceptT.mk fun r =>
    let (a, state) := f.run r.state
    (a, { r with state })

def createPod (p : Pod) : Call Recorder ClusterError Unit :=
  ExceptT.mk fun r =>
    match (MemoryCluster.createPod p).run r.state with
    | (.ok (), state) => (.ok (), { state, creations := r.creations ++ [(r.state, p)] })
    | (.error e, state) => (.error e, { r with state })

def cluster : Cluster Recorder where
  createSecret s := pass (MemoryCluster.cluster.createSecret s)
  createPod := createPod
  getClaim ns name := pass (MemoryCluster.cluster.getClaim ns name)
  createClaim c := pass (MemoryCluster.cluster.createClaim c)
  deleteClaim ns name := pass (MemoryCluster.cluster.deleteClaim ns name)
  readPhase u := pass (MemoryCluster.cluster.readPhase u)
  subscribe u := pass (MemoryCluster.cluster.subscribe u)
  readLogs u := pass (MemoryCluster.cluster.readLogs u)
  operations r := MemoryCluster.cluster.operations r.state

section

variable {r : Recorder} {p : Pod} {state : MemoryCluster}

theorem createPod_of_ok (h : (MemoryCluster.createPod p).run r.state = (.ok (), state)) :
    (createPod p).run r = (.ok (), { state, creations := r.creations ++ [(r.state, p)] }) := by
  show (match (MemoryCluster.createPod p).run r.state with
    | (.ok (), state) => _
    | (.error e, state) => _) = _
  rw [h]

theorem createPod_of_error {e : ClusterError}
    (h : (MemoryCluster.createPod p).run r.state = (.error e, state)) :
    (createPod p).run r = (.error e, { r with state }) := by
  show (match (MemoryCluster.createPod p).run r.state with
    | (.ok (), state) => _
    | (.error e, state) => _) = _
  rw [h]

end

variable {f : Call MemoryCluster ε α}

theorem pass_run (r : Recorder) :
    (pass f).run r = ((f.run r.state).1, { r with state := (f.run r.state).2 }) :=
  rfl

theorem pass_bind (f : Call MemoryCluster ε α) (g : α → Call MemoryCluster ε β) :
    pass (f >>= g) = pass f >>= fun a => pass (g a) := by
  funext r
  show (pass (f >>= g)).run r = (pass f >>= fun a => pass (g a)).run r
  rw [pass_run]
  cases hrun : f.run r.state with
  | mk result state =>
    have hpass : (pass f).run r = (result, { r with state }) := by rw [pass_run, hrun]
    cases result with
    | error e => rw [Call.bind_of_error hpass, Call.bind_of_error hrun]
    | ok a => rw [Call.bind_of_ok hpass, Call.bind_of_ok hrun, pass_run]

theorem pass_mapFault (f : Call MemoryCluster ε α) (w : ε → φ) :
    pass (f.mapFault w) = (pass f).mapFault w :=
  rfl

theorem pass_discard (f : Call MemoryCluster ε α) : pass (discard f) = discard (pass f) :=
  pass_bind f fun _ => pure ()

/-- A call that is asked whether it has failed. -/
theorem pass_lift_run (f : Call MemoryCluster ε α) :
    pass (liftM f.run : Call MemoryCluster φ (Except ε α)) = liftM (pass f).run :=
  rfl

theorem checkCache_eq_pass (claim : Claim) :
    cluster.checkCache claim = pass (MemoryCluster.cluster.checkCache claim) := by
  unfold Cluster.checkCache
  rw [pass_bind, pass_lift_run]
  congr 1
  funext result
  cases result with
  | ok found => rfl
  | error e =>
    dsimp only
    split <;> rfl

theorem ensure_eq_pass (claim : Claim) :
    cluster.ensure claim = pass (MemoryCluster.cluster.ensure claim) := by
  unfold Cluster.ensure
  rw [pass_bind, checkCache_eq_pass]
  congr 1
  funext there
  cases there with
  | true => rfl
  | false =>
    rw [if_neg Bool.false_ne_true, if_neg Bool.false_ne_true, pass_bind]
    rfl

/-- All of a submission but the pod leaves the record alone. -/
theorem prepare_eq_pass (s : Submission) :
    s.prepare cluster = pass (s.prepare MemoryCluster.cluster) := by
  unfold Submission.prepare
  cases s.build with
  | error e => rfl
  | ok u =>
    dsimp only
    cases u.cacheClaim with
    | none =>
      dsimp only
      rw [pass_bind]
      rfl
    | some claim =>
      dsimp only
      rw [pass_bind, pass_discard, pass_mapFault, ← ensure_eq_pass]
      refine congrArg _ (funext fun _ => ?_)
      rw [pass_bind]
      rfl

end Recorder

/-! ### Submissions one after another -/

namespace Submission

open MemoryCluster

variable {σ : Type}

def submitAll (c : Cluster σ) : List Submission → StateM σ (List (Except JobError UnitRef))
  | [] => return []
  | s :: rest => do
    let result ← (s.submit c).run
    return result :: (← submitAll c rest)

theorem submitAll_cons (c : Cluster σ) (s : Submission) (rest : List Submission) {m m' : σ}
    {result : Except JobError UnitRef} (h : (s.submit c).run m = (result, m')) :
    submitAll c (s :: rest) m = (result :: (submitAll c rest m').1, (submitAll c rest m').2) := by
  show (match (s.submit c).run m with
    | (result, m') => (result :: (submitAll c rest m').1, (submitAll c rest m').2)) = _
  rw [h]

/-- What the pod of a submission refers to is there: the secret that its hook names, which is that of the
unit, and the claim of the cache if the job is given one. (A job without a cache may have declared a volume of
that name itself.) -/
def Provided (s : Submission) (before : MemoryCluster) (pod : Pod) : Prop :=
  ∃ u, s.build = .ok u ∧ u.pod = pod ∧
    (∃ v ∈ u.volumes, v.name = ExecutionUnit.hookVolume) ∧
    (∀ v ∈ u.volumes, v.name = ExecutionUnit.hookVolume →
      ∃ name, v.secret.bind (·.name) = some name ∧ before.secrets.get? name = some u.secret) ∧
    (s.job.cache.enabled → ∃ v ∈ u.volumes, v.name = ExecutionUnit.cacheVolume) ∧
    ∀ v ∈ u.volumes, v.name = ExecutionUnit.cacheVolume →
      if s.job.cache.enabled then ∃ c, v.claim = some c ∧ before.claims.contains c.claimName
      else v ∈ s.job.volumes

variable {s : Submission} {u : ExecutionUnit} {v w : Volume} {m : MemoryCluster}

/-- A volume of a unit is known by its name. -/
theorem eq_of_name_eq (hbuild : s.build = .ok u) (hv : v ∈ u.volumes) (hw : w ∈ u.volumes)
    (hname : v.name = w.name) : v = w :=
  List.inj_on_of_nodup_map (ExecutionUnit.build_closed hbuild).distinct hv hw hname

/-- Only a job that has no cache can have a volume of its own in the place of it. -/
theorem mem_volumes_of_not_enabled (hbuild : s.build = .ok u) (hcache : ¬ s.job.cache.enabled)
    (hv : v ∈ u.volumes) (hname : v.name = ExecutionUnit.cacheVolume) : v ∈ s.job.volumes := by
  obtain ⟨system, attached, hvolumes, hsystem, hattached⟩ := (ExecutionUnit.build_closed hbuild).volumes
  rw [hvolumes, List.mem_append] at hv
  rcases hv with hv | hv
  · have hswitch : ExecutionUnit.IsSystem s.job s.scope.project ExecutionUnit.cacheVolume :=
      (hsystem _).1 (hname ▸ List.mem_map_of_mem hv)
    generalize hcacheName : ExecutionUnit.cacheVolume = name at hswitch
    cases hswitch with
    | cache h => exact absurd h hcache
    | hook => exact absurd hcacheName (by decide)
    | source => exact absurd hcacheName (by decide)
    | build => exact absurd hcacheName (by decide)
    | docker => exact absurd hcacheName (by decide)
  · obtain ⟨before, after, hdeclared, -⟩ := ((hattached v).1 hv).2.2
    rw [hdeclared]
    exact List.mem_append_right _ List.mem_cons_self

/-- **When the pod is asked for, its secret is there, and its cache if it is given one.** -/
theorem provided_ready (hbuild : s.build = .ok u) (m : MemoryCluster) :
    s.Provided (ready m u) u.pod := by
  have hclosed := ExecutionUnit.build_closed hbuild
  obtain ⟨hook, hhook, hhookName, hsecretName, -⟩ := hclosed.hook
  refine ⟨u, hbuild, rfl, ⟨hook, hhook, hhookName⟩, fun v hv hname => ?_, fun hcache => ?_,
    fun v hv hname => ?_⟩
  · obtain rfl := eq_of_name_eq hbuild hv hhook (hname.trans hhookName.symm)
    refine ⟨u.name, hsecretName, ?_⟩
    show ((m.withCache u.cacheClaim).secrets.insert u.secret.metadata.nameText u.secret).get? u.name = _
    rw [nameText_secret hbuild, Table.get?_insert, if_pos rfl]
  · obtain ⟨cache, hmem, hcacheName, -⟩ := hclosed.cache hcache
    exact ⟨cache, hmem, hcacheName⟩
  · split
    · next hcache =>
      obtain ⟨cache, hmem, hcacheName, claim, name, hclaim, hclaimName, hrefers⟩ :=
        hclosed.cache hcache
      obtain rfl := eq_of_name_eq hbuild hv hmem (hname.trans hcacheName.symm)
      obtain ⟨source, hsource, rfl⟩ := Option.map_eq_some_iff.1 hrefers
      refine ⟨source, hsource, ?_⟩
      have hthere := contains_withCache (m := m) claim
      rw [Claim.name, Metadata.nameText, hclaimName] at hthere
      show (m.withCache u.cacheClaim).claims.contains _ = true
      rw [hclaim]
      exact hthere
    · next hcache => exact mem_volumes_of_not_enabled hbuild hcache hv hname

/-- The names of the units that have come of submissions. -/
def unitNames (results : List (Except JobError UnitRef)) : List String :=
  (results.filterMap (·.toOption)).map (·.name)

/-- **A submission is the same with and without a record**, and the record grows by the pod of its unit,
if it comes to that. -/
theorem submit_recorder (s : Submission) (r : Recorder) : ∃ result state created,
    (s.submit cluster).run r.state = (result, state) ∧
    (s.submit Recorder.cluster).run r = (result, { state, creations := r.creations ++ created }) ∧
    created.map (·.2.metadata.nameText) = unitNames [result] ∧
    ∀ c ∈ created, s.Provided c.1 c.2 := by
  have hpass : (s.prepare Recorder.cluster).run r =
      (((s.prepare cluster).run r.state).1, { r with state := ((s.prepare cluster).run r.state).2 }) := by
    rw [Recorder.prepare_eq_pass, Recorder.pass_run]
  rw [submit_eq, submit_eq]
  rcases hprepare : (s.prepare cluster).run r.state with ⟨e | u, state⟩
  · rw [hprepare] at hpass
    refine ⟨_, _, [], Call.bind_of_error hprepare, ?_, rfl, fun c hc => absurd hc List.not_mem_nil⟩
    rw [List.append_nil]
    exact Call.bind_of_error hpass
  · rw [hprepare] at hpass
    obtain ⟨hbuild, rfl⟩ := prepare_eq_ok s r.state hprepare
    rw [Call.bind_of_ok hprepare, Call.bind_of_ok hpass]
    rcases hcreate : (createPod u.pod).run (ready r.state u) with ⟨e | ⟨⟩, state⟩
    · have hrecord : (Recorder.createPod u.pod).run { r with state := ready r.state u } =
          (.error e, { r with state }) := Recorder.createPod_of_error hcreate
      refine ⟨_, _, [], Call.bind_of_error (Call.mapFault_of_error hcreate), ?_, rfl,
        fun c hc => absurd hc List.not_mem_nil⟩
      rw [List.append_nil]
      exact Call.bind_of_error (Call.mapFault_of_error hrecord)
    · have hrecord : (Recorder.createPod u.pod).run { r with state := ready r.state u } =
          (.ok (), { state, creations := r.creations ++ [(ready r.state u, u.pod)] }) :=
        Recorder.createPod_of_ok hcreate
      refine ⟨_, _, [(ready r.state u, u.pod)], Call.bind_of_ok (Call.mapFault_of_ok hcreate),
        Call.bind_of_ok (Call.mapFault_of_ok hrecord), congrArg ([·]) (nameText_pod hbuild),
        fun c hc => ?_⟩
      obtain rfl := List.mem_singleton.1 hc
      exact provided_ready hbuild r.state

/-- **The same of any number of submissions**, one after another. -/
theorem submitAll_recorder (subs : List Submission) (r : Recorder) : ∃ results state created,
    submitAll cluster subs r.state = (results, state) ∧
    submitAll Recorder.cluster subs r = (results, { state, creations := r.creations ++ created }) ∧
    created.map (·.2.metadata.nameText) = unitNames results ∧
    ∀ c ∈ created, ∃ s ∈ subs, s.Provided c.1 c.2 := by
  induction subs generalizing r with
  | nil =>
    refine ⟨[], r.state, [], rfl, ?_, rfl, fun c hc => absurd hc List.not_mem_nil⟩
    rw [List.append_nil]
    rfl
  | cons s rest ih =>
    obtain ⟨result, state, first, hplain, hrecord, hnames, hfirst⟩ := submit_recorder s r
    obtain ⟨results, last, others, hplains, hrecords, hothernames, hothers⟩ :=
      ih { state, creations := r.creations ++ first }
    refine ⟨result :: results, last, first ++ others, ?_, ?_, ?_, fun c hc => ?_⟩
    · rw [submitAll_cons _ _ _ hplain, hplains]
    · rw [submitAll_cons _ _ _ hrecord, hrecords, List.append_assoc]
    · rw [List.map_append, hnames, hothernames, unitNames, unitNames, unitNames, ← List.map_append,
        ← List.filterMap_append]
      rfl
    · rcases List.mem_append.1 hc with hc | hc
      · exact ⟨s, List.mem_cons_self, hfirst c hc⟩
      · obtain ⟨s', hs', hprovided⟩ := hothers c hc
        exact ⟨s', List.mem_cons_of_mem _ hs', hprovided⟩

/-- Where jobs are run as pods, handing one over is a submission. -/
theorem submit_pods (c : Cluster σ) (options : BuildOptions) (watcher : Watcher) (job : Job)
    (scope : RunScope) (before : Scene (Seen σ) String) :
    let s : Submission := { options, job, scope, now := before.now.millis }
    let r := (Backend.pods c options watcher).submit job scope before
    (r.1, r.2.world.source) = (s.submit c).run before.world.source :=
  Leads.call (P := (· = before.world.source))
    (Q := fun result after => (result, after) =
      (c.submit options job scope.event scope.project before.now.millis).run before.world.source)
    (fun _ hm => hm ▸ rfl) before rfl

/-- **Submissions go by the order**, whatever state the cluster is in: what a submission comes to is
`Orderly`, and of any number of them the pods are created when the secret that they refer to is there, and the
cache if the job is given one. -/
theorem submissions_orderly :
    (∀ (options : BuildOptions) (watcher : Watcher) (job : Job) (scope : RunScope)
        (before : Scene (Seen MemoryCluster) String),
      let r := (Backend.pods cluster options watcher).submit job scope before
      Orderly { options, job, scope, now := before.now.millis } before.world.source r.1
        r.2.world.source) ∧
    ∀ (subs : List Submission) (m : MemoryCluster),
      let r := submitAll Recorder.cluster subs { state := m }
      (r.1, r.2.state) = submitAll cluster subs m ∧
      r.2.creations.map (·.2.metadata.nameText) = unitNames r.1 ∧
      ∀ c ∈ r.2.creations, ∃ s ∈ subs, s.Provided c.1 c.2 := by
  refine ⟨fun options watcher job scope before => ?_, fun subs m => ?_⟩
  · have hsubmit := submit_pods cluster options watcher job scope before
    have horderly := orderly_submit { options, job, scope, now := before.now.millis }
      before.world.source
    rw [← hsubmit] at horderly
    exact horderly
  · obtain ⟨results, state, created, hplain, hrecord, hnames, hcreated⟩ :=
      submitAll_recorder subs { state := m }
    rw [hplain, hrecord]
    exact ⟨rfl, hnames, hcreated⟩

/-- A job without a cache that mounts a volume by the name of one, on a claim of its own choice. -/
def borrowing : Submission where
  job := {
    name := "build"
    container := { image := "alpine" }
    volumes := [{ name := "build-cache", claim := some { claimName := "nowhere" } }]
    volumeMounts := [{ name := "build-cache", mountPath := "/cache" }] }
  scope := { event := .new "run1" "github" "push",
             project := { id := "p1", name := "org/repo", namespaceName := "ci" } }

/-- Nobody sees to that claim: the pod is created though there is none. -/
theorem borrowed_claim_missing :
    let r := (submitAll Recorder.cluster [borrowing] { state := {} }).2
    r.creations.map (fun c => ((c.2.spec.bind (·.volumes)).getD []).filterMap fun v =>
      if v.name = "build-cache" then v.claim.map (·.claimName) else none) = [["nowhere"]] ∧
    ∀ c ∈ r.creations, c.1.claims.contains "nowhere" = false := by
  decide +kernel

end Submission

end EventWorker
