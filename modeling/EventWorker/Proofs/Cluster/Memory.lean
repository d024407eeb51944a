import EventWorker.Cluster.Memory
import EventWorker.Proofs.Table
import EventWorker.Proofs.Unit.Built
import EventWorker.Proofs.Watch.Poll
import EventWorker.Proofs.Watch.Stream

/-!
# Calls on a cluster in memory

What comes of calls, one after another, on a cluster that has no failure switched on, nothing scripted,
and whose units succeed at once (`Calm`). Every call leaves it such a cluster. A job is submitted exactly
if there is a unit of it (`submit_of_calm`), and from then on whoever observes the unit sees it succeed,
unless there is no time for that at all (`observe_of_calm`).
-/

namespace EventWorker

open Resource

/-! ### Calls one after another -/

namespace Call

variable {σ ε φ α β : Type} {x : Call σ ε α} {f : α → Call σ ε β} {s t : σ} {a : α}

theorem bind_of_ok (h : x.run s = (.ok a, t)) : (x >>= f).run s = (f a).run t := by
  show (match x.run s with | (r, t) => ExceptT.bindCont f r t) = _
  rw [h]
  rfl

theorem bind_of_error {e : ε} (h : x.run s = (.error e, t)) : (x >>= f).run s = (.error e, t) := by
  show (match x.run s with | (r, t) => ExceptT.bindCont f r t) = _
  rw [h]
  rfl

theorem discard_of_ok (h : x.run s = (.ok a, t)) : (discard x).run s = (.ok (), t) :=
  bind_of_ok h

/-- A call that is asked whether it has failed. -/
theorem lift_run_bind {g : Except ε α → Call σ φ β} {r : Except ε α} (h : x.run s = (r, t)) :
    ((liftM x.run : Call σ φ (Except ε α)) >>= g).run s = (g r).run t := by
  show (match x.run s with | (r, t) => (g r).run t) = _
  rw [h]

theorem mapFault_of_ok {g : ε → φ} (h : x.run s = (.ok a, t)) : (x.mapFault g).run s = (.ok a, t) := by
  show (match x.run s with | (r, t) => (r.mapError g, t)) = _
  rw [h]
  rfl

theorem mapFault_of_error {g : ε → φ} {e : ε} (h : x.run s = (.error e, t)) :
    (x.mapFault g).run s = (.error (g e), t) := by
  show (match x.run s with | (r, t) => (r.mapError g, t)) = _
  rw [h]
  rfl

theorem snd_run_mapFault (g : ε → φ) : ((x.mapFault g).run s).2 = (x.run s).2 :=
  rfl

/-- What comes after a call does not change the state. -/
theorem snd_run_bind (hf : ∀ a t, ((f a).run t).2 = t) : ((x >>= f).run s).2 = (x.run s).2 := by
  cases h : x.run s with
  | mk r t =>
    cases r with
    | error e => rw [bind_of_error h]
    | ok a => rw [bind_of_ok h, hf]

theorem snd_run_discard : ((discard x).run s).2 = (x.run s).2 :=
  snd_run_bind (f := fun _ => pure ()) fun _ _ => rfl

end Call

namespace MemoryCluster

/-- Calls do not fail, and a unit is in one phase all the time: it has succeeded. -/
structure Calm (m : MemoryCluster) : Prop where
  claimReadFailure : m.claimReadFailure = none
  podRejection : m.podRejection = none
  phases : ∀ name, m.phases.get? name = none
  feeds : ∀ name, m.feeds.get? name = none
  usualPhase : m.usualPhase = .succeeded

theorem calm_succeeding : succeeding.Calm :=
  ⟨rfl, rfl, fun _ => rfl, fun _ => rfl, rfl⟩

theorem Calm.addProject {m : MemoryCluster} (h : m.Calm) (p : Project) : (m.addProject p).Calm :=
  ⟨h.claimReadFailure, h.podRejection, h.phases, h.feeds, h.usualPhase⟩

variable {m : MemoryCluster}

theorem run_call {α : Type} (f : MemoryCluster → Except ClusterError α × MemoryCluster)
    (m : MemoryCluster) : (call f).run m = f m :=
  rfl

/-! ### Creating resources -/

theorem createSecret_of_calm (h : m.Calm) (s : Secret) :
    ∃ m', (createSecret s).run m = (.ok (), m') ∧ m'.Calm :=
  ⟨_, rfl, h.claimReadFailure, h.podRejection, h.phases, h.feeds, h.usualPhase⟩

theorem createPod_of_calm (h : m.Calm) (p : Pod) :
    ∃ m', (createPod p).run m = (.ok (), m') ∧ m'.Calm ∧ m'.pods.contains p.metadata.nameText := by
  let m' : MemoryCluster :=
    { m.note ("pod:" ++ p.metadata.nameText) with pods := m.pods.insert p.metadata.nameText p }
  have hcreate : (createPod p).run m = (.ok (), m') := by
    simp only [createPod, run_call, h.podRejection]
    rfl
  refine ⟨m', hcreate, ⟨h.claimReadFailure, h.podRejection, h.phases, h.feeds, h.usualPhase⟩, ?_⟩
  show ((m.pods.insert p.metadata.nameText p).get? p.metadata.nameText).isSome = true
  rw [Table.get?_insert, if_pos rfl]
  rfl

/-- A claim that is not there is created. -/
theorem createClaim_of_get?_eq_none (h : m.Calm) {c : Claim} (hc : m.claims.get? c.name = none) :
    ∃ m', (createClaim c).run m = (.ok (), m') ∧ m'.Calm ∧ m'.pods = m.pods := by
  let m' : MemoryCluster := { m.note ("claim:" ++ c.name) with claims := m.claims.insert c.name c }
  have habsent : m.claims.contains c.name = false := by
    rw [Table.contains, hc]
    rfl
  have hcreate : (createClaim c).run m = (.ok (), m') := by
    simp only [createClaim, run_call, habsent]
    rfl
  exact ⟨m', hcreate, ⟨h.claimReadFailure, h.podRejection, h.phases, h.feeds, h.usualPhase⟩, rfl⟩

theorem getClaim_of_calm (h : m.Calm) (name : String) :
    (getClaim name).run m = (match m.claims.get? name with
      | some c => .ok c
      | none => .error (.notFound Claim.kindName name), m) := by
  simp only [getClaim, run_call, h.claimReadFailure]
  cases m.claims.get? name <;> rfl

theorem checkCache_of_calm (h : m.Calm) (c : Claim) :
    (cluster.checkCache c).run m = (.ok (m.claims.contains c.name), m) := by
  refine (Call.lift_run_bind (getClaim_of_calm h c.name)).trans ?_
  rw [Table.contains]
  cases m.claims.get? c.name <;> rfl

/-- **The claim of a cache is there afterwards**, whether it was before or not. -/
theorem ensure_of_calm (h : m.Calm) (c : Claim) :
    ∃ status m', (cluster.ensure c).run m = (.ok status, m') ∧ m'.Calm := by
  have hcheck := checkCache_of_calm h c
  cases hthere : m.claims.contains c.name with
  | true =>
    rw [hthere] at hcheck
    exact ⟨.reused, m, Call.bind_of_ok hcheck, h⟩
  | false =>
    have habsent : m.claims.get? c.name = none := by
      rw [Table.contains, Option.isSome_eq_false_iff, Option.isNone_iff_eq_none] at hthere
      exact hthere
    obtain ⟨m', hcreate, hcalm, -⟩ := createClaim_of_get?_eq_none h habsent
    rw [hthere] at hcheck
    refine ⟨.created, m', (Call.bind_of_ok hcheck).trans ?_, hcalm⟩
    exact Call.bind_of_ok (Call.mapFault_of_ok hcreate)

theorem pods_deleteClaim (m : MemoryCluster) (name : String) :
    ((deleteClaim name).run m).2.pods = m.pods := by
  simp only [deleteClaim, run_call]
  split
  · rfl
  · split <;> rfl

/-! ### Units -/

theorem nameText_pod {options : BuildOptions} {job : Job} {event : Event} {project : Project}
    {now : Int} {u : ExecutionUnit}
    (hbuild : ExecutionUnit.build options job event project now = .ok u) :
    u.pod.metadata.nameText = u.name := by
  obtain ⟨volumes, hu⟩ := ExecutionUnit.built_of_build hbuild
  rw [hu.pod]
  rfl

/-- **A job is submitted if there is a unit of it**, and its pod is there then. -/
theorem submit_of_calm (h : m.Calm) (options : BuildOptions) (job : Job) (event : Event)
    (project : Project) (now : Int) :
    match ExecutionUnit.build options job event project now with
    | .error e => (cluster.submit options job event project now).run m = (.error (.build e), m)
    | .ok u => ∃ m', (cluster.submit options job event project now).run m = (.ok u.ref, m') ∧
        m'.Calm ∧ m'.pods.contains u.name := by
  cases hbuild : ExecutionUnit.build options job event project now with
  | error e =>
    simp only [Cluster.submit, hbuild]
    rfl
  | ok u =>
    -- once the cache is seen to, nothing fails
    have hrest : ∀ {m₁ : MemoryCluster}, m₁.Calm → ∃ m',
        ((do
          ((createSecret u.secret).mapFault (JobError.scheduling job.name))
          ((createPod u.pod).mapFault (JobError.scheduling job.name))
          return u.ref : Call MemoryCluster JobError UnitRef).run m₁ = (.ok u.ref, m')) ∧
        m'.Calm ∧ m'.pods.contains u.name := by
      intro m₁ h₁
      obtain ⟨m₂, hsecret, h₂⟩ := createSecret_of_calm h₁ u.secret
      obtain ⟨m₃, hpod, h₃, hthere⟩ := createPod_of_calm h₂ u.pod
      rw [nameText_pod hbuild] at hthere
      refine ⟨m₃, ?_, h₃, hthere⟩
      exact (Call.bind_of_ok (Call.mapFault_of_ok hsecret)).trans
        (Call.bind_of_ok (Call.mapFault_of_ok hpod))
    simp only [Cluster.submit, hbuild]
    cases hclaim : u.cacheClaim with
    | none =>
      obtain ⟨m', hrun, hm'⟩ := hrest h
      exact ⟨m', hrun, hm'⟩
    | some claim =>
      obtain ⟨status, m₁, hensure, h₁⟩ := ensure_of_calm h claim
      obtain ⟨m', hrun, hm'⟩ := hrest h₁
      refine ⟨m', ?_, hm'⟩
      exact (Call.bind_of_ok (Call.discard_of_ok (Call.mapFault_of_ok hensure))).trans hrun

/-! ### Observing -/

/-- A pod that is there has succeeded. -/
theorem readPhase_of_calm (h : m.Calm) {u : UnitRef} (hpod : m.pods.contains u.name) :
    ∃ m', cluster.source.read u m = ({ result := .ok (some .succeeded) }, m') ∧ m'.Calm := by
  let m' : MemoryCluster := { m with phaseReads := m.phaseReads + 1 }
  have hread : (readPhase u).run m = (.ok (some .succeeded), m') := by
    simp only [readPhase, run_call, h.phases u.name, if_pos hpod]
    rw [← h.usualPhase]
    rfl
  refine ⟨m', ?_, ⟨h.claimReadFailure, h.podRejection, h.phases, h.feeds, h.usualPhase⟩⟩
  show Prod.map (fun r => ({ result := r } : Reading)) id ((readPhase u).run m) = _
  rw [hread]
  rfl

/-- A subscription says so at once. -/
theorem subscribe_of_calm (h : m.Calm) (u : UnitRef) :
    ∃ m', cluster.source.subscribe u m = (.ok { items := [(0, .ok .succeeded)] }, m') ∧ m'.Calm := by
  let m' : MemoryCluster := { m with subscriptions := m.subscriptions + 1 }
  have hsubscribe : (subscribe u).run m = (.ok (.ofItems [.phase .succeeded]), m') := by
    simp only [subscribe, run_call, h.feeds u.name]
    rw [← h.usualPhase]
    rfl
  exact ⟨m', hsubscribe, ⟨h.claimReadFailure, h.podRejection, h.phases, h.feeds, h.usualPhase⟩⟩

/-- **Whoever observes a pod that is there sees it succeed**, if there is any time for it. -/
theorem observe_of_calm {w : Watcher} (hw : ∀ i, w = .polling i → 0 < i.millis)
    {seen : Seen MemoryCluster} (h : seen.source.Calm) {u : UnitRef}
    (hpod : seen.source.pods.contains u.name) (fallible : Bool) (timeout : Duration) :
    ∃ v seen', w.observe cluster.source u fallible timeout seen = (v, seen') ∧ seen'.source.Calm ∧
      v.outcome = .ok (if 0 < timeout.millis then .succeeded else .timedOut) := by
  cases w with
  | polling interval =>
    have hi : interval.millis ≠ 0 := Nat.pos_iff_ne_zero.1 (hw interval rfl)
    have hobserve : (Watcher.polling interval).observe cluster.source u fallible timeout seen =
        Watch.pollFrom cluster.source u interval.millis timeout.millis
          (timeout.millis / interval.millis + 1 + 1) 0 0 seen := by
      show Watch.poll cluster.source interval.millis u timeout.millis seen = _
      rw [Watch.poll, if_neg hi]
    rw [hobserve]
    by_cases ht : 0 < timeout.millis
    · obtain ⟨m', hread, hm'⟩ := readPhase_of_calm h hpod
      have hfirst : cluster.source.readings u seen.source 0 = { result := .ok (some .succeeded) } :=
        congrArg Prod.fst hread
      have hafter : cluster.source.afterReadings u seen.source 1 = m' := congrArg Prod.snd hread
      have hstart : max 0 0 < timeout.millis := by omega
      have hzero : seen.source = cluster.source.afterReadings u seen.source 0 := rfl
      obtain ⟨ledger, hpoll⟩ := Watch.pollFrom_of_lt interval.millis
        (timeout.millis / interval.millis + 1) hstart hzero
      have hdone : ¬ timeout.millis ≤
          max 0 0 + ({ result := .ok (some .succeeded) } : Reading).delay :=
        Nat.not_le.2 hstart
      rw [hpoll, hfirst, hafter, Watch.afterReading, if_neg hdone, if_pos ht]
      exact ⟨_, _, rfl, hm', rfl⟩
    · have hzero : timeout.millis ≤ max 0 0 := by omega
      rw [Watch.pollFrom_of_le _ hzero, if_neg ht]
      exact ⟨_, _, rfl, h, rfl⟩
  | streaming r =>
    obtain ⟨bound, hbound⟩ : ∃ bound, (timeout.millis + 1) * Watch.mostAtOnce = bound + 1 :=
      Nat.exists_eq_succ_of_ne_zero (Nat.mul_ne_zero (Nat.succ_ne_zero _) (by decide))
    have hobserve : (Watcher.streaming r).observe cluster.source u fallible timeout seen =
        (Watch.pass cluster.source u r timeout.millis fallible 0 0 >>=
          Watch.goOn cluster.source u r timeout.millis fallible bound) seen := by
      show Watch.stream cluster.source r u fallible timeout.millis seen = _
      rw [Watch.stream, hbound, Watch.streamFrom_succ]
    rw [hobserve]
    by_cases ht : 0 < timeout.millis
    · obtain ⟨m', hsubscribe, hm'⟩ := subscribe_of_calm h u
      have hfirst : cluster.source.answers u seen.source 0 = .ok { items := [(0, .ok .succeeded)] } :=
        congrArg Prod.fst hsubscribe
      have hafter : cluster.source.after u seen.source 1 = m' := congrArg Prod.snd hsubscribe
      have hzero : seen.source = cluster.source.after u seen.source 0 := rfl
      obtain ⟨ledger, hattend⟩ := Watch.attend_eq ht hzero
      have hfate : (Fate.ofAnswer (cluster.source.answers u seen.source 0)).within timeout.millis 0
          (productive (cluster.source.answers u seen.source 0)) = .final .succeeded 0 := by
        rw [hfirst]
        exact if_pos ht
      rw [hfate, hafter] at hattend
      simp only [Watch.pass, if_neg (Nat.not_le.2 ht), bind, StateT.bind, hattend, if_pos ht]
      exact ⟨_, _, rfl, hm', rfl⟩
    · simp only [Watch.pass, if_pos (Nat.not_lt.1 ht), if_neg ht]
      exact ⟨_, _, rfl, h, rfl⟩

end MemoryCluster

end EventWorker
