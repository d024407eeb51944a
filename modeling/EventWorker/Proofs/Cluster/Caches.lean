import EventWorker.Proofs.Naming
import EventWorker.Proofs.Cluster.Submission
import EventWorker.Proofs.Unit.Refused

/-!
# Whose cache it is

A job is handed the claim that is found under the name of its cache. When the caches of many jobs are seen
to one after another, that is the claim that was there before any of them, or else the claim of the first
of them whose cache has this name. Jobs of one project never share a cache unless they are called the same.
Jobs of different projects may: a hyphen does not tell where the name of the project ends.

Main statement: `caches_shared`.
-/

namespace EventWorker

open Resource Cluster

/-- A job that wants a cache, with the claim that its unit has for it. -/
structure CacheUser where
  submission : Submission
  unit : ExecutionUnit
  claim : Claim
  built : submission.build = .ok unit
  wants : unit.cacheClaim = some claim

namespace CacheUser

variable (user other : CacheUser)

def project : String :=
  user.submission.scope.project.name

def job : String :=
  user.submission.job.name

theorem isJobName_job : IsJobName user.job := by
  have hproper := ExecutionUnit.exists_build_iff_proper.1 ⟨user.unit, user.built⟩
  exact hproper.1 _ List.mem_cons_self

theorem claim_name : user.claim.name = cacheVolumeName user.project user.job := by
  obtain ⟨volumes, hbuilt⟩ := ExecutionUnit.built_of_build user.built
  have hclaim := user.wants
  rw [hbuilt.cacheClaim, ExecutionUnit.cacheClaim?] at hclaim
  split at hclaim
  · rw [← Option.some.inj hclaim]
    rfl
  · cases hclaim

def Shares : Prop :=
  SharesCache other.project other.job user.project user.job

theorem claim_name_eq_iff : other.claim.name = user.claim.name ↔ user.Shares other := by
  rw [claim_name, claim_name]
  exact cacheVolumeName_eq_iff other.isJobName_job user.isJobName_job

end CacheUser

namespace MemoryCluster

variable {m : MemoryCluster} {claim : Claim} {claims : List Claim} {name : String}

/-- The state when claims have been seen to, one after another. -/
def afterEnsuring (m : MemoryCluster) (claims : List Claim) : MemoryCluster :=
  claims.foldl (fun m claim => ((cluster.ensure claim).run m).2) m

/-! ### One claim -/

/-- Nothing comes of it where claims cannot be read. -/
theorem ensure_of_unreadable {reason : String} (h : m.claimReadFailure = some reason) :
    (cluster.ensure claim).run m = (.error (.check claim.name (.request reason)), m) := by
  rw [ensure_run, h]

theorem ensure_of_readable (h : m.claimReadFailure = none) : (cluster.ensure claim).run m =
    (.ok (if m.claims.contains claim.name then .reused else .created), m.withCache (some claim)) := by
  rw [ensure_run, h]

theorem claimReadFailure_withCache (m : MemoryCluster) (claim : Claim) :
    (m.withCache (some claim)).claimReadFailure = m.claimReadFailure := by
  unfold withCache
  dsimp only
  split <;> rfl

/-! ### Many claims -/

theorem afterEnsuring_of_unreadable {reason : String} (h : m.claimReadFailure = some reason) :
    m.afterEnsuring claims = m := by
  induction claims with
  | nil => rfl
  | cons claim rest ih =>
    show ((cluster.ensure claim).run m).2.afterEnsuring rest = m
    rw [ensure_of_unreadable h]
    exact ih

/-- What is found under a name afterwards: what was there before, or else the first claim of the name. -/
theorem get?_afterEnsuring (h : m.claimReadFailure = none) (claims : List Claim) (name : String) :
    (m.afterEnsuring claims).claimReadFailure = none ∧
    (m.afterEnsuring claims).claims.get? name =
      (m.claims.get? name).or (claims.find? fun claim => claim.name = name) := by
  induction claims generalizing m with
  | nil => exact ⟨h, (Option.or_none).symm⟩
  | cons claim rest ih =>
    have hstep : m.afterEnsuring (claim :: rest) = (m.withCache (some claim)).afterEnsuring rest := by
      show ((cluster.ensure claim).run m).2.afterEnsuring rest = _
      rw [ensure_of_readable h]
    obtain ⟨hreadable, hget⟩ := ih ((claimReadFailure_withCache m claim).trans h)
    rw [hstep]
    refine ⟨hreadable, hget.trans ?_⟩
    rw [get?_withCache, Option.or_assoc, List.find?_cons]
    by_cases hname : claim.name = name
    · simp [hname]
    · simp [hname]

/-! ### Many jobs -/

variable {earlier : List CacheUser} {user : CacheUser}

/-- What a job is handed for its cache after the caches of earlier ones have been seen to. -/
inductive Handed (m : MemoryCluster) (earlier : List CacheUser) (user : CacheUser) :
    CacheStatus → Claim → Prop where
  /-- A claim that was there before all of them. -/
  | kept {found : Claim} : m.claims.get? user.claim.name = some found → Handed m earlier user .reused found
  /-- The claim of the first of them that shares a cache with it. -/
  | shared {before after : List CacheUser} {other : CacheUser} : m.claims.get? user.claim.name = none →
      earlier = before ++ other :: after → user.Shares other → (∀ b ∈ before, ¬ user.Shares b) →
      Handed m earlier user .reused other.claim
  /-- Its own, if there is no such job. -/
  | own : m.claims.get? user.claim.name = none → (∀ other ∈ earlier, ¬ user.Shares other) →
      Handed m earlier user .created user.claim

theorem handed_of_readable (h : m.claimReadFailure = none) (earlier : List CacheUser) (user : CacheUser) :
    ∃ status found,
      ((cluster.ensure user.claim).run (m.afterEnsuring (earlier.map (·.claim)))).1 = .ok status ∧
      ((cluster.ensure user.claim).run (m.afterEnsuring (earlier.map (·.claim)))).2.claims.get?
        user.claim.name = some found ∧
      Handed m earlier user status found := by
  obtain ⟨hreadable, hget⟩ := get?_afterEnsuring h (earlier.map (·.claim)) user.claim.name
  rw [ensure_of_readable hreadable]
  dsimp only
  rw [get?_withCache, if_pos rfl, Table.contains, hget]
  cases hthere : m.claims.get? user.claim.name with
  | some found => exact ⟨.reused, found, rfl, rfl, .kept hthere⟩
  | none =>
    -- the first claim of the name is that of the first job that shares the cache
    rw [Option.none_or, List.find?_map]
    cases hfirst : earlier.find? ((fun claim => claim.name = user.claim.name) ∘ (·.claim)) with
    | some other =>
      obtain ⟨hname, before, after, hearlier, hbefore⟩ := List.find?_eq_some_iff_append.1 hfirst
      refine ⟨.reused, other.claim, rfl, rfl, .shared hthere hearlier ?_ ?_⟩
      · exact (user.claim_name_eq_iff other).1 (by simpa using hname)
      · intro b hb hshares
        have hother := hbefore b hb
        simp [(user.claim_name_eq_iff b).2 hshares] at hother
    | none =>
      refine ⟨.created, user.claim, rfl, rfl, .own hthere ?_⟩
      intro other hmem hshares
      have hother := List.find?_eq_none.1 hfirst other hmem
      simp [(user.claim_name_eq_iff other).2 hshares] at hother

/-- **Whose cache a job is handed.** Two jobs have caches of one name exactly if they share one; jobs of one
project do so only if they are called the same. When the caches of jobs are seen to one after another, each
of them is handed the claim that was there before, or that of the first job that shares its cache, or else
its own; where claims cannot be read it is handed none, and nothing is done. -/
theorem caches_shared :
    (∀ project job project' job', IsJobName job → IsJobName job' →
      (cacheVolumeName project job = cacheVolumeName project' job' ↔
        SharesCache project job project' job')) ∧
    (∀ project job job', IsJobName job → IsJobName job' →
      (cacheVolumeName project job = cacheVolumeName project job' ↔ job = job')) ∧
    ∀ (m : MemoryCluster) (earlier : List CacheUser) (user : CacheUser),
      let (result, after) := (cluster.ensure user.claim).run (m.afterEnsuring (earlier.map (·.claim)))
      match m.claimReadFailure with
      | some reason => result = .error (.check user.claim.name (.request reason)) ∧ after = m
      | none => ∃ status found, result = .ok status ∧
          after.claims.get? user.claim.name = some found ∧ Handed m earlier user status found := by
  refine ⟨?_, ?_, ?_⟩
  · intro project job project' job' h h'
    exact cacheVolumeName_eq_iff h h'
  · intro project job job' h h'
    exact cacheVolumeName_inj project h h'
  · intro m earlier user
    cases hfail : m.claimReadFailure with
    | some reason =>
      rw [afterEnsuring_of_unreadable hfail, ensure_of_unreadable hfail]
      exact ⟨rfl, rfl⟩
    | none => exact handed_of_readable hfail earlier user

/-- A job with a cache, of a project of a name. -/
def cachingSubmission (project job : String) : Submission where
  job := { Job.ofImage job "alpine" with cache := { enabled := true } }
  scope := { event := .primary { id := "e", source := "github", type := "push" },
             project := { id := project, name := project } }

/-- A submission whose unit has a claim for a cache is that of a job that wants one. -/
theorem exists_cacheUser {s : Submission} (h : (s.build.toOption.bind (·.cacheClaim)).isSome) :
    ∃ user : CacheUser, user.submission = s := by
  obtain ⟨claim, hclaim⟩ := Option.isSome_iff_exists.1 h
  obtain ⟨unit, hunit, hwants⟩ := Option.bind_eq_some_iff.1 hclaim
  cases hbuild : s.build with
  | error e =>
    rw [hbuild] at hunit
    cases hunit
  | ok u =>
    rw [hbuild] at hunit
    obtain rfl := Option.some.inj hunit
    exact ⟨⟨s, u, claim, hbuild, hwants⟩, rfl⟩

/-- How the parts of a project's name are separated makes no difference to its caches: of two jobs of one
name the second is handed the claim of the first. -/
theorem caches_shared_unitTest :
    cacheVolumeName "org/repo" "unit-test" = cacheVolumeName "org.repo" "unit-test" ∧
    cacheVolumeName "org/repo" "unit-test" ≠ cacheVolumeName "org/repo" "test" ∧
    ∃ first second : CacheUser, first.submission = cachingSubmission "org/repo" "unit-test" ∧
      second.submission = cachingSubmission "org.repo" "unit-test" ∧
      let (result, after) := (cluster.ensure second.claim).run
        (({} : MemoryCluster).afterEnsuring ([first].map (·.claim)))
      result = .ok .reused ∧ after.claims.get? second.claim.name = some first.claim := by
  have hunitTest : IsJobName "unit-test" := by decide +kernel
  have htest : IsJobName "test" := by decide +kernel
  obtain ⟨first, hfirst⟩ := exists_cacheUser (s := cachingSubmission "org/repo" "unit-test")
    (by decide +kernel)
  obtain ⟨second, hsecond⟩ := exists_cacheUser (s := cachingSubmission "org.repo" "unit-test")
    (by decide +kernel)
  refine ⟨?_, ?_, first, second, hfirst, hsecond, ?_⟩
  · exact (caches_shared.1 _ _ _ _ hunitTest hunitTest).2 (.same (by decide +kernel))
  · exact mt (caches_shared.2.1 _ _ _ hunitTest htest).1 (by decide)
  · have hshares : second.Shares first := by
      rw [CacheUser.Shares, CacheUser.project, CacheUser.job, CacheUser.project, CacheUser.job, hfirst,
        hsecond]
      exact .same (by decide +kernel)
    obtain ⟨status, found, hresult, hfound, hhanded⟩ := caches_shared.2.2 {} [first] second
    cases hhanded with
    | kept hthere => cases hthere
    | shared _ hearlier =>
      obtain ⟨rfl, -⟩ | ⟨-, hnil⟩ := List.append_eq_singleton_iff.1 hearlier.symm
      · obtain ⟨rfl, -⟩ := List.cons.inj hearlier
        exact ⟨hresult, hfound⟩
      · cases hnil
    | own _ hnot => exact absurd hshares (hnot first (List.mem_singleton_self first))

/-- Different jobs of different projects have one cache: the second of them is handed the claim that was
made for the first. -/
theorem cache_of_another_project :
    IsJobName "unit-test" ∧ IsJobName "test" ∧ ("org/repo", "unit-test") ≠ ("org/repo-unit", "test") ∧
    cacheVolumeName "org/repo" "unit-test" = cacheVolumeName "org/repo-unit" "test" ∧
    let after := (Submission.submitAll cluster
      [cachingSubmission "org/repo" "unit-test", cachingSubmission "org/repo-unit" "test"] {}).2
    after.pods.keys = ["test-e", "unit-test-e"] ∧
    after.claims.keys = ["org-repo-unit-test"] ∧
    (after.claims.get? "org-repo-unit-test").bind
      (fun claim => claim.metadata.labels.bind (·.get? "project")) = some "org/repo" := by
  decide +kernel

end MemoryCluster

end EventWorker
