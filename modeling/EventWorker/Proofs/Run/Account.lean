import EventWorker.Proofs.Run.Records

/-!
# Accounts of steps

What becomes of a step, however its groups are nested: an account is a tree like the step, which gives
for each group and each job when it was at work and what it came to (`Account`). Such an account is
lawful if every group in it has run its members in its own way.

* `Account.success_iff`: a lawful account tells of a success exactly if it does so of each job.
* `Account.within_of_mem_jobs`: no job begins before the step, or is at work after it.
* `Step.run_lawful`: every run of a step has a lawful account, which the journal bears out: it reports
  the beginning and the end of each job of which the account tells, and of no others.
-/

namespace EventWorker

variable {σ α φ : Type}

/-- What has become of a step. Where something was never begun, there is no span. -/
inductive Account (α φ : Type) where
  | job (a : α) (span : Option (Span φ))
  | group (way : Way) (members : List (Account α φ)) (span : Option (Span φ))

namespace Account

def span : Account α φ → Option (Span φ)
  | job _ m => m
  | group _ _ m => m

mutual

/-- The step that an account is of. -/
def step : Account α φ → Step α
  | job a _ => .job a
  | group way members _ => way.step (steps members)

def steps : List (Account α φ) → List (Step α)
  | [] => []
  | x :: rest => step x :: steps rest

end

mutual

/-- What is told of the jobs, from left to right. -/
def jobs : Account α φ → List (α × Option (Span φ))
  | job a m => [(a, m)]
  | group _ members _ => jobsOfAll members

def jobsOfAll : List (Account α φ) → List (α × Option (Span φ))
  | [] => []
  | x :: rest => jobs x ++ jobsOfAll rest

end

/-- Every group has run its members in its own way, and no job has ended before it began. -/
inductive Lawful : Account α φ → Prop where
  | job (a : α) (m : Option (Span φ)) (h : ∀ n, m = some n → n.begun.le n.ended) : Lawful (job a m)
  | group (way : Way) (members : List (Account α φ)) (m : Option (Span φ))
      (h : Follows way.Law m (members.map span)) (hall : ∀ x ∈ members, Lawful x) :
      Lawful (group way members m)

theorem jobsOfAll_eq (xs : List (Account α φ)) : jobsOfAll xs = xs.flatMap jobs := by
  induction xs with
  | nil => rfl
  | cons x rest ih => rw [jobsOfAll, ih, List.flatMap_cons]

theorem mem_jobsOfAll_iff {xs : List (Account α φ)} {o : α × Option (Span φ)} :
    o ∈ jobsOfAll xs ↔ ∃ x ∈ xs, o ∈ x.jobs := by
  rw [jobsOfAll_eq, List.mem_flatMap]

theorem steps_eq_of_forall₂ {xs : List (Account α φ)} {items : List (Step α)}
    (h : List.Forall₂ (fun x s => x.step = s ∧ x.Lawful) xs items) :
    steps xs = items ∧ ∀ x ∈ xs, x.Lawful := by
  induction h with
  | nil => exact ⟨rfl, fun _ hx => absurd hx List.not_mem_nil⟩
  | cons hx _ ih =>
    refine ⟨by rw [steps, hx.1, ih.1], List.forall_mem_cons.2 ⟨hx.2, ih.2⟩⟩

mutual

/-- An account tells of the jobs of its step, of each occurrence once. -/
theorem map_fst_jobs : (x : Account α φ) → x.jobs.map (·.1) = x.step.jobs
  | job a m => by rw [jobs, step, Step.jobs, List.map_singleton]
  | group way members m => by
    rw [jobs, step, map_fst_jobsOfAll members]
    cases way with
    | serial => rw [Way.step, Step.jobs]
    | concurrent => rw [Way.step, Step.jobs]
    | batched limit => rw [Way.step, Step.jobs]

theorem map_fst_jobsOfAll :
    (xs : List (Account α φ)) → (jobsOfAll xs).map (·.1) = Step.jobsOfAll (steps xs)
  | [] => rfl
  | x :: rest => by
    rw [jobsOfAll, steps, Step.jobsOfAll, List.map_append, map_fst_jobs x, map_fst_jobsOfAll rest]

end

namespace Lawful

variable {x : Account α φ} {m : Span φ}

/-- Of a step that has succeeded all jobs have been run and have succeeded. -/
theorem jobs_of_success (h : x.Lawful) :
    ∀ m, x.span = some m → m.result = .ok () →
      ∀ o ∈ x.jobs, ∃ n, o.2 = some n ∧ n.result = .ok () := by
  induction h with
  | job a span =>
    intro m hm hok o ho
    rw [jobs, List.mem_singleton] at ho
    subst ho
    exact ⟨m, hm, hok⟩
  | group way members span hlaw _ ih =>
    intro m hm hok o ho
    have hm : span = some m := hm
    subst hm
    rw [jobs, mem_jobsOfAll_iff] at ho
    obtain ⟨x, hx, ho⟩ := ho
    obtain ⟨n, hn, hnok⟩ :=
      (Way.success_of_law hlaw).1 hok x.span (List.mem_map_of_mem hx)
    exact ih x hx n hn hnok o ho

/-- The error of a step that has failed is that of one of its jobs. -/
theorem job_of_failure (h : x.Lawful) :
    ∀ m e, x.span = some m → m.result = .error e →
      ∃ a n, (a, some n) ∈ x.jobs ∧ n.result = .error e := by
  induction h with
  | job a span =>
    intro m e hm he
    have hm : span = some m := hm
    subst hm
    exact ⟨a, m, List.mem_singleton_self _, he⟩
  | group way members span hlaw _ ih =>
    intro m e hm he
    have hm : span = some m := hm
    subst hm
    obtain ⟨n, hn, hne⟩ := Way.failure_of_law hlaw he
    obtain ⟨x, hx, hspan⟩ := List.mem_map.1 hn
    obtain ⟨a, k, hk, hke⟩ := ih x hx n e hspan hne
    exact ⟨a, k, mem_jobsOfAll_iff.2 ⟨x, hx, hk⟩, hke⟩

/-- **A step succeeds if each of its jobs does, and only then.** -/
theorem success_iff (h : x.Lawful) (hm : x.span = some m) :
    m.result = .ok () ↔ ∀ o ∈ x.jobs, ∃ n, o.2 = some n ∧ n.result = .ok () := by
  refine ⟨h.jobs_of_success m hm, fun hall => ?_⟩
  cases hresult : m.result with
  | ok _ => rfl
  | error e =>
    obtain ⟨a, n, hn, hne⟩ := h.job_of_failure m e hm hresult
    obtain ⟨k, hk, hok⟩ := hall _ hn
    obtain rfl : n = k := Option.some.inj hk
    rw [hok] at hne
    cases hne

/-- **A job is at work only while the step is.** Where the step was never begun, no job was either. -/
theorem within_of_mem_jobs (h : x.Lawful) :
    ∀ a n, (a, some n) ∈ x.jobs → n.begun.le n.ended ∧
      ∃ m, x.span = some m ∧ m.begun.le n.begun ∧ n.ended.le m.ended := by
  induction h with
  | job a span hspan =>
    intro b n hn
    rw [jobs, List.mem_singleton] at hn
    obtain ⟨-, rfl⟩ := Prod.mk.inj hn
    exact ⟨hspan n rfl, n, rfl, n.begun.le_refl, n.ended.le_refl⟩
  | group way members span hlaw _ ih =>
    intro b n hn
    rw [jobs, mem_jobsOfAll_iff] at hn
    obtain ⟨x, hx, hn⟩ := hn
    obtain ⟨hle, k, hk, hbegun, hended⟩ := ih x hx b n hn
    have hmem : some k ∈ members.map Account.span := List.mem_map.2 ⟨x, hx, hk⟩
    cases span with
    | none => exact absurd (hlaw _ hmem) (Option.some_ne_none k)
    | some m =>
      obtain ⟨hbegun', hended'⟩ := Way.within_of_law hlaw hmem
      exact ⟨hle, m, rfl, Moment.le_trans hbegun' hbegun, Moment.le_trans hended hended'⟩

end Lawful

end Account

/-! ### What a job reports -/

/-- The beginning or the end of a job. -/
def Entry.milestone? : Entry → Option Progress
  | .progress (.started job) => some (.started job)
  | .progress (.completed job phase took) => some (.completed job phase took)
  | .progress (.failed job text took) => some (.failed job text took)
  | _ => none

/-- The beginnings and the ends of jobs. -/
def Journal.milestones (j : Journal) : List (Moment × Progress) :=
  j.filterMap fun e => e.2.milestone?.map (e.1, ·)

theorem Journal.milestones_append (i j : Journal) :
    milestones (i ++ j) = i.milestones ++ j.milestones :=
  List.filterMap_append

theorem Journal.milestones_report {p : Progress} {m : Moment}
    (hp : (Entry.progress p).milestone? = some p) : milestones [(m, .progress p)] = [(m, p)] := by
  simp only [milestones, List.filterMap_cons, hp, Option.map_some, List.filterMap_nil]

namespace Job

/-- The report of what a job has come to. -/
def closing (j : Job) (m : Span JobError) : Progress :=
  match m.result with
  | .ok () => .completed j.name .succeeded ⟨m.ended.millis - m.begun.millis⟩
  | .error e => .failed j.name e.message ⟨m.ended.millis - m.begun.millis⟩

/-- What is reported of a job, if it was ever begun. -/
def reports (j : Job) : Option (Span JobError) → List (Moment × Progress)
  | none => []
  | some m => [(m.begun, .started j.name), (m.ended, j.closing m)]

theorem milestone?_closing (j : Job) (m : Span JobError) :
    (Entry.progress (j.closing m)).milestone? = some (j.closing m) := by
  unfold closing
  split <;> rfl

end Job

/-- Work by which no job begins or ends. -/
def Silent (m : Work σ α) : Prop :=
  ∀ s : Scene (World σ) Entry, ∃ j : Journal, (m s).2.log = s.log ++ j ∧ j.milestones = []

namespace Silent

variable {β : Type}

theorem pure (a : α) : Silent (Pure.pure a : Work σ α) :=
  fun s => ⟨[], (List.append_nil s.log).symm, rfl⟩

theorem bind {m : Work σ α} {f : α → Work σ β} (hm : Silent m) (hf : ∀ a, Silent (f a)) :
    Silent (m >>= f) := by
  intro s
  obtain ⟨i, hi, hnone⟩ := hm s
  obtain ⟨j, hj, hnone'⟩ := hf (m s).1 (m s).2
  refine ⟨i ++ j, ?_, by rw [Journal.milestones_append, hnone, hnone', List.append_nil]⟩
  rw [← List.append_assoc, ← hi]
  exact hj

/-- All that an errand writes down are operations. -/
theorem see (e : Errand σ α) : Silent (Work.see e) := by
  refine fun s => ⟨_, rfl, List.filterMap_eq_nil_iff.2 fun x hx => ?_⟩
  obtain ⟨y, -, rfl⟩ := List.mem_map.1 hx
  rfl

theorem report {p : Progress} (hp : (Entry.progress p).milestone? = none) :
    Silent (Work.report p : Work σ Unit) := by
  refine fun s => ⟨_, rfl, ?_⟩
  simp only [Journal.milestones, List.filterMap_cons, hp, Option.map_none, List.filterMap_nil]

end Silent

/-- The scene after a report. -/
def reported (s : Scene (World σ) Entry) (p : Progress) : Scene (World σ) Entry :=
  (Work.report p s).2

section

variable {β : Type} {m : Work σ α} {f : α → Work σ β} {s t : Scene (World σ) Entry} {a : α}

theorem bind_of_eq (h : m s = (a, t)) : (m >>= f) s = f a t := by
  simp only [bind, StateT.bind, h]

theorem now_bind (f : Moment → Work σ β) (s : Scene (World σ) Entry) :
    (Activity.now >>= f) s = f s.now s :=
  rfl

theorem report_bind (p : Progress) (f : Unit → Work σ β) (s : Scene (World σ) Entry) :
    (Work.report p >>= f) s = f () (reported s p) :=
  rfl

end

namespace Job

variable (b : Backend σ) (scope : RunScope) (j : Job)

theorem silent_execute : Silent (j.execute b scope) := by
  refine .bind (.see _) fun submitted => ?_
  cases submitted with
  | error e => exact .pure _
  | ok u =>
    refine .bind (.report rfl) fun _ => .bind (.see _) fun observed => ?_
    cases observed with
    | error e => exact .pure _
    | ok p => exact .pure _

/-- A job is executed between its reports on itself. -/
theorem run_eq {s t : Scene (World σ) Entry} {u : Option UnitRef} {result : Except JobError Unit}
    (h : j.execute b scope (reported s (.started j.name)) = ((u, result), t)) :
    j.run b scope s = (result, reported t (j.closing ⟨s.now, t.now, result⟩)) := by
  have hschedule : j.schedule b scope s =
      ((u, result), reported t (j.closing ⟨s.now, t.now, result⟩)) := by
    rw [schedule, now_bind, report_bind, bind_of_eq h]
    cases result with
    | ok _ => rfl
    | error e => rfl
  rw [run, bind_of_eq hschedule]
  rfl

/-- Of a job nothing is reported but its beginning and its end. -/
theorem exists_log_run (s : Scene (World σ) Entry) :
    ∃ i : Journal, (j.run b scope s).2.log = s.log ++ i ∧
      i.milestones = j.reports (some (spanOf (j.run b scope) s)) := by
  obtain ⟨i, hi, hnone⟩ := silent_execute b scope j (reported s (.started j.name))
  rcases hexecute : j.execute b scope (reported s (.started j.name)) with ⟨⟨u, result⟩, t⟩
  rw [hexecute] at hi
  have hi : t.log = s.log ++ [(s.now, .progress (.started j.name))] ++ i := hi
  rw [spanOf, run_eq b scope j hexecute]
  let m : Span JobError := ⟨s.now, t.now, result⟩
  show ∃ i : Journal, t.log ++ [(t.now, .progress (j.closing m))] = s.log ++ i ∧
    i.milestones = j.reports (some m)
  refine ⟨[(s.now, .progress (.started j.name))] ++ i ++ [(t.now, .progress (j.closing m))], ?_, ?_⟩
  · rw [hi, List.append_assoc, List.append_assoc, List.append_assoc]
  · rw [Journal.milestones_append, Journal.milestones_append, hnone,
      Journal.milestones_report rfl, Journal.milestones_report (milestone?_closing j m)]
    rfl

end Job

/-! ### Every run of a step -/

namespace Step

theorem runs_eq_map {ε : Type} (perform : α → Activity σ ε (Except φ Unit)) (steps : List (Step α)) :
    runs perform steps = steps.map (run perform) := by
  induction steps with
  | nil => rfl
  | cons s rest ih => rw [runs, ih, List.map_cons]

theorem run_way {ε : Type} (perform : α → Activity σ ε (Except φ Unit)) (w : Way) (steps : List (Step α)) :
    (w.step steps).run perform = w.run (steps.map (run perform)) := by
  rw [← runs_eq_map]
  cases w with
  | serial => rw [Way.step, run, Way.run]
  | concurrent => rw [Way.step, run, Way.run]
  | batched limit => rw [Way.step, run, Way.run]

end Step

namespace Records

variable {ρ β : Type} {R : Records σ φ ρ (Step α) β} {perform : α → Work σ (Except φ Unit)}

/-- What is recorded of a group is made up of what is recorded of its members. -/
structure OfSteps (R : Records σ φ ρ (Step α) β) (perform : α → Work σ (Except φ Unit)) : Prop where
  work : R.work = Step.run perform
  leaf : ∀ a, R.Kept (.job a)
  group : ∀ (w : Way) {steps : List (Step α)} {xs : List β} (m : Option (Span φ)),
    List.Forall₂ R.IsOf xs steps → Follows w.Law m (xs.map R.span) →
    ∃ x, R.IsOf x (w.step steps) ∧ R.span x = m ∧ R.notes x = xs.flatMap R.notes

namespace OfSteps

theorem kept_group (hR : R.OfSteps perform) (w : Way) {steps : List (Step α)}
    (h : ∀ s ∈ steps, R.Kept s) : R.Kept (w.step steps) := by
  have hwork : R.work (w.step steps) = w.run (steps.map R.work) := by
    rw [hR.work]
    exact Step.run_way perform w steps
  have hkept := keptIn_run w h
  constructor
  · obtain ⟨xs, hxs, hnone, hempty⟩ := exists_idle h
    obtain ⟨x, hx, hspan, hnotes⟩ := hR.group w none hxs hnone
    exact ⟨x, hx, hspan, hnotes.trans hempty⟩
  · rw [hwork]
    exact hkept.forward
  · intro s
    obtain ⟨xs, hxs, hlaw, i, hi, hread⟩ := hkept.done s
    rw [hwork]
    obtain ⟨x, hx, hspan, hnotes⟩ := hR.group w (some _) hxs hlaw
    refine ⟨x, hx, hspan, i, hi, ?_⟩
    rw [List.flatMap_singleton, hnotes, hread]

mutual

theorem kept (hR : R.OfSteps perform) : (s : Step α) → R.Kept s
  | .job a => hR.leaf a
  | .serial steps => hR.kept_group .serial (hR.kept_of_mem steps)
  | .concurrent steps => hR.kept_group .concurrent (hR.kept_of_mem steps)
  | .batched limit steps => hR.kept_group (.batched limit) (hR.kept_of_mem steps)

theorem kept_of_mem (hR : R.OfSteps perform) : (steps : List (Step α)) → ∀ s ∈ steps, R.Kept s
  | [] => fun _ hs => absurd hs List.not_mem_nil
  | s :: rest => List.forall_mem_cons.2 ⟨hR.kept s, hR.kept_of_mem rest⟩

end

end OfSteps

end Records

namespace Step

section

variable (backend : α → Backend σ) (scope : RunScope) (job : α → Job)

/-- How a leaf of a step is run, where every leaf may have surroundings of its own. -/
def leaf (a : α) : Work σ (Except JobError Unit) :=
  (job a).run (backend a) scope

/-- What is recorded of steps. -/
def records : Records σ JobError Progress (Step α) (Account α JobError) where
  work := run (leaf backend scope job)
  note? := Entry.milestone?
  IsOf x s := x.step = s ∧ x.Lawful
  span := Account.span
  notes x := x.jobs.flatMap fun o => (job o.1).reports o.2

theorem kept_job (a : α) : (records backend scope job).Kept (.job a) := by
  have hwork : (records backend scope job).work (.job a) = leaf backend scope job a := by
    show run (leaf backend scope job) (.job a) = _
    rw [run]
  have hsteady : Steady (leaf backend scope job a) := Job.steady_run (backend a) scope (job a)
  have hstep : ∀ m, (Account.job a m : Account α JobError).step = .job a := fun m => by
    rw [Account.step]
  have hnotes : ∀ m, (records backend scope job).notes (.job a m) = (job a).reports m := fun m => by
    show (Account.jobs _).flatMap _ = _
    rw [Account.jobs, List.flatMap_singleton]
  constructor
  · exact ⟨.job a none, ⟨hstep none, .job a none nofun⟩, rfl, hnotes none⟩
  · rw [hwork]
    exact hsteady.forward
  · intro s
    rw [hwork]
    have hlawful : Account.Lawful (.job a (some (spanOf (leaf backend scope job a) s))) := by
      refine .job a _ fun n hn => ?_
      obtain rfl := Option.some.inj hn
      exact hsteady.forward s
    obtain ⟨i, hi, hmilestones⟩ := Job.exists_log_run (backend a) scope (job a) s
    refine ⟨.job a (some _), ⟨hstep _, hlawful⟩, rfl, i, hi, ?_⟩
    rw [List.flatMap_singleton, hnotes]
    exact hmilestones

theorem ofSteps_records : (records backend scope job).OfSteps (leaf backend scope job) where
  work := rfl
  leaf := kept_job backend scope job
  group w steps xs m hxs hlaw := by
    obtain ⟨heq, hlawful⟩ := Account.steps_eq_of_forall₂ hxs
    refine ⟨.group w xs m, ⟨by rw [Account.step, heq], .group w xs m hlaw hlawful⟩, rfl, ?_⟩
    show (Account.jobs _).flatMap _ = _
    rw [Account.jobs, Account.jobsOfAll_eq, List.flatMap_assoc]
    rfl

/-- However its groups are nested, a record is kept of a step. -/
theorem kept (s : Step α) : (records backend scope job).Kept s :=
  (ofSteps_records backend scope job).kept s

end

end Step

/-- An account of what has become of a step between two scenes, where `result` is what it came to. -/
structure Account.Covers (x : Account α JobError) (job : α → Job) (s : Step α)
    (before after : Scene (World σ) Entry) (result : Except JobError Unit) : Prop where
  step : x.step = s
  span : x.span = some ⟨before.now, after.now, result⟩
  /-- Every group in the step has run its members in its own way. -/
  lawful : x.Lawful
  jobs : x.jobs.map (·.1) = s.jobs
  success : result = .ok () ↔ ∀ o ∈ x.jobs, ∃ m, o.2 = some m ∧ m.result = .ok ()
  failure : ∀ e, result = .error e → ∃ a m, (a, some m) ∈ x.jobs ∧ m.result = .error e
  /-- No job is at work any more when the step is over. -/
  finished : ∀ a m, (a, some m) ∈ x.jobs →
    before.now.le m.begun ∧ m.begun.le m.ended ∧ m.ended.le after.now
  /-- The journal tells the same: each job that was run has begun and ended once, no other at all. -/
  reports : ∃ j : Journal, after.log = before.log ++ j ∧
    j.milestones = x.jobs.flatMap fun o => (job o.1).reports o.2

/-- **Every run of a step has a lawful account.** The leaves of the step are jobs, and each may be run
by a backend of its own, which takes what time it likes and comes to what it likes. -/
theorem Step.run_lawful (backend : α → Backend σ) (scope : RunScope) (job : α → Job) (s : Step α)
    (before : Scene (World σ) Entry) :
    ∃ x : Account α JobError, x.Covers job s before
      (s.run (fun a => (job a).run (backend a) scope) before).2
      (s.run (fun a => (job a).run (backend a) scope) before).1 := by
  obtain ⟨x, ⟨hstep, hlawful⟩, hspan, j, hj, hread⟩ := (Step.kept backend scope job s).done before
  rw [List.flatMap_singleton] at hread
  have hjobs : x.jobs.map (·.1) = s.jobs := by rw [Account.map_fst_jobs, hstep]
  refine ⟨x, hstep, hspan, hlawful, hjobs, hlawful.success_iff hspan, ?_, ?_, j, hj, hread⟩
  · exact fun e he => hlawful.job_of_failure _ e hspan he
  · intro a m hm
    obtain ⟨hle, k, hk, hbegun, hended⟩ := hlawful.within_of_mem_jobs a m hm
    obtain rfl := Option.some.inj (hspan.symm.trans hk)
    exact ⟨hbegun, hle, hended⟩

end EventWorker
