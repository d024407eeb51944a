import EventWorker.Proofs.Run.Account

/-!
# What is reported on the jobs of a step

The jobs of a step report on themselves while they are run, many of them at once, and all on the same
channel. Their reports arrive in the order of time and interleave. Here it is said what stands on the channel
about each of them (`Job.trace`).

What happens in a step is told by the scenes in which its leaves were begun (`Replay`): the journal is made of
what each of them has written down, one after another, since groups write down nothing themselves
(`Replay.exists_of_run`). This is not the order of time. But the reports on one job are in that order
already, so they stay as they are when the whole is sorted (`filter_mergeSort`), and as no other job has the
same name, they are all that there is of that name.

Main statement: `Step.run_reports`.
-/

namespace EventWorker

variable {σ α β φ : Type}

/-! ### Which leaf was begun where -/

/-- What work that is begun in a scene writes down. -/
def written (m : Work σ β) (s : Scene (World σ) Entry) : Journal :=
  (m s).2.log.drop s.log.length

/-- What has become of a step, and for each leaf the scene in which it was begun, if it was. -/
structure Replay (σ α φ : Type) where
  account : Account α φ
  begun : List (α × Option (Scene (World σ) Entry))

namespace Replay

variable (perform : α → Work σ (Except φ Unit))

/-- The journal of a leaf. -/
def journalOf (o : α × Option (Scene (World σ) Entry)) : Journal :=
  o.2.elim [] (written (perform o.1))

/-- The span of a leaf. -/
def spanAt (o : α × Option (Scene (World σ) Entry)) : α × Option (Span φ) :=
  (o.1, o.2.map (spanOf (perform o.1)))

/-- What has become of a step can be seen from the scenes in which its leaves were begun. -/
structure IsOf (x : Replay σ α φ) (s : Step α) : Prop where
  step : x.account.step = s
  lawful : x.account.Lawful
  jobs : x.account.jobs = x.begun.map (spanAt perform)

/-- All that is written down is of interest. -/
def records : Records σ φ Entry (Step α) (Replay σ α φ) where
  work := Step.run perform
  note? := some
  IsOf := IsOf perform
  span x := x.account.span
  notes x := x.begun.flatMap (journalOf perform)

theorem read_eq (j : Journal) : (records perform).read j = j :=
  List.filterMap_some

variable {perform}

theorem kept_job (h : ∀ a, Steady (perform a)) (a : α) : (records perform).Kept (.job a) := by
  have hwork : (records perform).work (.job a) = perform a := by
    show Step.run perform (.job a) = _
    rw [Step.run]
  have hisOf : ∀ s? : Option (Scene (World σ) Entry),
      (∀ n, s?.map (spanOf (perform a)) = some n → n.begun.le n.ended) →
      IsOf perform ⟨.job a (s?.map (spanOf (perform a))), [(a, s?)]⟩ (.job a) := fun s? hs =>
    ⟨by rw [Account.step], .job a _ hs, by rw [Account.jobs]; rfl⟩
  constructor
  · exact ⟨⟨.job a none, [(a, none)]⟩, hisOf none nofun, rfl, rfl⟩
  · rw [hwork]
    exact (h a).forward
  · intro s
    rw [hwork]
    obtain ⟨j, hj, -⟩ := ((h a).quiet s).log
    have hwritten : written (perform a) s = j := by rw [written, hj, List.drop_left]
    refine ⟨⟨.job a (some _), [(a, some s)]⟩, hisOf (some s) fun n hn => ?_, rfl, j, hj, ?_⟩
    · obtain rfl := Option.some.inj hn
      exact (h a).forward s
    · rw [read_eq, ← hwritten]
      simp only [List.flatMap_singleton, records, journalOf, Option.elim]

theorem ofSteps_records (h : ∀ a, Steady (perform a)) : (records perform).OfSteps perform where
  work := rfl
  leaf := kept_job h
  group w steps xs m hxs hlaw := by
    have hmembers : List.Forall₂ (fun x s => x.step = s ∧ x.Lawful) (xs.map account) steps :=
      List.forall₂_map_left_iff.2 (hxs.imp fun _ _ hx => ⟨hx.step, hx.lawful⟩)
    obtain ⟨heq, hlawful⟩ := Account.steps_eq_of_forall₂ hmembers
    refine ⟨⟨.group w (xs.map account) m, xs.flatMap begun⟩, ⟨by rw [Account.step, heq],
      .group w _ m ?_ hlawful, ?_⟩, rfl, List.flatMap_assoc⟩
    · rw [List.map_map]
      exact hlaw
    · rw [Account.jobs, Account.jobsOfAll_eq, List.flatMap_map, List.map_flatMap]
      refine List.flatMap_congr fun x hx => ?_
      obtain ⟨s, -, hs⟩ := exists_of_mem_left hxs hx
      exact hs.jobs

/-- **The journal of a step is made of those of its leaves**, from left to right. Groups write down nothing
of their own. -/
theorem exists_of_run (h : ∀ a, Steady (perform a)) (s : Step α) (before : Scene (World σ) Entry) :
    ∃ x : Replay σ α φ, x.IsOf perform s ∧ x.account.span = some (spanOf (s.run perform) before) ∧
      (s.run perform before).2.log = before.log ++ x.begun.flatMap (journalOf perform) := by
  obtain ⟨x, hx, hspan, j, hj, hread⟩ := ((ofSteps_records h).kept s).done before
  refine ⟨x, hx, hspan, ?_⟩
  rw [read_eq, List.flatMap_singleton] at hread
  exact hj.trans (congrArg (before.log ++ ·) hread)

namespace IsOf

variable {x : Replay σ α φ} {s : Step α} {m : Span φ}

theorem jobs_eq (hx : x.IsOf perform s) : x.begun.map (·.1) = s.jobs := by
  rw [← hx.step, ← Account.map_fst_jobs, hx.jobs, List.map_map]
  rfl

/-- A leaf that was begun is over when the step is. -/
theorem finished (hx : x.IsOf perform s) (hm : x.account.span = some m) {a : α}
    {t : Scene (World σ) Entry} (ht : (a, some t) ∈ x.begun) :
    m.begun.le t.now ∧ (perform a t).2.now.le m.ended := by
  have hmem : (a, some (spanOf (perform a) t)) ∈ x.account.jobs := by
    rw [hx.jobs]
    exact List.mem_map.2 ⟨(a, some t), ht, rfl⟩
  obtain ⟨-, n, hn, hbegun, hended⟩ := hx.lawful.within_of_mem_jobs a _ hmem
  obtain rfl := Option.some.inj (hm.symm.trans hn)
  exact ⟨hbegun, hended⟩

theorem success_iff (hx : x.IsOf perform s) (hm : x.account.span = some m) :
    m.result = .ok () ↔ ∀ o ∈ x.begun, ∃ t, o.2 = some t ∧ (perform o.1 t).1 = .ok () := by
  rw [hx.lawful.success_iff hm, hx.jobs, List.forall_mem_map]
  refine forall₂_congr fun o _ => ⟨?_, ?_⟩
  · rintro ⟨n, hn, hok⟩
    obtain ⟨t, ht, rfl⟩ := Option.map_eq_some_iff.1 hn
    exact ⟨t, ht, hok⟩
  · rintro ⟨t, ht, hok⟩
    exact ⟨_, congrArg (Option.map _) ht, hok⟩

theorem leaf_of_failure (hx : x.IsOf perform s) (hm : x.account.span = some m) {e : φ}
    (he : m.result = .error e) : ∃ a t, (a, some t) ∈ x.begun ∧ (perform a t).1 = .error e := by
  obtain ⟨a, n, hn, hne⟩ := hx.lawful.job_of_failure m e hm he
  rw [hx.jobs] at hn
  obtain ⟨⟨a, t?⟩, ho, heq⟩ := List.mem_map.1 hn
  obtain ⟨rfl, hspan⟩ := Prod.mk.inj heq
  obtain ⟨t, rfl, rfl⟩ := Option.map_eq_some_iff.1 hspan
  exact ⟨_, t, ho, hne⟩

end IsOf

end Replay

/-! ### The channel -/

/-- Items of a kind that are in order already stay as they are when all items are sorted. -/
theorem filter_mergeSort {le : α → α → Bool} {p : α → Bool} {items : List α}
    (htrans : ∀ a b c, le a b → le b c → le a c) (htotal : ∀ a b, le a b || le b a)
    (h : (items.filter p).Pairwise fun a b => le a b) :
    (items.mergeSort le).filter p = items.filter p := by
  have hsub := (List.sublist_mergeSort htrans htotal h List.filter_sublist).filter p
  rw [List.filter_filter] at hsub
  simp only [Bool.and_self] at hsub
  exact (hsub.eq_of_length ((List.mergeSort_perm items le).filter p).length_eq.symm).symm

/-- Entries in the order of time. -/
theorem Moment.le_total (a b : Moment) : a.le b || b.le a := by
  rw [Bool.or_eq_true]
  exact (em _).imp_right le_of_not_le

/-- The job that is reported on, if it is one. -/
def Progress.subject? : Progress → Option String
  | started job | submitted job _ | completed job _ _ | failed job _ _ => some job
  | log _ _ job => job
  | fired _ _ => none

namespace Journal

/-- What is reported in a journal, with its time. -/
def progress (j : Journal) : List (Moment × Progress) :=
  j.filterMap fun e => e.2.progress?.map (e.1, ·)

theorem progress_append (i j : Journal) : progress (i ++ j) = i.progress ++ j.progress :=
  List.filterMap_append

/-- The reports in the order of time, as they arrive. -/
def channel (j : Journal) : List (Moment × Progress) :=
  progress (j.mergeSort fun a b => a.1.le b.1)

/-- The reports on one job, as they arrive. -/
def channelOf (name : String) (j : Journal) : List (Moment × Progress) :=
  j.channel.filter (·.2.subject? = some name)

theorem channel_perm (j : Journal) : j.channel.Perm j.progress :=
  (List.mergeSort_perm j _).filterMap _

/-- The entry is a report on this job. -/
def isOn (name : String) (e : Moment × Entry) : Bool :=
  e.2.progress?.any (·.subject? = some name)

theorem filter_progress (name : String) (j : Journal) :
    j.progress.filter (·.2.subject? = some name) = progress (j.filter (isOn name)) := by
  induction j with
  | nil => rfl
  | cons e j ih =>
    show ((e :: j).filterMap _).filter _ = _
    cases he : e.2.progress? with
    | none =>
      rw [List.filterMap_cons_none (by rw [he]; rfl), List.filter_cons_of_neg (by simp [isOn, he])]
      exact ih
    | some p =>
      rw [List.filterMap_cons_some (by rw [he]; rfl)]
      by_cases hp : p.subject? = some name
      · have hon : isOn name e = true := by simp [isOn, he, hp]
        rw [List.filter_cons_of_pos (by simpa using hp), List.filter_cons_of_pos hon, progress,
          List.filterMap_cons_some (by rw [he]; rfl)]
        exact congrArg _ ih
      · have hon : ¬isOn name e = true := by simp [isOn, he, hp]
        rw [List.filter_cons_of_neg (by simpa using hp), List.filter_cons_of_neg hon]
        exact ih

/-- Where reports on one job are written down in the order of time, this is how they arrive. -/
theorem channelOf_eq {name : String} {j : Journal}
    (h : (j.progress.filter (·.2.subject? = some name)).Pairwise fun a b => a.1.le b.1) :
    j.channelOf name = j.progress.filter (·.2.subject? = some name) := by
  have hsorted : (j.filter (isOn name)).Pairwise fun a b => a.1.le b.1 := by
    rw [filter_progress, progress, List.pairwise_filterMap] at h
    refine h.imp_of_mem fun {x y} hx hy hle => ?_
    have hreport : ∀ e ∈ j.filter (isOn name), ∃ p, e.2.progress? = some p := fun e he => by
      have hon := (List.mem_filter.1 he).2
      cases hp : e.2.progress? with
      | none => simp [isOn, hp] at hon
      | some p => exact ⟨p, rfl⟩
    obtain ⟨p, hp⟩ := hreport x hx
    obtain ⟨q, hq⟩ := hreport y hy
    exact hle (x.1, p) (by rw [hp]; rfl) (y.1, q) (by rw [hq]; rfl)
  have htotal : ∀ a b : Moment × Entry, a.1.le b.1 || b.1.le a.1 := fun _ _ => Moment.le_total _ _
  rw [channelOf, channel, filter_progress, filter_progress]
  exact congrArg progress (filter_mergeSort (fun _ _ _ => Moment.le_trans) htotal hsorted)

end Journal

/-! ### The reports on a job -/

/-- Between two scenes nothing has been reported. -/
structure Hushed (s t : Scene (World σ) Entry) : Prop where
  forward : s.now.le t.now
  log : ∃ j : Journal, t.log = s.log ++ j ∧ j.progress = []

theorem hushed_see (e : Errand σ α) (s : Scene (World σ) Entry) : Hushed s (Work.see e s).2 := by
  refine ⟨Moment.le_latest_left _ _, _, rfl, List.filterMap_eq_nil_iff.2 fun x hx => ?_⟩
  obtain ⟨y, -, rfl⟩ := List.mem_map.1 hx
  rfl

namespace Job

variable (b : Backend σ) (scope : RunScope) (j : Job)

/-- As which unit a job is submitted from a scene, if it is. -/
def submission (s : Scene (World σ) Entry) : List (Moment × Progress) :=
  match Work.see (b.submit j scope) s with
  | (.ok u, t) => [(t.now, .submitted j.name u.toText)]
  | (.error _, _) => []

/-- What is reported of a job that is begun in a scene: that it has started, as which unit it has been
submitted, if it has, and what has come of it. -/
def trace (s : Scene (World σ) Entry) : List (Moment × Progress) :=
  (s.now, .started j.name) :: j.submission b scope (reported s (.started j.name)) ++
    [((j.run b scope s).2.now, j.closing (spanOf (j.run b scope) s))]

/-- While a job is executed nothing is reported but its submission. -/
theorem exists_log_execute (s : Scene (World σ) Entry) :
    ∃ i : Journal, (j.execute b scope s).2.log = s.log ++ i ∧ i.progress = j.submission b scope s ∧
      s.now.le (j.execute b scope s).2.now ∧
      ∀ x ∈ j.submission b scope s, s.now.le x.1 ∧ x.1.le (j.execute b scope s).2.now := by
  have hsubmit := hushed_see (b.submit j scope) s
  rw [submission]
  rcases hsee : Work.see (b.submit j scope) s with ⟨e | u, t⟩
  · have hexecute : j.execute b scope s = ((none, .error e), t) := by
      rw [execute, bind_of_eq hsee]
      rfl
    rw [hsee] at hsubmit
    obtain ⟨i, hi, hnone⟩ := hsubmit.log
    rw [hexecute]
    exact ⟨i, hi, hnone, hsubmit.forward, fun _ hx => absurd hx List.not_mem_nil⟩
  · let submitted := reported t (.submitted j.name u.toText)
    have hobserve := hushed_see (b.observe j u) submitted
    have hexecute : (j.execute b scope s).2 = (Work.see (b.observe j u) submitted).2 := by
      rw [execute, bind_of_eq hsee]
      dsimp only
      rw [report_bind]
      rcases hlast : Work.see (b.observe j u) submitted with ⟨e | p, t'⟩ <;> rw [bind_of_eq hlast] <;> rfl
    rw [hsee] at hsubmit
    obtain ⟨i, hi, hnone⟩ := hsubmit.log
    obtain ⟨i', hi', hnone'⟩ := hobserve.log
    have hforward : t.now.le (Work.see (b.observe j u) submitted).2.now := hobserve.forward
    rw [hexecute]
    refine ⟨i ++ [(t.now, .progress (.submitted j.name u.toText))] ++ i', ?_, ?_,
      Moment.le_trans hsubmit.forward hforward, List.forall_mem_singleton.2 ⟨hsubmit.forward, hforward⟩⟩
    · rw [hi']
      show t.log ++ [(t.now, .progress (.submitted j.name u.toText))] ++ i' = _
      rw [show t.log = s.log ++ i from hi, List.append_assoc, List.append_assoc, List.append_assoc]
    · rw [Journal.progress_append, Journal.progress_append, hnone, hnone', List.append_nil]
      rfl

/-- What a job reports is its trace, in the order of time. -/
theorem progress_written (s : Scene (World σ) Entry) :
    (written (j.run b scope) s).progress = j.trace b scope s ∧
      (j.trace b scope s).Pairwise fun x y => x.1.le y.1 := by
  obtain ⟨i, hi, hprogress, hforward, hwithin⟩ :=
    exists_log_execute b scope j (reported s (.started j.name))
  rcases hexecute : j.execute b scope (reported s (.started j.name)) with ⟨⟨u, result⟩, t⟩
  rw [hexecute] at hi hforward hwithin
  have hi : t.log = s.log ++ [(s.now, .progress (.started j.name))] ++ i := hi
  rw [trace, spanOf, written, run_eq b scope j hexecute]
  let closing := j.closing ⟨s.now, t.now, result⟩
  have hlog : (reported t closing).log =
      s.log ++ ([(s.now, .progress (.started j.name))] ++ i ++ [(t.now, .progress closing)]) := by
    show t.log ++ [(t.now, .progress closing)] = _
    rw [hi, List.append_assoc, List.append_assoc, List.append_assoc]
  refine ⟨?_, ?_⟩
  · show Journal.progress ((reported t closing).log.drop s.log.length) = _
    rw [hlog, List.drop_left, Journal.progress_append, Journal.progress_append, hprogress]
    rfl
  · have hsubmission : (j.submission b scope (reported s (.started j.name))).Pairwise
        fun x y => x.1.le y.1 := by
      rw [submission]
      split
      · exact List.pairwise_singleton _ _
      · exact List.Pairwise.nil
    refine List.pairwise_append.2 ⟨List.pairwise_cons.2 ⟨fun x hx => (hwithin x hx).1, hsubmission⟩,
      List.pairwise_singleton _ _, fun x hx y hy => ?_⟩
    rw [List.mem_singleton.1 hy]
    rcases List.mem_cons.1 hx with rfl | hx
    · exact hforward
    · exact (hwithin x hx).2

theorem subject_of_mem_trace (s : Scene (World σ) Entry) :
    ∀ x ∈ j.trace b scope s, x.2.subject? = some j.name := by
  have hclosing : ∀ m : Span JobError, (j.closing m).subject? = some j.name := fun m => by
    unfold closing
    split <;> rfl
  rw [trace, List.forall_mem_append, List.forall_mem_cons, List.forall_mem_singleton, submission]
  refine ⟨⟨rfl, ?_⟩, hclosing _⟩
  split
  · exact List.forall_mem_singleton.2 rfl
  · exact fun _ hx => absurd hx List.not_mem_nil

/-- A job reports while it is run. -/
theorem within_of_mem_trace (s : Scene (World σ) Entry) :
    ∀ x ∈ j.trace b scope s, s.now.le x.1 ∧ x.1.le (j.run b scope s).2.now := by
  obtain ⟨-, hsorted⟩ := progress_written b scope j s
  have hforward : s.now.le (j.run b scope s).2.now := (steady_run b scope j).forward s
  obtain ⟨hfront, -, hlast⟩ := List.pairwise_append.1 hsorted
  have hlast := fun x hx => hlast x hx _ (List.mem_singleton_self _)
  rw [trace, List.forall_mem_append, List.forall_mem_cons, List.forall_mem_singleton]
  refine ⟨⟨⟨s.now.le_refl, hforward⟩, fun x hx => ?_⟩, hforward, Moment.le_refl _⟩
  exact ⟨(List.pairwise_cons.1 hfront).1 x hx, hlast x (List.mem_cons_of_mem _ hx)⟩

end Job

/-! ### The reports on a step -/

/-- Where the items have names of their own, what is of one name is what comes of one item. -/
theorem filter_flatMap_of_nodup {name : α → String} {f : α → List β} {kind : β → Option String}
    {items : List α} (hnames : (items.map name).Nodup)
    (hkind : ∀ i ∈ items, ∀ x ∈ f i, kind x = some (name i)) {i : α} (hi : i ∈ items) :
    (items.flatMap f).filter (kind · = some (name i)) = f i := by
  induction items with
  | nil => exact absurd hi List.not_mem_nil
  | cons a items ih =>
    obtain ⟨ha, hitems⟩ := List.forall_mem_cons.1 hkind
    obtain ⟨hfresh, hnames⟩ := List.nodup_cons.1 hnames
    rw [List.flatMap_cons, List.filter_append]
    rcases List.mem_cons.1 hi with rfl | hi
    · have hself : (f i).filter (kind · = some (name i)) = f i :=
        List.filter_eq_self.2 fun x hx => decide_eq_true (ha x hx)
      have hothers : (items.flatMap f).filter (kind · = some (name i)) = [] := by
        refine List.filter_eq_nil_iff.2 fun x hx => ?_
        obtain ⟨k, hk, hx⟩ := List.mem_flatMap.1 hx
        rw [hitems k hk x hx, decide_eq_true_eq, Option.some_inj]
        exact fun heq => hfresh (List.mem_map.2 ⟨k, hk, heq⟩)
      rw [hself, hothers, List.append_nil]
    · have hfirst : (f a).filter (kind · = some (name i)) = [] := by
        refine List.filter_eq_nil_iff.2 fun x hx => ?_
        rw [ha x hx, decide_eq_true_eq, Option.some_inj]
        exact fun heq => hfresh (List.mem_map.2 ⟨i, hi, heq.symm⟩)
      rw [hfirst, List.nil_append]
      exact ih hnames hitems hi

/-- All that is written down while a step is run. -/
def Replay.journal (x : Replay σ α φ) (perform : α → Work σ (Except φ Unit)) : Journal :=
  x.begun.flatMap (journalOf perform)

section

variable (backend : α → Backend σ) (scope : RunScope) (job : α → Job)

/-- The reports on a leaf, if it was begun. -/
def Step.traceOf (o : α × Option (Scene (World σ) Entry)) : List (Moment × Progress) :=
  o.2.elim [] ((job o.1).trace (backend o.1) scope)

/-- What is reported between two scenes is a faithful trace of a step that is run. -/
structure Replay.Faithful (x : Replay σ α JobError) (s : Step α) (before after : Scene (World σ) Entry)
    (result : Except JobError Unit) : Prop where
  /-- Which jobs are begun is up to the groups. -/
  isOf : x.IsOf (Step.leaf backend scope job) s
  span : x.account.span = some ⟨before.now, after.now, result⟩
  jobs : x.begun.map (·.1) = s.jobs
  log : after.log = before.log ++ x.journal (Step.leaf backend scope job)
  /-- The reports on a job that was begun are its trace; on one that was not there are none. -/
  reports : ∀ o ∈ x.begun, (x.journal (Step.leaf backend scope job)).channelOf (job o.1).name =
    Step.traceOf backend scope job o
  /-- Each report is on one of the jobs, and arrives while the step is run. -/
  within : ∀ r ∈ (x.journal (Step.leaf backend scope job)).channel,
    before.now.le r.1 ∧ r.1.le after.now ∧ ∃ o ∈ x.begun, r.2.subject? = some (job o.1).name
  /-- A job that was begun is over when the step is. -/
  finished : ∀ a t, (a, some t) ∈ x.begun →
    before.now.le t.now ∧ (Step.leaf backend scope job a t).2.now.le after.now
  success : result = .ok () ↔
    ∀ o ∈ x.begun, ∃ t, o.2 = some t ∧ (Step.leaf backend scope job o.1 t).1 = .ok ()
  failure : ∀ e, result = .error e →
    ∃ a t, (a, some t) ∈ x.begun ∧ (Step.leaf backend scope job a t).1 = .error e

theorem Step.subject_of_mem_traceOf (o : α × Option (Scene (World σ) Entry)) :
    ∀ r ∈ traceOf backend scope job o, r.2.subject? = some (job o.1).name := by
  obtain ⟨a, _ | t⟩ := o
  · exact fun _ hr => absurd hr List.not_mem_nil
  · exact Job.subject_of_mem_trace (backend a) scope (job a) t

/-- What is reported is made up of the traces of the jobs. -/
theorem Replay.progress_journal (x : Replay σ α JobError) :
    (x.journal (Step.leaf backend scope job)).progress =
      x.begun.flatMap (Step.traceOf backend scope job) := by
  rw [journal, Journal.progress, List.filterMap_flatMap]
  refine List.flatMap_congr fun o _ => ?_
  obtain ⟨a, t?⟩ := o
  cases t? with
  | none => rfl
  | some t => exact (Job.progress_written (backend a) scope (job a) t).1

/-- The reports on one of several jobs with names of their own are its trace. -/
theorem Replay.channelOf_journal {x : Replay σ α JobError}
    (hnames : (x.begun.map fun o => (job o.1).name).Nodup) {o : α × Option (Scene (World σ) Entry)}
    (ho : o ∈ x.begun) : (x.journal (Step.leaf backend scope job)).channelOf (job o.1).name =
      Step.traceOf backend scope job o := by
  have hown := filter_flatMap_of_nodup hnames
    (fun o _ => Step.subject_of_mem_traceOf backend scope job o) ho
  rw [← progress_journal] at hown
  refine (Journal.channelOf_eq ?_).trans hown
  rw [hown]
  obtain ⟨a, _ | t⟩ := o
  · exact List.Pairwise.nil
  · exact (Job.progress_written (backend a) scope (job a) t).2

/-- All reports are on jobs that were begun, and arrive while the step is run. -/
theorem Replay.IsOf.within {x : Replay σ α JobError} {s : Step α} {m : Span JobError}
    (hx : x.IsOf (Step.leaf backend scope job) s) (hm : x.account.span = some m) :
    ∀ r ∈ (x.journal (Step.leaf backend scope job)).channel,
      m.begun.le r.1 ∧ r.1.le m.ended ∧ ∃ o ∈ x.begun, r.2.subject? = some (job o.1).name := by
  intro r hr
  rw [(Journal.channel_perm _).mem_iff, progress_journal] at hr
  obtain ⟨⟨a, _ | t⟩, ho, hr⟩ := List.mem_flatMap.1 hr
  · exact absurd hr List.not_mem_nil
  · obtain ⟨hafter, hbefore⟩ := Job.within_of_mem_trace (backend a) scope (job a) t r hr
    obtain ⟨hfirst, hlast⟩ := hx.finished hm ho
    exact ⟨Moment.le_trans hfirst hafter, Moment.le_trans hbefore hlast, _, ho,
      Job.subject_of_mem_trace (backend a) scope (job a) t r hr⟩

/-- **The reports on a step are a faithful trace of it.** However its groups are nested, whatever the backends
do and in whatever order the jobs come to their ends: if the jobs have names of their own, what is reported on
each that was begun is, in this order, that it has started, as which unit it was submitted, if it was, and
either that it has been completed or, with the error that it returned, that it has failed. On a job that was
never begun nothing is reported, and when the step is over everything has been. -/
theorem Step.run_reports (s : Step α) (hnames : (s.jobs.map fun a => (job a).name).Nodup)
    (before : Scene (World σ) Entry) :
    ∃ x : Replay σ α JobError, x.Faithful backend scope job s before
      (s.run (leaf backend scope job) before).2 (s.run (leaf backend scope job) before).1 := by
  have hsteady : ∀ a, Steady (leaf backend scope job a) := fun a =>
    Job.steady_run (backend a) scope (job a)
  obtain ⟨x, hx, hspan, hlog⟩ := Replay.exists_of_run hsteady s before
  have hbegun : (x.begun.map fun o => (job o.1).name).Nodup := by
    rw [← hx.jobs_eq, List.map_map] at hnames
    exact hnames
  exact ⟨x, {
    isOf := hx
    span := hspan
    jobs := hx.jobs_eq
    log := hlog
    reports := fun _ ho => Replay.channelOf_journal backend scope job hbegun ho
    within := hx.within backend scope job hspan
    finished := fun _ _ ht => hx.finished hspan ht
    success := hx.success_iff hspan
    failure := fun _ he => hx.leaf_of_failure hspan he }⟩

end

namespace Step

/-- Two jobs at once, of which one is refused for its name, and then a third. -/
def mixed : Step Job :=
  let named (name : String) : Job := { name, container := { image := "alpine" } }
  .serial [.concurrent [.job (named "lint"), .job (named "unit tests")], .job (named "deploy")]

theorem run_reports_mixed : (mixed.jobs.map fun j => (id j).name).Nodup ∧
    ∃ x : Replay Unit Job JobError, x.Faithful (fun _ => .idle) default id mixed { world := .ofCluster () }
      (mixed.run (leaf (fun _ => .idle) default id) { world := .ofCluster () }).2
      (mixed.run (leaf (fun _ => .idle) default id) { world := .ofCluster () }).1 := by
  have hnames : (mixed.jobs.map fun j => (id j).name).Nodup := by decide
  exact ⟨hnames, run_reports (fun _ => .idle) default id mixed hnames _⟩

end Step

end EventWorker
