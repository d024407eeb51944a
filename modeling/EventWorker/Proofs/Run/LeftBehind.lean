import EventWorker.Proofs.Run.FirstFailure

/-!
# Tasks left behind

When the event that comes after is fired, and again when the volume is released, every task of the run
is meant to be done, and its failure, if it has one, to be raised (`Settled`). The tasks that have been
waited for are. But it is only after the waiting that their failures are raised, and where one of them
is the first failure of the run the error handler is called: what that one sets off nobody waits for
until the next time, and after the second time there is none. So a run is settled then if and only if
those tasks happen to be done, without a failure.

Main statement: `run_settled_iff`.
-/

namespace EventWorker

variable {bus : Bus Handler} {event e : Event} {first : Option Failure} {left : List Task}

namespace Deed

def raised? : Deed → Option Failure
  | raise f => some f
  | _ => none

/-- Whether the tasks of a run of `event` are meant to be settled when this is done. -/
def isCheckpoint (event : Event) : Deed → Bool
  | fire e => Event.isDerived afterType event e
  | release _ _ => true
  | _ => false

theorem not_isCheckpoint_of_isReaction {d : Deed} (h : d.isReaction event) :
    ¬ d.isCheckpoint event := by
  intro hcheck
  cases d with
  | fire e =>
    rw [isReaction, Controller.isDerived_error_of_after hcheck] at h
    exact Bool.false_ne_true h
  | release event project => exact Bool.false_ne_true h
  | provision _ _ | call _ | hear _ _ | join _ | raise _ => exact Bool.false_ne_true hcheck

end Deed

/-- The failures that have been raised. -/
def Journal.raised (j : Journal) : List Failure :=
  j.deeds.filterMap Deed.raised?

theorem Journal.raised_append (i j : Journal) : raised (i ++ j) = raised i ++ raised j := by
  rw [raised, deeds_append, List.filterMap_append]
  rfl

/-- Every task that has been set off is done, and as many of their failures as there are have been
raised. -/
structure Settled (past : Journal) (now : Moment) : Prop where
  finished : ∀ t ∈ past.tasks, t.begun.le now → t.finished.le now
  raised : ∀ reason, (Task.failures (past.tasks.filter (·.begun.le now))).count reason ≤
    past.raised.count ⟨reason, .background⟩

/-! ### Tasks done and tasks left -/

/-- The tasks set off are those in `done`, whose failures have been raised, and those left. -/
structure Tallied (past : Journal) (now : Moment) (done : List Task) : Prop where
  perm : past.tasks.Perm (done ++ past.unjoined)
  finished : ∀ t ∈ done, t.begun.le now ∧ t.finished.le now
  raised : ∀ reason, past.raised.count ⟨reason, .background⟩ = (Task.failures done).count reason

theorem Task.failures_append (tasks more : List Task) :
    failures (tasks ++ more) = failures tasks ++ failures more :=
  List.filterMap_append

namespace Tallied

variable {past : Journal} {now : Moment} {done : List Task}

/-- Entries that are neither deeds nor tasks make no difference. -/
theorem append {j : Journal} (h : Tallied past now done) (hdeeds : j.deeds = [])
    (htasks : j.tasks = []) : Tallied (past ++ j) now done where
  perm := by
    have hjoin : ∀ d ∈ j.deeds, d.joined? = none := by
      rw [hdeeds]
      exact fun d hd => absurd hd List.not_mem_nil
    rw [Journal.tasks_append, Journal.unjoined_append past hjoin, htasks, List.append_nil,
      List.append_nil]
    exact h.perm
  finished := h.finished
  raised reason := by
    have hraised : j.raised = [] := by
      rw [Journal.raised, hdeeds]
      rfl
    rw [Journal.raised_append, hraised, List.append_nil]
    exact h.raised reason

/-- The failures so far are those of the tasks that are done and those of the tasks left. -/
theorem count_failures (h : Tallied past now done) (reason : String) :
    (Task.failures (past.tasks.filter (·.begun.le now))).count reason =
      past.raised.count ⟨reason, .background⟩ +
        (Task.failures (past.unjoined.filter (·.begun.le now))).count reason := by
  have hdone : done.filter (·.begun.le now) = done :=
    List.filter_eq_self.2 fun t ht => (h.finished t ht).1
  have hperm := ((h.perm.filter (·.begun.le now)).filterMap (·.failure)).count_eq reason
  rw [List.filter_append, hdone, List.filterMap_append, List.count_append] at hperm
  rw [h.raised]
  exact hperm

theorem settled_iff (h : Tallied past now done) :
    Settled past now ↔ ∀ t ∈ past.unjoined, t.begun.le now → t.finished.le now ∧ t.failure = none := by
  constructor
  · intro hs t ht hb
    refine ⟨hs.finished t (h.perm.mem_iff.2 (List.mem_append_right done ht)) hb, ?_⟩
    cases hf : t.failure with
    | none => rfl
    | some reason =>
      have hmem : reason ∈ Task.failures (past.unjoined.filter (·.begun.le now)) :=
        List.mem_filterMap.2 ⟨t, List.mem_filter.2 ⟨ht, hb⟩, hf⟩
      have hcount := hs.raised reason
      rw [h.count_failures] at hcount
      have hpos := List.count_pos_iff.2 hmem
      omega
  · intro hleft
    refine ⟨fun t ht hb => ?_, fun reason => ?_⟩
    · rcases List.mem_append.1 (h.perm.mem_iff.1 ht) with ht | ht
      · exact (h.finished t ht).2
      · exact (hleft t ht hb).1
    · have hnone : Task.failures (past.unjoined.filter (·.begun.le now)) = [] := by
        refine List.filterMap_eq_nil_iff.2 fun t ht => ?_
        obtain ⟨ht, hb⟩ := List.mem_filter.1 ht
        exact (hleft t ht hb).2
      rw [h.count_failures, hnone]
      exact Nat.le_refl _

end Tallied

/-- Why tasks are left: they have been set off since tasks were waited for, and by then there had been
no failure; but one of those tasks had failed, and the error handler was called. -/
def LeftBehind (event : Event) (past : Journal) : Prop :=
  ∃ (before : Journal) (joined : Moment) (tasks : List Task) (since : Journal) (reason : String),
    past = before ++ (joined, .deed (.join tasks)) :: since ∧ past.unjoined = since.tasks ∧
      before.failures event = [] ∧ (Task.failures tasks).head? = some reason ∧
      .call (event.derive errorType .background (some reason)) ∈ since.deeds

theorem LeftBehind.append {past j : Journal} (h : LeftBehind event past)
    (hj : ∀ d ∈ j.deeds, d.joined? = none) : LeftBehind event (past ++ j) := by
  obtain ⟨before, joined, tasks, since, reason, hpast, hleft, hfailures, hreason, hcall⟩ := h
  refine ⟨before, joined, tasks, since ++ j, reason, ?_, ?_, hfailures, hreason, ?_⟩
  · rw [hpast, List.append_assoc]
    rfl
  · rw [Journal.unjoined_append past hj, hleft, Journal.tasks_append]
  · rw [Journal.deeds_append]
    exact List.mem_append_left _ hcall

namespace Controller

/-! ### Handling an event -/

namespace Handling

variable {h : Handling}

theorem raised_answerDeeds (failure : Option String) :
    (answerDeeds bus e failure).filterMap Deed.raised? = [] := by
  unfold answerDeeds
  split <;> rfl

/-- Raising failures raises them all. -/
theorem raised_raiseDeeds (fs : List Failure) (heard : Option String) :
    (raiseDeeds bus event first fs heard).filterMap Deed.raised? = fs := by
  have hraise : ∀ gs : List Failure, (gs.map Deed.raise).filterMap Deed.raised? = gs := by
    intro gs
    rw [List.filterMap_map]
    exact List.filterMap_some
  rcases raiseDeeds_eq bus event first fs heard with ⟨hd, -⟩ | ⟨f, rest, rfl, -, hd⟩
  · rw [hd]
    exact hraise fs
  · rw [hd]
    show f :: List.filterMap Deed.raised? (_ ++ _) = _
    rw [List.filterMap_append, raised_answerDeeds, hraise]
    rfl

theorem Of.raised_journal (ho : h.Of bus event first e left) : (h.journal e).raised = h.failures := by
  obtain ⟨heard, hb⟩ := ho.deeds_before
  obtain ⟨heard', ha⟩ := ho.deeds_after
  rw [Journal.raised, deeds_journal, hb, ha]
  show List.filterMap Deed.raised? (_ ++ _ ++ _) = _
  rw [List.filterMap_append, List.filterMap_append, raised_answerDeeds, raised_raiseDeeds]
  show [] ++ _ ++ List.filterMap Deed.raised? (raiseDeeds _ _ _ _ _) = _
  rw [raised_raiseDeeds]
  rfl

/-- Of the failures those of tasks are raised as such. -/
theorem count_failures (h : Handling) (reason : String) :
    h.failures.count ⟨reason, .background⟩ = (Task.failures h.tasks).count reason := by
  have hhandler : h.handlerFailures.count ⟨reason, .background⟩ = 0 := by
    refine List.count_eq_zero_of_not_mem fun hmem => ?_
    obtain ⟨text, -, heq⟩ := Option.map_eq_some_iff.1 (Option.mem_toList.1 hmem)
    exact Trigger.noConfusion (congrArg Failure.trigger heq)
  rw [failures, List.count_append, hhandler, Nat.zero_add, taskFailures, List.count, List.countP_map]
  refine List.countP_congr fun text _ => ?_
  simp

/-- Tasks are set off after the waiting if the first failure of the run was waited for, and there is
an error handler to be called. -/
theorem Of.leftBehind (ho : h.Of bus event first e left)
    (he : Event.isDerived errorType event e = false) {past : Journal}
    (hpast : (past.failures event).head? = first) (ht : h.after.tasks ≠ []) :
    LeftBehind event (past ++ h.journal e) := by
  have hnot : ¬ ((first.or h.handlerFailures.head?).isSome ∨ h.taskFailures = [] ∨
      bus.handles (event.source, errorType) = false) := fun hs => ht (ho.settled hs)
  rw [not_or, not_or] at hnot
  obtain ⟨hfirst, htasks, hhandled⟩ := hnot
  have hnone : first.or h.handlerFailures.head? = none := Option.not_isSome_iff_eq_none.1 hfirst
  obtain ⟨hfirst, hhandler⟩ := Option.or_eq_none_iff.1 hnone
  obtain ⟨reason, rest, hreasons⟩ := List.exists_cons_of_ne_nil (fun hnil => htasks (by
    rw [taskFailures, hnil]; rfl) : Task.failures h.tasks ≠ [])
  refine ⟨past ++ (h.fired, .deed (.fire e)) :: h.before, h.joined, h.tasks, h.after, reason,
    ?_, ho.unjoined_journal past, ?_, ?_, ?_⟩
  · rw [journal, List.append_assoc]
    rfl
  · rw [Journal.failures_append]
    show past.failures event ++ h.before.failures event = []
    rw [ho.failures_before he, List.head?_eq_none_iff.1 hhandler, List.append_nil]
    exact List.head?_eq_none_iff.1 (hpast.trans hfirst)
  · rw [hreasons]
    rfl
  · obtain ⟨heard, ha⟩ := ho.deeds_after
    let f : Failure := ⟨reason, .background⟩
    have hhandled : bus.handles (errorEvent event f).key = true := Bool.of_not_eq_false hhandled
    have hf : h.taskFailures = f :: rest.map (⟨·, .background⟩) := by
      rw [taskFailures, hreasons]
      rfl
    rw [ha, hnone, hf, raiseDeeds, answerDeeds_of_handles hhandled]
    show Deed.call (errorEvent event f) ∈ _
    simp

end Handling

/-! ### Keeping the tally -/

theorem Whole.Of.tallied_opening {w : Whole} (ho : w.Of bus event) (m now : Moment) :
    Tallied (w.opening ++ [(m, .reached .eventFired)]) now [] where
  perm := by
    rw [Journal.tasks_append, ho.opening_tasks, ho.unjoined_opening]
    exact .refl _
  finished _ ht := absurd ht List.not_mem_nil
  raised reason := by
    rw [Journal.raised_append, Journal.raised, ho.opening_deeds]
    rfl

/-- A handling adds to what is done the tasks that have been waited for in it. -/
theorem Handling.Of.tallied {h : Handling} {past : Journal} {now later : Moment} {done : List Task}
    (ho : h.Of bus event first e left) (hleft : left = addTasks [] past.unjoined)
    (ht : Tallied past now done) (hnow : now.le h.joined) (hlater : h.joined.le later) :
    Tallied (past ++ h.journal e) later (done ++ h.tasks) where
  perm := by
    have hjoined : h.tasks.Perm (past.unjoined ++ h.before.tasks) := by
      rw [ho.tasks, hleft, ← addTasks_append]
      exact addTasks_perm [] _
    have hjournal : (h.journal e).tasks = h.before.tasks ++ h.after.tasks := Journal.tasks_append ..
    have hdone : (past.tasks ++ h.before.tasks).Perm (done ++ h.tasks) := by
      refine (ht.perm.append_right _).trans ?_
      rw [List.append_assoc]
      exact hjoined.symm.append_left done
    rw [Journal.tasks_append, hjournal, ho.unjoined_journal, ← List.append_assoc]
    exact hdone.append_right _
  finished t hmem := by
    rcases List.mem_append.1 hmem with hmem | hmem
    · obtain ⟨hb, hf⟩ := ht.finished t hmem
      exact ⟨Moment.le_trans (Moment.le_trans hb hnow) hlater,
        Moment.le_trans (Moment.le_trans hf hnow) hlater⟩
    · obtain ⟨hb, hf⟩ := ho.finished t hmem
      exact ⟨Moment.le_trans hb hlater, Moment.le_trans hf hlater⟩
  raised reason := by
    rw [Journal.raised_append, ho.raised_journal, List.count_append, ht.raised, h.count_failures,
      Task.failures_append, List.count_append]

/-! ### The whole run -/

namespace Whole

variable {w : Whole}

/-- Once the event itself has been handled, the first tasks have been waited for. -/
theorem Of.tallied_primary (ho : w.Of bus event) {later : Moment}
    (hlater : w.course.primary.joined.le later) :
    Tallied (w.opening ++ (w.course.begun, .reached .eventFired) :: w.course.primary.journal event)
      later w.course.primary.tasks := by
  have hleft : [] = addTasks []
      (Journal.unjoined (w.opening ++ [(w.course.begun, .reached .eventFired)])) := by
    rw [ho.unjoined_opening]
    rfl
  rw [List.append_cons]
  exact ho.course.primary.tallied hleft (ho.tallied_opening w.course.begun w.course.primary.fired)
    ho.course.primary.waited hlater

theorem Of.unjoined_primary (ho : w.Of bus event) :
    (w.opening ++ (w.course.begun, .reached .eventFired) :: w.course.primary.journal event).unjoined =
      w.course.primary.after.tasks := by
  rw [List.append_cons]
  exact ho.course.primary.unjoined_journal _

/-- When the volume is released, the tasks of both handlings have been waited for. -/
theorem Of.tallied_release (ho : w.Of bus event) :
    ∃ done, Tallied (w.opening ++ w.course.journal event) w.course.ended done := by
  rcases ho.course.handled_cases with ⟨-, hs⟩ | ⟨h, -, hs, hh⟩
  · rw [Course.journal_of_unhandled hs, ← List.cons_append, ← List.append_assoc]
    exact ⟨_, (ho.tallied_primary ho.course.ended.1).append rfl rfl⟩
  · have hprimary := ho.tallied_primary (ho.course.fired h hs)
    have hleft : addTasks [] w.course.primary.after.tasks = addTasks [] (w.opening ++
        (w.course.begun, .reached .eventFired) :: w.course.primary.journal event).unjoined := by
      rw [ho.unjoined_primary]
    rw [Course.journal_of_handled hs, ← List.cons_append, ← List.append_assoc, ← List.append_assoc]
    exact ⟨_, (hh.tallied hleft hprimary hh.waited (ho.course.ended.2 h hs)).append rfl rfl⟩

theorem Of.leftBehind_primary (ho : w.Of bus event) (ht : w.course.primary.after.tasks ≠ []) :
    LeftBehind event
      (w.opening ++ (w.course.begun, .reached .eventFired) :: w.course.primary.journal event) := by
  rw [List.append_cons]
  refine ho.course.primary.leftBehind (Event.isDerived_self errorType event) ?_ ht
  rw [ho.failures_opening]
  rfl

theorem Of.leftBehind_release (ho : w.Of bus event)
    (ht : (w.opening ++ w.course.journal event).unjoined ≠ []) :
    LeftBehind event (w.opening ++ w.course.journal event) := by
  have hlast : ∀ (m : Moment) (stage : Stage), ∀ d ∈ Journal.deeds [(m, .reached stage)],
      d.joined? = none := fun _ _ d hd => absurd hd List.not_mem_nil
  rcases ho.course.handled_cases with ⟨-, hs⟩ | ⟨h, -, hs, hh⟩
  · rw [Course.journal_of_unhandled hs, ← List.cons_append, ← List.append_assoc] at ht ⊢
    rw [Journal.unjoined_append _ (hlast _ _), ho.unjoined_primary] at ht
    refine (ho.leftBehind_primary fun hnil => ht ?_).append (hlast _ _)
    rw [hnil]
    rfl
  · rw [Course.journal_of_handled hs, ← List.cons_append, ← List.append_assoc,
      ← List.append_assoc] at ht ⊢
    rw [Journal.unjoined_append _ (hlast _ _), hh.unjoined_journal] at ht
    refine (hh.leftBehind (Course.isDerived_error_following w.course event) ?_ fun hnil =>
      ht ?_).append (hlast _ _)
    · rw [List.append_cons, Journal.failures_append, ho.failures_opening,
        ho.course.primary.failures_journal (Event.isDerived_self errorType event)]
      rfl
    · rw [hnil]
      rfl

end Whole

variable {σ : Type}

/-- **A run is settled up to the tasks of an error handler** that is called for the failure of a task
after the waiting: whether it is when it should be depends on these tasks alone, and without such a call
there are none. -/
theorem run_settled_iff (c : Controller σ) (id : String) (event : Event) (s : Scene (World σ) Entry) :
    (c.journal id event s).Whenever fun past m d => d.isCheckpoint event →
      (Settled past m ↔
        ∀ t ∈ past.unjoined, t.begun.le m → t.finished.le m ∧ t.failure = none) ∧
      (past.unjoined ≠ [] → LeftBehind event past) := by
  have hspec := c.run_spec id event s
  cases hrun : (c.run id event s).1 with
  | ok report =>
    rw [hrun] at hspec
    obtain ⟨w, hw, hj, -⟩ := hspec
    rw [hj]
    refine hw.whenever (fun _ _ hd => absurd hd Bool.false_ne_true) ?_ fun _ => ?_
    · refine hw.course.whenever ?_ ?_ (fun hd => absurd hd Bool.false_ne_true) fun h hs => ⟨?_, ?_⟩
      · intro d hd past m hcheck
        exact absurd hcheck (Deed.not_isCheckpoint_of_isReaction hd)
      · intro m hcheck
        rw [Deed.isCheckpoint, Event.isDerived_self] at hcheck
        exact absurd hcheck Bool.false_ne_true
      · intro _
        refine ⟨(hw.tallied_primary (hw.course.fired h hs)).settled_iff, fun ht => ?_⟩
        rw [hw.unjoined_primary] at ht
        exact hw.leftBehind_primary ht
      · exact fun hd => absurd hd Bool.false_ne_true
    · obtain ⟨done, ht⟩ := hw.tallied_release
      exact ⟨ht.settled_iff, hw.leftBehind_release⟩
  | error e =>
    rw [hrun] at hspec
    refine .of_deeds fun d hd past m hcheck => ?_
    obtain ⟨project, rfl⟩ := hspec.2 d hd
    exact absurd hcheck Bool.false_ne_true

/-! ### A run that does not wait -/

/-- An upload fails in the background, and so does the error handler clean up. -/
def hasty : Controller Unit where
  bus := ⟨[
    (("github", "push"), fun _ _ => [.spawn [.fail ["upload failed"]]]),
    (("github", errorType), fun _ _ => [.spawn [.sleep 1000, .note "cleanup done"]]),
    (("github", afterType), fun _ _ => [.note "after"])]⟩
  load := loadKnown { id := "p1", name := "org/repo" }
  storage := .none
  backend := .idle

def hastyJournal : Journal :=
  hasty.journal "p1" (.new "run1" "github" "push") { world := .ofCluster () }

/-- The event that comes after is fired while the cleaning up goes on. -/
theorem not_settled_hasty : ¬ hastyJournal.Whenever fun past m d =>
    d.isCheckpoint (.new "run1" "github" "push") → Settled past m := by
  intro h
  have htasks : Journal.tasks (hastyJournal.take 19) =
      [⟨⟨0, 1⟩, ⟨0, 2⟩, some "upload failed"⟩, ⟨⟨0, 3⟩, ⟨1000, 0⟩, none⟩] := by decide +kernel
  have hmoment : (hastyJournal[19]?.map (·.1)) = some ⟨0, 4⟩ := by decide +kernel
  have hfires : (hastyJournal[19]?.bind (·.2.deed?)).any
      (·.isCheckpoint (.new "run1" "github" "push")) = true := by decide +kernel
  obtain ⟨⟨m, x⟩, hx, rfl⟩ := Option.map_eq_some_iff.1 hmoment
  rw [hx] at hfires
  cases x with
  | deed d =>
    have hsettled := h.at hx hfires
    have hlate := hsettled.finished ⟨⟨0, 3⟩, ⟨1000, 0⟩, none⟩ (by rw [htasks]; simp) (by decide)
    exact absurd hlate (by decide)
  | _ => exact Bool.false_ne_true hfires

end Controller

end EventWorker
