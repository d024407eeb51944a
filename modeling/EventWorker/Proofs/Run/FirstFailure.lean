import EventWorker.Proofs.Run.Calls
import EventWorker.Proofs.Run.Joining

/-!
# The first failure of a run

The controller learns of failures from the handlers that it has called and from the tasks that it has
waited for (`Journal.outcomes`). What the error handler itself comes to makes no difference. Of these
failures the first one decides: whether there is one decides over the exit code, and its reason and its
trigger stand in the report and in the events derived from then on.

What the controller learns is what has happened: of each handler it hears what its actions have come to, and
a task has failed exactly if the work that was set off has (`Told`).

* `Course.Of.failures_journal`: the failures that are learned of, and their order.
* `Course.Of.failures_ne_nil_of_task`: no task fails in vain, not even one that nobody has waited for:
  it was set off by an error handler, so there has been a failure before it.
* `Told.failureKnown_iff`: the controller knows of a failure exactly if a handler or a task has failed.
* `run_accounted`: the accounts of a run.
-/

namespace EventWorker

variable {bus : Bus Handler} {event e : Event} {first : Option Failure} {left : List Task}

/-! ### What the controller learns of -/

namespace Deed

/-- Whether the controller learns what something has come to, in a run of `event`, and acts upon it. -/
def isOutcome (event : Event) : Deed → Bool
  | hear e _ => !Event.isDerived errorType event e
  | join _ => true
  | _ => false

/-- The failures that are learned of. -/
def failures : Deed → List Failure
  | hear _ failure => (failure.map (⟨·, .handler⟩)).toList
  | join tasks => (Task.failures tasks).map (⟨·, .background⟩)
  | _ => []

end Deed

/-- Of an event that is no error event the controller acts upon all that is heard. -/
theorem Deed.filter_heard (he : Event.isDerived errorType event e = false) (ds : List Deed) :
    ((ds.filter (·.isOutcome event)).filterMap Deed.heard?).filter (·.1 = e) =
      (ds.filterMap Deed.heard?).filter (·.1 = e) := by
  induction ds with
  | nil => rfl
  | cons d ds ih =>
    cases hd : d.isOutcome event with
    | true =>
      rw [List.filter_cons_of_pos hd, List.filterMap_cons, List.filterMap_cons]
      cases d.heard? with
      | none => exact ih
      | some p => rw [List.filter_cons, List.filter_cons, ih]
    | false =>
      rw [List.filter_cons_of_neg (by rw [hd]; exact Bool.false_ne_true), ih]
      cases d with
      | hear e' failure =>
        have hne : e' ≠ e := by
          rintro rfl
          rw [Deed.isOutcome, he] at hd
          exact Bool.noConfusion hd
        have heard : heard? (hear e' failure) = some (e', failure) := rfl
        rw [List.filterMap_cons_some heard, List.filter_cons_of_neg (by simpa using hne)]
      | _ => rfl

namespace Journal

/-- What the controller learns, in the order in which it does, but for what error handlers come to. -/
def outcomes (event : Event) (j : Journal) : List Deed :=
  j.deeds.filter (·.isOutcome event)

/-- The failures of a run of `event`, in the order in which the controller learns of them. -/
def failures (event : Event) (j : Journal) : List Failure :=
  (j.outcomes event).flatMap Deed.failures

theorem outcomes_append (event : Event) (i j : Journal) :
    outcomes event (i ++ j) = outcomes event i ++ outcomes event j := by
  rw [outcomes, deeds_append, List.filter_append]
  rfl

theorem failures_append (event : Event) (i j : Journal) :
    failures event (i ++ j) = failures event i ++ failures event j := by
  rw [failures, outcomes_append, List.flatMap_append]
  rfl

/-- Whatever is learned of a failure is a failure of the run. -/
theorem failures_ne_nil {j : Journal} {d : Deed} (hd : d ∈ j.deeds) (ho : d.isOutcome event)
    (hf : d.failures ≠ []) : j.failures event ≠ [] := by
  intro hnil
  exact hf (List.flatMap_eq_nil_iff.1 hnil d (List.mem_filter.2 ⟨hd, ho⟩))

end Journal

namespace Controller

/-- The handler of an event, if there is one, comes to a failure or to none. -/
def answered (bus : Bus Handler) (e : Event) (failure : Option String) : List Deed :=
  if bus.handles e.key then [.hear e failure] else []

theorem filter_answerDeeds (failure : Option String) :
    (answerDeeds bus e failure).filter (·.isOutcome event) =
      if Event.isDerived errorType event e then [] else answered bus e failure := by
  cases h : bus.handles e.key with
  | true =>
    rw [answerDeeds_of_handles h, answered, if_pos h]
    cases hd : Event.isDerived errorType event e <;>
      simp [Deed.isOutcome, hd]
  | false =>
    rw [answerDeeds_of_not_handles h, answered, h]
    split <;> rfl

/-- Raising failures, the controller learns of nothing that it acts upon. -/
theorem filter_raiseDeeds (fs : List Failure) (heard : Option String) :
    (raiseDeeds bus event first fs heard).filter (·.isOutcome event) = [] := by
  have hraise : ∀ gs : List Failure, (gs.map Deed.raise).filter (·.isOutcome event) = [] := by
    intro gs
    refine List.filter_eq_nil_iff.2 fun d hd => ?_
    obtain ⟨g, -, rfl⟩ := List.mem_map.1 hd
    exact Bool.false_ne_true
  rcases raiseDeeds_eq bus event first fs heard with ⟨hd, -⟩ | ⟨f, rest, -, -, hd⟩
  · rw [hd]
    exact hraise fs
  · rw [hd]
    show List.filter _ (_ ++ _) = _
    rw [List.filter_append, filter_answerDeeds, isDerived_error_errorEvent, hraise]
    rfl

/-! ### Handling an event -/

namespace Handling

variable {h : Handling}

theorem Of.outcomes_before (ho : h.Of bus event first e left)
    (he : Event.isDerived errorType event e = false) :
    h.before.outcomes event = answered bus e h.failure := by
  obtain ⟨heard, hb⟩ := ho.deeds_before
  rw [Journal.outcomes, hb, List.filter_append, filter_answerDeeds, he, filter_raiseDeeds]
  exact List.append_nil _

theorem Of.outcomes_journal (ho : h.Of bus event first e left)
    (he : Event.isDerived errorType event e = false) :
    (h.journal e).outcomes event = answered bus e h.failure ++ [.join h.tasks] := by
  obtain ⟨heard, ha⟩ := ho.deeds_after
  have hafter : h.after.outcomes event = [] := by
    rw [Journal.outcomes, ha, filter_raiseDeeds]
  show Journal.outcomes event (h.before ++ (h.joined, .deed (.join h.tasks)) :: h.after) = _
  rw [Journal.outcomes_append, ho.outcomes_before he]
  show _ ++ Deed.join h.tasks :: h.after.outcomes event = _
  rw [hafter]

/-- Only an event that has a handler can have one that fails. -/
theorem Of.handles_of_failure (ho : h.Of bus event first e left) {reason : String}
    (hf : h.failure = some reason) : bus.handles e.key = true := by
  cases hn : bus.handles e.key with
  | true => rfl
  | false =>
    rw [(ho.unanswered hn).1] at hf
    exact absurd hf.symm (Option.some_ne_none reason)

theorem Of.failures_before (ho : h.Of bus event first e left)
    (he : Event.isDerived errorType event e = false) :
    h.before.failures event = h.handlerFailures := by
  rw [Journal.failures, ho.outcomes_before he]
  cases hn : bus.handles e.key with
  | true =>
    rw [answered, if_pos hn]
    exact List.append_nil _
  | false =>
    rw [answered, hn, handlerFailures, (ho.unanswered hn).1]
    rfl

theorem Of.failures_journal (ho : h.Of bus event first e left)
    (he : Event.isDerived errorType event e = false) :
    (h.journal e).failures event = h.failures := by
  have hbefore := ho.failures_before he
  rw [Journal.failures, ho.outcomes_before he] at hbefore
  rw [Journal.failures, ho.outcomes_journal he, List.flatMap_append, hbefore]
  exact congrArg _ (List.append_nil _)

/-- A task that fails while it is waited for is a failure of the handling. -/
theorem failures_ne_nil_of_mem {t : Task} (ht : t ∈ h.tasks) (hf : t.failure.isSome) :
    h.failures ≠ [] := by
  obtain ⟨reason, hreason⟩ := Option.isSome_iff_exists.1 hf
  have hmem : reason ∈ Task.failures h.tasks := List.mem_filterMap.2 ⟨t, ht, hreason⟩
  exact List.ne_nil_of_mem (List.mem_append_right _ (List.mem_map_of_mem hmem))

/-- A task that is set off after the waiting is one of an error handler. -/
theorem Of.failures_ne_nil_of_after (ho : h.Of bus event first e left) (ht : h.after.tasks ≠ []) :
    h.failures ≠ [] := by
  intro hnil
  have htasks : h.taskFailures = [] := (List.append_eq_nil_iff.1 hnil).2
  exact ht (ho.settled (Or.inr (Or.inl htasks)))

theorem Of.failures_ne_nil_of_task (ho : h.Of bus event first e left) {t : Task}
    (ht : t ∈ (h.journal e).tasks) (hf : t.failure.isSome) : h.failures ≠ [] := by
  change t ∈ Journal.tasks (h.before ++ (h.joined, .deed (.join h.tasks)) :: h.after) at ht
  rw [Journal.tasks_append] at ht
  rcases List.mem_append.1 ht with ht | ht
  · refine failures_ne_nil_of_mem ?_ hf
    rw [ho.tasks]
    exact (addTasks_perm left h.before.tasks).mem_iff.2 (List.mem_append_right _ ht)
  · exact ho.failures_ne_nil_of_after (List.ne_nil_of_mem ht)

/-- A failure is that of the handler or of a task, which has been set off by then or before. -/
theorem Of.failed (ho : h.Of bus event first e left) (hf : h.failures ≠ []) :
    (∃ reason, .hear e (some reason) ∈ (h.journal e).deeds) ∨
      ∃ t, (t ∈ left ∨ t ∈ (h.journal e).tasks) ∧ t.failure.isSome := by
  cases hfailure : h.failure with
  | some reason =>
    obtain ⟨heard, hb⟩ := ho.deeds_before
    refine Or.inl ⟨reason, ?_⟩
    rw [deeds_journal, hb, answerDeeds_of_handles (ho.handles_of_failure hfailure), hfailure]
    simp
  | none =>
    have htasks : Task.failures h.tasks ≠ [] := by
      intro hnil
      refine hf ?_
      rw [failures, handlerFailures, taskFailures, hfailure, hnil]
      rfl
    obtain ⟨reason, hreason⟩ := List.exists_mem_of_ne_nil _ htasks
    obtain ⟨t, ht, hfail⟩ := List.mem_filterMap.1 hreason
    refine Or.inr ⟨t, ?_, Option.isSome_iff_exists.2 ⟨reason, hfail⟩⟩
    rw [ho.tasks] at ht
    rcases List.mem_append.1 ((addTasks_perm left _).mem_iff.1 ht) with ht | ht
    · exact Or.inl ht
    · refine Or.inr ?_
      show t ∈ Journal.tasks (h.before ++ _)
      rw [Journal.tasks_append]
      exact List.mem_append_left _ ht

end Handling

/-! ### The course of a run -/

namespace Course

variable {k : Course}

theorem outcomes_journal (k : Course) (event : Event) : (k.journal event).outcomes event =
    (k.primary.journal event).outcomes event ++ (k.latter event).outcomes event := by
  rw [Journal.outcomes, deeds_journal, List.filter_append]
  rfl

theorem Of.outcomes_journal (ho : k.Of bus event) : (k.journal event).outcomes event =
    answered bus event k.primary.failure ++ .join k.primary.tasks ::
      (k.second.map fun h =>
        answered bus (k.following event) h.failure ++ [.join h.tasks]).getD [] := by
  have hlatter : (k.latter event).outcomes event = (k.second.map fun h =>
      answered bus (k.following event) h.failure ++ [.join h.tasks]).getD [] := by
    rcases ho.handled_cases with ⟨-, hs⟩ | ⟨h, -, hs, hh⟩
    · rw [latter_of_unhandled hs, hs]
      rfl
    · rw [latter_of_handled hs, hs]
      exact hh.outcomes_journal (isDerived_error_following k event)
  rw [Course.outcomes_journal, hlatter,
    ho.primary.outcomes_journal (Event.isDerived_self errorType event), List.append_assoc]
  rfl

theorem Of.failures_journal (ho : k.Of bus event) :
    (k.journal event).failures event = k.failures := by
  have hlatter : (k.latter event).failures event = (k.second.map Handling.failures).getD [] := by
    rcases ho.handled_cases with ⟨-, hs⟩ | ⟨h, -, hs, hh⟩
    · rw [latter_of_unhandled hs, hs]
      rfl
    · rw [latter_of_handled hs, hs]
      exact hh.failures_journal (isDerived_error_following k event)
  have hprimary := ho.primary.failures_journal (Event.isDerived_self errorType event)
  rw [failures, ← hprimary, ← hlatter, Journal.failures, Course.outcomes_journal, List.flatMap_append]
  rfl

/-- No task fails in vain. -/
theorem Of.failures_ne_nil_of_task (ho : k.Of bus event) {t : Task}
    (ht : t ∈ (k.journal event).tasks) (hf : t.failure.isSome) : k.failures ≠ [] := by
  rw [tasks_journal] at ht
  rcases List.mem_append.1 ht with ht | ht
  · exact List.append_ne_nil_of_left_ne_nil (ho.primary.failures_ne_nil_of_task ht hf) _
  rcases ho.handled_cases with ⟨-, hs⟩ | ⟨h, -, hs, hh⟩
  · rw [latter_of_unhandled hs] at ht
    exact absurd ht List.not_mem_nil
  · rw [latter_of_handled hs] at ht
    rw [failures, hs]
    exact List.append_ne_nil_of_right_ne_nil _ (hh.failures_ne_nil_of_task ht hf)

end Course

/-! ### The accounts of a run -/

/-- By the journal of a run of an event somebody has failed: its handler, or that of the event after it, or
a task. -/
def FailureKnown (event : Event) (j : Journal) : Prop :=
  (∃ reason, .hear event (some reason) ∈ j.deeds) ∨
    (∃ e reason, Event.isDerived afterType event e ∧ .hear e (some reason) ∈ j.deeds) ∨
      ∃ t ∈ j.tasks, t.failure.isSome

theorem FailureKnown.mono {event : Event} {i j : Journal} (h : FailureKnown event i)
    (hdeeds : ∀ d ∈ i.deeds, d ∈ j.deeds) (htasks : ∀ t ∈ i.tasks, t ∈ j.tasks) :
    FailureKnown event j := by
  rcases h with ⟨reason, hd⟩ | ⟨e, reason, he, hd⟩ | ⟨t, ht, hf⟩
  · exact Or.inl ⟨reason, hdeeds _ hd⟩
  · exact Or.inr (Or.inl ⟨e, reason, he, hdeeds _ hd⟩)
  · exact Or.inr (Or.inr ⟨t, htasks t ht, hf⟩)

section Calls

variable {σ : Type} (c : Controller σ)

/-- Of the handlers called in a run of an event that of the event itself has failed or broken down, or that
of the event after it, or work that one of them has set off in the background. -/
def SomeFailed (event : Event) (ks : List (HandlerCall σ)) : Prop :=
  (∃ k ∈ ks, (k.event = event ∨ Event.isDerived afterType event k.event) ∧ k.Failed c) ∨
    ∃ k ∈ ks, ∃ b ∈ k.forest c, b.Failed

/-- What is to be heard of the handlers called for one event. -/
def answers (ks : List (HandlerCall σ)) (e : Event) : List Deed :=
  (ks.filter (·.event = e)).map fun k => .hear k.event (Fault.reason? "handler" (k.outcome c))

variable {c} {scope : RunScope} {ks : List (HandlerCall σ)} {j : Journal}

/-- A failure is heard of where a handler has failed. -/
theorem Told.hear_iff (h : Told c scope ks j) :
    (∃ reason, .hear e (some reason) ∈ j.deeds) ↔ ∃ k ∈ ks, k.event = e ∧ k.Failed c := by
  constructor
  · rintro ⟨reason, hd⟩
    rw [← Journal.mem_heard, h.heard, List.mem_map] at hd
    obtain ⟨k, hk, heq⟩ := hd
    have hsome : (Fault.reason? "handler" (k.outcome c)).isSome := by
      rw [(Prod.mk.inj heq).2]
      rfl
    exact ⟨k, hk, (Prod.mk.inj heq).1, Fault.isSome_reason?_iff.1 hsome⟩
  · rintro ⟨k, hk, rfl, f, hf⟩
    refine ⟨f.reason "handler", ?_⟩
    rw [← Journal.mem_heard, h.heard, List.mem_map]
    exact ⟨k, hk, by rw [hf]; rfl⟩

/-- A task has failed where work that has been set off has. -/
theorem Told.task_iff (h : Told c scope ks j) :
    (∃ t ∈ j.tasks, t.failure.isSome) ↔ ∃ k ∈ ks, ∃ b ∈ k.forest c, b.Failed := by
  rw [h.tasks]
  constructor
  · rintro ⟨t, ht, hf⟩
    obtain ⟨k, hk, ht⟩ := List.mem_flatMap.1 ht
    obtain ⟨b, hb, rfl⟩ := List.mem_map.1 ht
    exact ⟨k, hk, b, hb, Branch.isSome_failure_task.1 hf⟩
  · rintro ⟨k, hk, b, hb, hf⟩
    refine ⟨b.task, List.mem_flatMap.2 ⟨k, hk, List.mem_map_of_mem hb⟩, ?_⟩
    exact Branch.isSome_failure_task.2 hf

/-- The controller knows of a failure exactly if there has been one. -/
theorem Told.failureKnown_iff (h : Told c scope ks j) : FailureKnown event j ↔ SomeFailed c event ks := by
  rw [FailureKnown, SomeFailed, h.task_iff, ← or_assoc]
  refine or_congr_left ⟨?_, ?_⟩
  · rintro (hreason | ⟨e, reason, he, hd⟩)
    · obtain ⟨k, hk, hevent, hf⟩ := h.hear_iff.1 hreason
      exact ⟨k, hk, Or.inl hevent, hf⟩
    · obtain ⟨k, hk, rfl, hf⟩ := h.hear_iff.1 ⟨reason, hd⟩
      exact ⟨k, hk, Or.inr he, hf⟩
  · rintro ⟨k, hk, hevent | he, hf⟩
    · exact Or.inl (h.hear_iff.2 ⟨k, hk, hevent, hf⟩)
    · obtain ⟨reason, hd⟩ := h.hear_iff.2 ⟨k, hk, rfl, hf⟩
      exact Or.inr ⟨k.event, reason, he, hd⟩

/-- What the controller learns of the handlers called for one event, if it acts upon that at all. -/
theorem Told.answers_eq (h : Told c scope ks j) (he : Event.isDerived errorType event e = false) :
    answers c ks e =
      (((j.outcomes event).filterMap Deed.heard?).filter (·.1 = e)).map fun p => .hear p.1 p.2 := by
  rw [Journal.outcomes, Deed.filter_heard he, ← Journal.heard, h.heard, List.filter_map, List.map_map]
  rfl

end Calls

/-- How a report and the derived events account for the failures of a run, where `ks` are the handlers that it
has called. -/
structure Accounted {σ : Type} (c : Controller σ) (event : Event) (ks : List (HandlerCall σ))
    (report : RunReport) (j : Journal) : Prop where
  exitCode : report.exitCode = if report.errorFired then 1 else 0
  errorFired : report.errorFired = true ↔ ∃ e ∈ j.fired, Event.isDerived errorType event e
  reported : report.errorReason.isSome = report.errorFired
  failed : report.errorFired = true ↔ SomeFailed c event ks
  errorReason : report.errorReason = (j.failures event).head?.map (·.reason)
  /-- First the handler of the event, then tasks, then the handler of the event after it, then tasks. -/
  order : ∃ tasks following more, Event.isDerived afterType event following ∧
    j.outcomes event = answers c ks event ++ .join tasks ::
      if c.bus.handles event.key then answers c ks following ++ [.join more] else []
  joins : j.Whenever fun past _ d => ∀ tasks, d = .join tasks → Arranged past.unjoined tasks
  /-- The error event is made of the first failure of all. -/
  error : j.fired.filter (Event.isDerived errorType event) =
    (j.failures event).head?.toList.map fun f => event.derive errorType f.trigger (some f.reason)
  /-- The event that comes after is made of the first failure up to then. -/
  after : j.Whenever fun past _ d => ∀ e, d = .fire e → Event.isDerived afterType event e →
    e = match (past.failures event).head? with
      | some f => event.derive afterType f.trigger (some f.reason)
      | none => event.derive afterType .success none

namespace Course

variable {k : Course}

/-- If a course has failed, then its first handling or its second has. -/
theorem Of.failed (ho : k.Of bus event) (hf : k.failures ≠ []) : FailureKnown event (k.journal event) := by
  rw [FailureKnown, deeds_journal, tasks_journal]
  by_cases hprimary : k.primary.failures = []
  · rcases ho.handled_cases with ⟨-, hs⟩ | ⟨h, -, hs, hh⟩
    · exact absurd (by rw [failures, hprimary, hs]; rfl) hf
    · have hsecond : h.failures ≠ [] := by
        rw [failures, hprimary, hs] at hf
        exact hf
      rw [latter_of_handled hs]
      rcases hh.failed hsecond with ⟨reason, hd⟩ | ⟨t, ht | ht, hfail⟩
      · refine Or.inr (Or.inl ⟨k.following event, reason, ?_, List.mem_append_right _ hd⟩)
        exact isDerived_after_following k event
      · refine Or.inr (Or.inr ⟨t, List.mem_append_left _ ?_, hfail⟩)
        have hafter : t ∈ k.primary.after.tasks := (addTasks_perm [] _).mem_iff.1 ht
        show t ∈ Journal.tasks (k.primary.before ++ (_ :: k.primary.after))
        rw [Journal.tasks_append]
        exact List.mem_append_right _ hafter
      · exact Or.inr (Or.inr ⟨t, List.mem_append_right _ ht, hfail⟩)
  · rcases ho.primary.failed hprimary with ⟨reason, hd⟩ | ⟨t, ht | ht, hfail⟩
    · exact Or.inl ⟨reason, List.mem_append_left _ hd⟩
    · exact absurd ht List.not_mem_nil
    · exact Or.inr (Or.inr ⟨t, List.mem_append_left _ ht, hfail⟩)

/-- An error event is fired if there is a failure. -/
theorem Of.exists_error_iff (ho : k.Of bus event) :
    (∃ e ∈ (k.journal event).fired, Event.isDerived errorType event e) ↔
      k.failures.head?.isSome = true := by
  have hcount := ho.count_error
  rw [← List.countP_pos_iff, hcount, Option.length_toList]
  cases k.failures.head? with
  | none => exact ⟨fun h => absurd h (Nat.lt_irrefl 0), fun h => absurd h Bool.false_ne_true⟩
  | some f => exact ⟨fun _ => rfl, fun _ => Nat.one_pos⟩

end Course

namespace Whole

variable {w : Whole}

theorem Of.outcomes_journal (ho : w.Of bus event) :
    (w.journal event).outcomes event = (w.course.journal event).outcomes event := by
  rw [Journal.outcomes, ho.deeds_journal]
  show List.filter _ (_ ++ _) = _
  rw [List.filter_append]
  exact List.append_nil _

/-- First the handler of the event, then tasks, then the handler of the event after it, then tasks. -/
theorem Of.order {σ : Type} {c : Controller σ} {scope : RunScope} {ks : List (HandlerCall σ)}
    (ho : w.Of c.bus event) (htold : Told c scope ks (w.journal event)) :
    ∃ tasks following more, Event.isDerived afterType event following ∧
      (w.journal event).outcomes event = answers c ks event ++ .join tasks ::
        if c.bus.handles event.key then answers c ks following ++ [.join more] else [] := by
  have hk := ho.course
  have hafter := Course.isDerived_after_following w.course event
  have hne : w.course.following event ≠ event := by
    intro heq
    rw [heq, Event.isDerived_self] at hafter
    exact Bool.noConfusion hafter
  have hprimary := htold.answers_eq (Event.isDerived_self errorType event)
  have hsecond := htold.answers_eq (Course.isDerived_error_following w.course event)
  refine ⟨w.course.primary.tasks, w.course.following event, (w.course.second.map (·.tasks)).getD [],
    hafter, ?_⟩
  rw [hprimary, hsecond, ho.outcomes_journal, hk.outcomes_journal]
  rcases hk.handled_cases with ⟨hn, hs⟩ | ⟨h, hn, hs, -⟩
  · rw [hs]
    simp [answered, hn, List.filterMap_cons, Deed.heard?]
  · rw [hs]
    cases hfollowing : c.bus.handles (w.course.following event).key
    · simp [answered, hn, hfollowing, List.filterMap_cons, Deed.heard?, hne.symm]
    · simp [answered, hn, hfollowing, List.filterMap_cons, Deed.heard?, hne, hne.symm]

theorem Of.failures_journal (ho : w.Of bus event) :
    (w.journal event).failures event = w.course.failures := by
  rw [Journal.failures, ho.outcomes_journal]
  exact ho.course.failures_journal

theorem Of.tasks_journal (ho : w.Of bus event) :
    (w.journal event).tasks = (w.course.journal event).tasks := by
  rw [journal, Journal.tasks_append, ho.opening_tasks, Journal.tasks_append]
  show [] ++ (_ ++ w.closing.tasks) = _
  rw [ho.closing_tasks]
  exact List.append_nil _

theorem Of.failed_iff (ho : w.Of bus event) :
    w.course.failures ≠ [] ↔ FailureKnown event (w.journal event) := by
  constructor
  · intro hf
    refine (ho.course.failed hf).mono ?_ ?_
    · intro d hd
      rw [ho.deeds_journal]
      exact List.mem_cons_of_mem _ (List.mem_append_left _ hd)
    · intro t ht
      rw [ho.tasks_journal]
      exact ht
  · rintro (⟨reason, hd⟩ | ⟨e, reason, he, hd⟩ | ⟨t, ht, hf⟩)
    · rw [← ho.failures_journal]
      refine Journal.failures_ne_nil hd ?_ (List.cons_ne_nil _ _)
      rw [Deed.isOutcome, Event.isDerived_self]
      rfl
    · rw [← ho.failures_journal]
      refine Journal.failures_ne_nil hd ?_ (List.cons_ne_nil _ _)
      rw [Deed.isOutcome, isDerived_error_of_after he]
      rfl
    · rw [ho.tasks_journal] at ht
      exact ho.course.failures_ne_nil_of_task ht hf

theorem Of.failures_opening (ho : w.Of bus event) (m : Moment) :
    Journal.failures event (w.opening ++ [(m, .reached .eventFired)]) = [] := by
  rw [Journal.failures_append, Journal.failures, Journal.outcomes, ho.opening_deeds]
  rfl

theorem Of.after_journal (ho : w.Of bus event) : (w.journal event).Whenever fun past _ d =>
    ∀ e, d = .fire e → Event.isDerived afterType event e →
      e = afterEvent event (past.failures event).head? := by
  refine ho.whenever (fun _ _ _ he => Deed.noConfusion he) ?_ (fun _ he => Deed.noConfusion he)
  refine ho.course.whenever ?_ ?_ (fun _ he => Deed.noConfusion he) fun h hs =>
    ⟨?_, fun _ he => Deed.noConfusion he⟩
  · rintro d hd past m e rfl he
    rw [Deed.isReaction, isDerived_error_of_after he] at hd
    exact absurd hd Bool.false_ne_true
  · rintro m _ ⟨rfl⟩ he
    rw [Event.isDerived_self] at he
    exact absurd he Bool.false_ne_true
  · rintro _ ⟨rfl⟩ -
    rw [List.append_cons, Journal.failures_append, ho.failures_opening,
      ho.course.primary.failures_journal (Event.isDerived_self errorType event)]
    rfl

end Whole

variable {σ : Type}

/-- **The failures of a run are accounted for** by its report and by the events derived from the one
that it is about. They are the failures of the handlers that have been called and of what these have set
off. -/
theorem run_accounted (c : Controller σ) (id : String) (event : Event) (s : Scene (World σ) Entry) :
    match (c.run id event s).1 with
    | .ok report => ∃ k : Calls σ, Ran c id event s k ∧
        Accounted c event k.handlers report (c.journal id event s)
    | .error _ => True := by
  have hcalls := c.run_calls id event s
  have hspec := c.run_spec id event s
  have hjoins := c.run_joins id event s
  cases hrun : (c.run id event s).1 with
  | error e => trivial
  | ok report =>
    rw [hrun] at hspec hcalls
    obtain ⟨w, hw, hj, hreport⟩ := hspec
    obtain ⟨k, hran⟩ := hcalls
    have hk := hw.course
    have htold := hran.told
    rw [hj] at hjoins htold ⊢
    rw [hreport]
    refine ⟨k, hran, rfl, ?_, ?_, ?_, ?_, ?_, ?_, ?_, ?_⟩
    · rw [hw.fired_journal]
      exact hk.exists_error_iff.symm
    · exact Option.isSome_map ..
    · rw [← htold.failureKnown_iff, ← hw.failed_iff]
      exact List.isSome_head?
    · rw [hw.failures_journal]
      rfl
    · exact hw.order htold
    · exact hjoins.imp fun past m d h tasks hd => (h tasks hd).1
    · rw [hw.fired_journal, hw.failures_journal]
      exact hk.filter_error
    · refine hw.after_journal.imp fun past m d h e hd he => (h e hd he).trans ?_
      cases (past.failures event).head? <;> rfl

end Controller

end EventWorker
