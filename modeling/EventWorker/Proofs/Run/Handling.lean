import EventWorker.Proofs.Run.Tasks
import EventWorker.Run.Controller

/-!
# What the controller does for one event

The deeds of the controller are known up to what the handlers come to: `answerDeeds` are those of
passing a fired event to its handler, `raiseDeeds` those of raising failures. From them the handling of
an event is put together: the event is fired, its handler's failure raised, the tasks waited for, and
their failures raised.

* `dispatch_spec`, `raiseAll_spec`: the deeds of one dispatch and of raising a list of failures. Only
  the first failure of a run has a further event fired, so only it can set off tasks.
* `handle_spec`: the handling of an event, as a `Handling`. Whatever was set off before the controller
  has waited is done then; what is left are the tasks that the error handler has set off after that.
-/

namespace EventWorker

open Activity

variable {σ α : Type}

/-! ### Entries of the controller -/

theorem passes_record (d : Deed) (s : Scene (World σ) Entry) :
    Passes s (Work.record d s).2 [(s.now, .deed d)] :=
  .of_no_tasks rfl s.now.le_refl rfl rfl

theorem passes_report (p : Progress) (s : Scene (World σ) Entry) :
    Passes s (Work.report p s).2 [(s.now, .progress p)] :=
  .of_no_tasks rfl s.now.le_refl rfl rfl

theorem busy_await {work : Work σ α} (h : Busy work) : Busy (await work) := by
  have hpause : Busy (pause : Work σ Unit) := fun s =>
    ⟨[], .of_no_tasks (List.append_nil _).symm s.now.le_next rfl rfl, rfl, rfl⟩
  exact hpause.bind fun _ => h.bind fun _ => hpause.bind fun _ => .pure _

namespace Controller

/-! ### Dispatching -/

/-- The deeds of passing an event to its handler, which comes to a failure or to none. -/
def answerDeeds (bus : Bus Handler) (e : Event) (failure : Option String) : List Deed :=
  if bus.handles e.key then [.call e, .hear e failure] else []

theorem answerDeeds_of_handles {bus : Bus Handler} {e : Event} (h : bus.handles e.key = true)
    (failure : Option String) : answerDeeds bus e failure = [.call e, .hear e failure] :=
  if_pos h

theorem answerDeeds_of_not_handles {bus : Bus Handler} {e : Event}
    (h : bus.handles e.key = false) (failure : Option String) : answerDeeds bus e failure = [] :=
  if_neg (by rw [h]; exact Bool.false_ne_true)

/-- An event is fired first of all; then its handler is called, where it has one. -/
theorem dispatch_spec (c : Controller σ) (scope : RunScope) (e : Event)
    (s : Scene (World σ) Entry) :
    ∃ j : Journal, Passes s (c.dispatch scope e s).2 ((s.now, .deed (.fire e)) :: j) ∧
      j.deeds = answerDeeds c.bus e (c.dispatch scope e s).1 ∧ j.stages = [] ∧
      (c.bus.handles e.key = false → (c.dispatch scope e s).1 = none ∧ j.tasks = []) := by
  have hfire := passes_record (.fire e) s
  cases h : c.bus.handler? e.key with
  | none =>
    have hh : c.bus.handles e.key = false := by rw [Bus.handles, h]; rfl
    refine ⟨[], ?_, ?_, rfl, fun _ => ⟨?_, rfl⟩⟩
    · simp only [dispatch, h]
      exact hfire
    · rw [answerDeeds_of_not_handles hh]
      rfl
    · simp only [dispatch, h]
      rfl
  | some handler =>
    have hh : c.bus.handles e.key = true := by rw [Bus.handles, h]; rfl
    let s₁ := (Work.record (.fire e) s).2
    let s₂ := (Work.report (.fired e.source e.type) s₁).2
    let s₃ := (Work.record (.call e) s₂).2
    have hwork := busy_await
      (Action.busy_performAll ⟨c.backend, scope, e⟩ (handler scope e))
    obtain ⟨j, hj, hjd, hjs⟩ := hwork s₃
    let out := await (Action.performAll ⟨c.backend, scope, e⟩ (handler scope e)) s₃
    let failure := Fault.reason? "handler" out.1
    have hout : c.dispatch scope e s = (failure, (Work.record (.hear e failure) out.2).2) := by
      simp only [dispatch, h]
      rfl
    obtain ⟨k, hk, hkd, hks⟩ : ∃ k : Journal,
        Passes s₁ (Work.record (.hear e failure) out.2).2 k ∧
          k.deeds = [.call e, .hear e failure] ∧ k.stages = [] := by
      refine ⟨_, (((passes_report (.fired e.source e.type) s₁).trans
        (passes_record (.call e) s₂)).trans hj).trans (passes_record (.hear e failure) out.2), ?_, ?_⟩
      · simp only [Journal.deeds_append, hjd]
        rfl
      · simp only [Journal.stages_append, hjs]
        rfl
    rw [hout, answerDeeds_of_handles hh]
    exact ⟨k, hfire.trans hk, hkd, hks, fun hn => absurd (hh.symm.trans hn) Bool.noConfusion⟩

/-! ### Raising failures -/

/-- The deeds of raising failures after `first` has been the first one of the run. What the error
handler comes to is heard, but not raised. -/
def raiseDeeds (bus : Bus Handler) (event : Event) :
    (first : Option Failure) → List Failure → (heard : Option String) → List Deed
  | none, f :: fs, heard =>
    .raise f :: .fire (errorEvent event f) ::
      (answerDeeds bus (errorEvent event f) heard ++ fs.map .raise)
  | _, fs, _ => fs.map .raise

theorem raiseDeeds_some (bus : Bus Handler) (event : Event) (f : Failure) (fs : List Failure)
    (heard : Option String) : raiseDeeds bus event (some f) fs heard = fs.map .raise :=
  rfl

/-- What is raised has been raised, first of all. -/
theorem raise_spec (c : Controller σ) (scope : RunScope) (first : Option Failure) (f : Failure)
    (s : Scene (World σ) Entry) :
    ∃ (j : Journal) (heard : Option String), Passes s (c.raise scope first f s).2 j ∧
      (c.raise scope first f s).1 = some (first.getD f) ∧
      j.deeds = raiseDeeds c.bus scope.event first [f] heard ∧ j.stages = [] ∧
      (first.isSome ∨ c.bus.handles (scope.event.source, errorType) = false → j.tasks = []) := by
  let reported := (Work.report (.log .error f.reason none) (Work.record (.raise f) s).2).2
  have hraise : Passes s reported _ := (passes_record (.raise f) s).trans
    (passes_report (.log .error f.reason none) (Work.record (.raise f) s).2)
  cases first with
  | some g => exact ⟨_, none, hraise, rfl, rfl, rfl, fun _ => rfl⟩
  | none =>
    let error := errorEvent scope.event f
    obtain ⟨j, hj, hjd, hjs, hjn⟩ := c.dispatch_spec scope error reported
    refine ⟨_, (c.dispatch scope error reported).1, hraise.trans hj, rfl, ?_, ?_, ?_⟩
    · simp only [Journal.deeds_append]
      show [Deed.raise f] ++ (Deed.fire error :: Journal.deeds j) = _
      rw [hjd, raiseDeeds, List.map_nil, List.append_nil]
      rfl
    · simp only [Journal.stages_append]
      exact hjs
    · rintro (h | h)
      · exact absurd h Bool.false_ne_true
      · simp only [Journal.tasks_append]
        exact (hjn h).2

/-- All failures are raised, and the first of the run stays the first. -/
theorem raiseAll_spec (c : Controller σ) (scope : RunScope) (fs : List Failure) :
    ∀ (first : Option Failure) (s : Scene (World σ) Entry),
      ∃ (j : Journal) (heard : Option String), Passes s (c.raiseAll scope first fs s).2 j ∧
        (c.raiseAll scope first fs s).1 = first.or fs.head? ∧
        j.deeds = raiseDeeds c.bus scope.event first fs heard ∧ j.stages = [] ∧
        (first.isSome ∨ fs = [] ∨ c.bus.handles (scope.event.source, errorType) = false →
          j.tasks = []) := by
  induction fs with
  | nil =>
    intro first s
    refine ⟨[], none, .refl s, ?_, ?_, rfl, fun _ => rfl⟩
    · cases first <;> rfl
    · cases first <;> rfl
  | cons f fs ih =>
    intro first s
    obtain ⟨i, heard, hi, hif, hid, his, hit⟩ := c.raise_spec scope first f s
    obtain ⟨j, heard', hj, hjf, hjd, hjs, hjt⟩ := ih (c.raise scope first f s).1 (c.raise scope first f s).2
    -- from here on there is a first failure, so the rest is only reported
    rw [hif] at hjf hjd hjt
    refine ⟨i ++ j, heard, hi.trans hj, ?_, ?_, ?_, ?_⟩
    · show (c.raiseAll scope (c.raise scope first f s).1 fs (c.raise scope first f s).2).1 = _
      rw [hif, hjf]
      cases first <;> rfl
    · rw [Journal.deeds_append, hid, hjd, raiseDeeds_some]
      cases first with
      | some g => rfl
      | none =>
        simp only [raiseDeeds, List.map_nil, List.append_nil, List.cons_append]
    · rw [Journal.stages_append, his, hjs]
      rfl
    · rintro (h | h | h)
      · rw [Journal.tasks_append, hit (Or.inl h), hjt (Or.inl rfl)]
        rfl
      · exact absurd h (List.cons_ne_nil f fs)
      · rw [Journal.tasks_append, hit (Or.inr h), hjt (Or.inl rfl)]
        rfl

/-! ### Handling an event -/

/-- What the handling of a fired event comes to. -/
structure Handling where
  /-- When the event is fired. -/
  fired : Moment
  /-- Why its handler failed, if it did. -/
  failure : Option String
  /-- What is written down between the firing and the end of the waiting. -/
  before : Journal
  /-- When the tasks have been waited for. -/
  joined : Moment
  tasks : List Task
  /-- What is written down after that. -/
  after : Journal

namespace Handling

def handlerFailures (h : Handling) : List Failure :=
  (h.failure.map (⟨·, .handler⟩)).toList

def taskFailures (h : Handling) : List Failure :=
  (Task.failures h.tasks).map (⟨·, .background⟩)

/-- The failures in the order in which the controller learns of them. -/
def failures (h : Handling) : List Failure :=
  h.handlerFailures ++ h.taskFailures

def journal (h : Handling) (e : Event) : Journal :=
  (h.fired, .deed (.fire e)) :: (h.before ++ (h.joined, .deed (.join h.tasks)) :: h.after)

/-- What is known of the handling of `e` in a run of `event`, if `first` has been the first failure so
far and the tasks `left` were still to be waited for. -/
structure Of (h : Handling) (bus : Bus Handler) (event : Event) (first : Option Failure) (e : Event)
    (left : List Task) : Prop where
  deeds_before : ∃ heard, h.before.deeds =
    answerDeeds bus e h.failure ++ raiseDeeds bus event first h.handlerFailures heard
  deeds_after : ∃ heard, h.after.deeds =
    raiseDeeds bus event (first.or h.handlerFailures.head?) h.taskFailures heard
  stages_before : h.before.stages = []
  stages_after : h.after.stages = []
  unanswered : bus.handles e.key = false → h.failure = none ∧ h.before.tasks = []
  tasks : h.tasks = addTasks left h.before.tasks
  inOrder : InOrder h.tasks
  waited : h.fired.le h.joined
  finished : ∀ t ∈ h.tasks, t.begun.le h.joined ∧ t.finished.le h.joined
  settled : (first.or h.handlerFailures.head?).isSome ∨ h.taskFailures = [] ∨
    bus.handles (event.source, errorType) = false → h.after.tasks = []

end Handling

/-- **An event is handled**: when the controller goes on, no task is left but those that the error
handler has set off after the waiting. -/
theorem handle_spec (c : Controller σ) (scope : RunScope) (first : Option Failure) (e : Event)
    (s : Scene (World σ) Entry) (hs : Pending s.now s.world.tasks) :
    ∃ h : Handling, h.Of c.bus scope.event first e s.world.tasks ∧ h.fired = s.now ∧
      (c.handle scope first e s).1 = first.or h.failures.head? ∧
      (c.handle scope first e s).2.log = s.log ++ h.journal e ∧
      h.joined.le (c.handle scope first e s).2.now ∧
      (c.handle scope first e s).2.world.tasks = addTasks [] h.after.tasks ∧
      Pending (c.handle scope first e s).2.now (c.handle scope first e s).2.world.tasks := by
  obtain ⟨j₁, hj₁, hd₁, hg₁, hn₁⟩ := c.dispatch_spec scope e s
  let s₁ := (c.dispatch scope e s).2
  let failure := (c.dispatch scope e s).1
  let early : List Failure := (failure.map (⟨·, .handler⟩)).toList
  obtain ⟨j₂, heard₂, hj₂, hf₂, hd₂, hg₂, ht₂⟩ := c.raiseAll_spec scope early first s₁
  let s₂ := (c.raiseAll scope first early s₁).2
  have hbefore : Passes s s₂ ((s.now, .deed (.fire e)) :: j₁ ++ j₂) := hj₁.trans hj₂
  obtain ⟨later, hjoin, hlater, hfin⟩ := joinTasks_eq s₂ (hbefore.pending hs)
  let late : List Failure := (Task.failures s₂.world.tasks).map (⟨·, .background⟩)
  let s₃ : Scene (World σ) Entry :=
    { s₂ with now := later, world := { s₂.world with tasks := [] } }
  let s₄ := (Work.record (.join s₂.world.tasks) s₃).2
  obtain ⟨j₃, heard₃, hj₃, hf₃, hd₃, hg₃, ht₃⟩ := c.raiseAll_spec scope late (first.or early.head?) s₄
  have hhandle : c.handle scope first e s = c.raiseAll scope (first.or early.head?) late s₄ := by
    show c.raiseAll scope (c.raiseAll scope first early s₁).1
      ((Task.failures (joinTasks s₂).1).map (⟨·, .background⟩))
      (Work.record (.join (joinTasks s₂).1) (joinTasks s₂).2).2 = _
    rw [hjoin, hf₂]
  have hempty : Pending s₄.now s₄.world.tasks := Pending.nil later
  refine ⟨⟨s.now, failure, j₁ ++ j₂, later, s₂.world.tasks, j₃⟩, ?_, rfl, ?_, ?_, ?_, ?_, ?_⟩
  · constructor
    · exact ⟨heard₂, by rw [Journal.deeds_append, hd₁, hd₂]; rfl⟩
    · exact ⟨heard₃, hd₃⟩
    · rw [Journal.stages_append, hg₁, hg₂]
      rfl
    · exact hg₃
    · intro hn
      obtain ⟨hfail, htasks⟩ := hn₁ hn
      have hearly : early = [] := by
        show ((c.dispatch scope e s).1.map (⟨·, Trigger.handler⟩ : String → Failure)).toList = []
        rw [hfail]
        rfl
      refine ⟨hfail, ?_⟩
      rw [Journal.tasks_append, htasks, ht₂ (Or.inr (Or.inl hearly))]
      rfl
    · exact hbefore.tasks
    · exact (hbefore.pending hs).inOrder
    · exact Moment.le_trans hbefore.forward hlater
    · exact hfin
    · exact ht₃
  · rw [hhandle, hf₃, Option.or_assoc, ← List.head?_append]
    rfl
  · rw [hhandle, hj₃.log]
    show (s₂.log ++ [(later, Entry.deed (.join s₂.world.tasks))]) ++ j₃ = _
    rw [hbefore.log, Handling.journal]
    simp only [List.append_assoc, List.cons_append, List.nil_append]
  · rw [hhandle]
    exact hj₃.forward
  · rw [hhandle]
    exact hj₃.tasks
  · rw [hhandle]
    exact hj₃.pending hempty

end Controller

end EventWorker
