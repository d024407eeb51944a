import EventWorker.Proofs.Run.Handling

/-!
# The course of a run

Between the provision of its volume and its release a run handles its event, and then the event that
comes after it if there was a handler. `Course` says what these came to, and `Course.Of` what is known
of them in any run; `run_spec` says that a run that is not broken off consists of an opening, such a
course, and a closing, and what a run that is broken off has done by then.
-/

namespace EventWorker

open Activity

variable {σ α : Type}

namespace Controller

/-- What is known of the event that comes after: why the run has failed so far, if it has. -/
theorem afterEvent_eq (event : Event) (first : Option Failure) :
    ∃ trigger reason, afterEvent event first = event.derive afterType trigger reason := by
  cases first with
  | none => exact ⟨_, _, rfl⟩
  | some f => exact ⟨_, _, rfl⟩

/-- What a run comes to while its volume is there. -/
structure Course where
  begun : Moment
  /-- The handling of the event itself. -/
  primary : Handling
  /-- The handling of the event that comes after it, if there was a handler. -/
  second : Option Handling
  ended : Moment

namespace Course

/-- The failures in the order in which the controller learns of them. -/
def failures (k : Course) : List Failure :=
  k.primary.failures ++ (k.second.map Handling.failures).getD []

/-- The event that comes after, as the failures so far make it. -/
def following (k : Course) (event : Event) : Event :=
  afterEvent event k.primary.failures.head?

def journal (k : Course) (event : Event) : Journal :=
  (k.begun, .reached .eventFired) :: (k.primary.journal event ++
    match k.second with
    | none => [(k.ended, .reached .noHandlerBookkept)]
    | some h => h.journal (k.following event) ++ [(k.ended, .reached .afterFired)])

/-- What is known of the course of a run of an event. -/
structure Of (k : Course) (bus : Bus Handler) (event : Event) : Prop where
  primary : k.primary.Of bus event none event []
  handled : k.second.isSome = bus.handles event.key
  second : ∀ h ∈ k.second, h.Of bus event k.primary.failures.head? (k.following event)
    (addTasks [] k.primary.after.tasks)
  fired : ∀ h ∈ k.second, k.primary.joined.le h.fired
  ended : k.primary.joined.le k.ended ∧ ∀ h ∈ k.second, h.joined.le k.ended

end Course

theorem runHandlers_spec (c : Controller σ) (scope : RunScope) (s : Scene (World σ) Entry) :
    ∃ k : Course, k.Of c.bus scope.event ∧
      (c.runHandlers scope s).1 = k.failures.head? ∧
      (c.runHandlers scope s).2.log = s.log ++ k.journal scope.event ∧
      (c.runHandlers scope s).2.now = k.ended := by
  let s₀ : Scene (World σ) Entry := { s with world := { s.world with tasks := [] } }
  let s₁ := (Work.reach .eventFired s₀).2
  obtain ⟨h₁, ho₁, -, hf₁, hl₁, hj₁, ht₁, hp₁⟩ :=
    c.handle_spec scope none scope.event s₁ (.nil s.now)
  let s₂ := (c.handle scope none scope.event s₁).2
  let following := afterEvent scope.event h₁.failures.head?
  have hsplit : c.runHandlers scope s =
      (if c.bus.handles scope.event.key then do
        let first ← c.handle scope (c.handle scope none scope.event s₁).1
          (afterEvent scope.event (c.handle scope none scope.event s₁).1)
        Work.reach .afterFired
        return first
      else do
        Work.reach .noHandlerBookkept
        return (c.handle scope none scope.event s₁).1 : Work σ (Option Failure)) s₂ := rfl
  cases hh : c.bus.handles scope.event.key with
  | false =>
    have hrun : c.runHandlers scope s = (h₁.failures.head?, (Work.reach .noHandlerBookkept s₂).2) := by
      rw [hsplit, hh, hf₁, Option.none_or]
      rfl
    refine ⟨⟨s.now, h₁, none, s₂.now⟩, ⟨ho₁, hh.symm, ?_, ?_, ?_⟩, ?_, ?_, ?_⟩
    · exact fun _ h => absurd h (Option.not_mem_none _)
    · exact fun _ h => absurd h (Option.not_mem_none _)
    · exact ⟨hj₁, fun _ h => absurd h (Option.not_mem_none _)⟩
    · rw [hrun]
      show _ = (h₁.failures ++ []).head?
      rw [List.append_nil]
    · rw [hrun]
      show s₂.log ++ [(s₂.now, Entry.reached .noHandlerBookkept)] = _
      rw [hl₁]
      show (s.log ++ [(s.now, Entry.reached .eventFired)] ++ h₁.journal scope.event) ++ _ = _
      simp only [Course.journal, List.append_assoc, List.cons_append, List.nil_append]
    · rw [hrun]
      rfl
  | true =>
    obtain ⟨h₂, ho₂, hs₂, hf₂, hl₂, hj₂, -, -⟩ :=
      c.handle_spec scope h₁.failures.head? following s₂ hp₁
    let s₃ := (c.handle scope h₁.failures.head? following s₂).2
    have hrun : c.runHandlers scope s =
        ((c.handle scope h₁.failures.head? following s₂).1, (Work.reach .afterFired s₃).2) := by
      rw [hsplit, hh, hf₁, Option.none_or]
      rfl
    refine ⟨⟨s.now, h₁, some h₂, s₃.now⟩, ⟨ho₁, hh.symm, ?_, ?_, ?_⟩, ?_, ?_, ?_⟩
    · rintro _ ⟨rfl⟩
      rw [ht₁] at ho₂
      exact ho₂
    · rintro _ ⟨rfl⟩
      rw [hs₂]
      exact hj₁
    · have hbegun : h₁.joined.le h₂.fired := by
        rw [hs₂]
        exact hj₁
      refine ⟨Moment.le_trans (Moment.le_trans hbegun ho₂.waited) hj₂, ?_⟩
      rintro _ ⟨rfl⟩
      exact hj₂
    · rw [hrun, hf₂, ← List.head?_append]
      rfl
    · rw [hrun]
      show s₃.log ++ [(s₃.now, Entry.reached .afterFired)] = _
      rw [hl₂, hl₁]
      show ((s.log ++ [(s.now, Entry.reached .eventFired)] ++ h₁.journal scope.event) ++
        h₂.journal following) ++ _ = _
      simp only [Course.journal, List.append_assoc, List.cons_append, List.nil_append]
      rfl
    · rw [hrun]
      rfl

/-! ### A run from its beginning to its end -/

/-- What a run writes down. -/
def journal (c : Controller σ) (id : String) (event : Event) (s : Scene (World σ) Entry) : Journal :=
  (c.run id event s).2.log.drop s.log.length

/-- A run that is not broken off. -/
structure Whole where
  project : Project
  /-- What is written down up to the provision of the volume. -/
  opening : Journal
  course : Course
  /-- What is written down after the release of the volume. -/
  closing : Journal

namespace Whole

def journal (w : Whole) (event : Event) : Journal :=
  w.opening ++ (w.course.journal event ++ (w.course.ended, .deed (.release event w.project)) :: w.closing)

/-- The report of the run, where `handled` says whether there was a handler. -/
def report (w : Whole) (handled : Bool) : RunReport where
  exitCode := if w.course.failures.head?.isSome then 1 else 0
  afterFired := handled
  errorFired := w.course.failures.head?.isSome
  errorReason := w.course.failures.head?.map (·.reason)
  stages := stagesOf handled

/-- What is known of a run of an event that is not broken off. -/
structure Of (w : Whole) (bus : Bus Handler) (event : Event) : Prop where
  opening_deeds : w.opening.deeds = [.provision event w.project]
  opening_stages : w.opening.stages = [.idle, .projectLoaded, .storageProvisioned]
  opening_tasks : w.opening.tasks = []
  course : w.course.Of bus event
  closing_deeds : w.closing.deeds = []
  closing_stages : w.closing.stages = [.storageTornDown, .exited]
  closing_tasks : w.closing.tasks = []

end Whole

/-- Errands are noted down as nothing but work. -/
theorem see_log (e : Errand σ α) (s : Scene (World σ) Entry) :
    ∃ j : Journal, (Work.see e s).2.log = s.log ++ j ∧ j.IsWork :=
  ((Steady.see e).quiet s).log

theorem load_log (c : Controller σ) (id : String) (s : Scene (World σ) Entry) :
    ∃ j : Journal, (Work.see (c.load id) (Work.reach .idle s).2).2.log =
      s.log ++ (s.now, .reached .idle) :: j ∧ j.IsWork := by
  obtain ⟨j, hj, hw⟩ := see_log (c.load id) (Work.reach .idle s).2
  exact ⟨j, hj.trans (List.append_assoc s.log [_] j), hw⟩

theorem provision_log (c : Controller σ) (event : Event) (project : Project)
    (s : Scene (World σ) Entry) :
    ∃ j : Journal, (c.provision event project (Work.reach .projectLoaded s).2).2.log =
      s.log ++ (s.now, .reached .projectLoaded) :: (s.now, .deed (.provision event project)) :: j ∧
      j.IsWork := by
  obtain ⟨j, hj, hw⟩ := see_log (c.storage.provision event project)
    (Work.record (.provision event project) (Work.reach .projectLoaded s).2).2
  refine ⟨j, hj.trans ?_, hw⟩
  show (s.log ++ [_] ++ [_]) ++ j = _
  rw [List.append_assoc, List.append_assoc]
  rfl

/-- What is written down while the project is loaded and the volume provisioned. -/
def openingOf (event : Event) (project : Project) (start loaded : Moment) (j₁ j₂ : Journal) : Journal :=
  ((start, .reached .idle) :: j₁) ++
    ((loaded, .reached .projectLoaded) :: (loaded, .deed (.provision event project)) :: j₂)

section openingOf

variable (event : Event) (project : Project) (start loaded : Moment) {j₁ j₂ : Journal}

theorem deeds_openingOf (h₁ : j₁.IsWork) (h₂ : j₂.IsWork) :
    (openingOf event project start loaded j₁ j₂).deeds = [.provision event project] := by
  rw [openingOf, Journal.deeds_append]
  show j₁.deeds ++ .provision event project :: j₂.deeds = _
  rw [h₁.deeds, h₂.deeds]
  rfl

theorem tasks_openingOf (h₁ : j₁.IsWork) (h₂ : j₂.IsWork) :
    (openingOf event project start loaded j₁ j₂).tasks = [] := by
  rw [openingOf, Journal.tasks_append]
  show j₁.tasks ++ j₂.tasks = _
  rw [h₁.tasks, h₂.tasks]
  rfl

theorem stages_openingOf (h₁ : j₁.IsWork) (h₂ : j₂.IsWork) :
    (openingOf event project start loaded j₁ j₂).stages = [.idle, .projectLoaded] := by
  rw [openingOf, Journal.stages_append]
  show (Stage.idle :: j₁.stages) ++ (Stage.projectLoaded :: j₂.stages) = _
  rw [h₁.stages, h₂.stages]
  rfl

end openingOf

theorem release_log (c : Controller σ) (event : Event) (project : Project)
    (s : Scene (World σ) Entry) :
    ∃ j : Journal, (c.release event project s).2.log =
      s.log ++ (s.now, .deed (.release event project)) :: j ∧ j.IsWork := by
  obtain ⟨j, hj, hw⟩ := see_log (c.storage.release event project)
    (Work.record (.release event project) s).2
  exact ⟨j, hj.trans (List.append_assoc s.log [_] j), hw⟩

/-- A run step by step, as far as it comes. -/
theorem run_eq (c : Controller σ) (id : String) (event : Event) (s : Scene (World σ) Entry) :
    c.run id event s =
      match Work.see (c.load id) (Work.reach .idle s).2 with
      | (.error e, s₁) => (.error (.projectLoad id e), s₁)
      | (.ok project, s₁) =>
        match c.provision event project (Work.reach .projectLoaded s₁).2 with
        | (.error e, s₂) => (.error (.storageProvision event.runId e), s₂)
        | (.ok (), s₂) =>
          let ran := c.runHandlers { event, project } (Work.reach .storageProvisioned s₂).2
          let handled := c.bus.handles event.key
          (.ok {
            exitCode := if ran.1.isSome then 1 else 0
            afterFired := handled
            errorFired := ran.1.isSome
            errorReason := ran.1.map (·.reason)
            stages := stagesOf handled },
          (Work.reach .exited (Work.reach .storageTornDown (c.release event project ran.2).2).2).2) := by
  simp only [run, bind, StateT.bind]
  rcases Work.reach .idle s with ⟨⟨⟩, s₀⟩
  dsimp only
  rcases Work.see (c.load id) s₀ with ⟨e | project, s₁⟩
  · rfl
  · simp only [bind, StateT.bind]
    rcases Work.reach .projectLoaded s₁ with ⟨⟨⟩, t₁⟩
    dsimp only
    rcases c.provision event project t₁ with ⟨e | ⟨⟩, s₂⟩
    · rfl
    · rfl

theorem journal_eq {c : Controller σ} {id : String} {event : Event} {s : Scene (World σ) Entry}
    {j : Journal} (h : (c.run id event s).2.log = s.log ++ j) : c.journal id event s = j := by
  rw [journal, h, List.drop_left]

/-- From the parts of a run that is not broken off what is known of it as a whole. -/
theorem Whole.of_parts {bus : Bus Handler} {event : Event} {project : Project} {k : Course}
    {j₁ j₂ j₃ : Journal} (hk : k.Of bus event) (h₁ : j₁.IsWork) (h₂ : j₂.IsWork) (h₃ : j₃.IsWork)
    (start loaded provisioned released : Moment) :
    Whole.Of {
      project
      opening := openingOf event project start loaded j₁ j₂ ++
        [(provisioned, .reached .storageProvisioned)]
      course := k
      closing := j₃ ++ [(released, .reached .storageTornDown), (released, .reached .exited)] }
      bus event where
  opening_deeds := by
    rw [Journal.deeds_append, deeds_openingOf event project _ _ h₁ h₂]
    rfl
  opening_stages := by
    rw [Journal.stages_append, stages_openingOf event project _ _ h₁ h₂]
    rfl
  opening_tasks := by
    rw [Journal.tasks_append, tasks_openingOf event project _ _ h₁ h₂]
    rfl
  course := hk
  closing_deeds := by
    rw [Journal.deeds_append, h₃.deeds]
    rfl
  closing_stages := by
    rw [Journal.stages_append, h₃.stages]
    rfl
  closing_tasks := by
    rw [Journal.tasks_append, h₃.tasks]
    rfl

/-- What is left of a run once the volume is there. -/
theorem rest_spec (c : Controller σ) (event : Event) (project : Project)
    (s : Scene (World σ) Entry) :
    ∃ (k : Course) (j : Journal) (released : Moment), k.Of c.bus event ∧ j.IsWork ∧
      (c.runHandlers { event, project } s).1 = k.failures.head? ∧
      (Work.reach .exited (Work.reach .storageTornDown
        (c.release event project (c.runHandlers { event, project } s).2).2).2).2.log =
        s.log ++ (k.journal event ++ (k.ended, .deed (.release event project)) ::
          (j ++ [(released, .reached .storageTornDown), (released, .reached .exited)])) := by
  obtain ⟨k, hk, hfirst, hl, hended⟩ := c.runHandlers_spec { event, project } s
  let t := (c.runHandlers { event, project } s).2
  obtain ⟨j, hj, hw⟩ := c.release_log event project t
  refine ⟨k, j, (c.release event project t).2.now, hk, hw, hfirst, ?_⟩
  show (c.release event project t).2.log ++ [_] ++ [_] = _
  rw [hj, hended, hl]
  simp only [List.append_assoc, List.cons_append, List.nil_append]
  rfl

/-- **A run is whole, or it is broken off** before any event is fired. -/
theorem run_spec (c : Controller σ) (id : String) (event : Event) (s : Scene (World σ) Entry) :
    match (c.run id event s).1 with
    | .ok report => ∃ w : Whole, w.Of c.bus event ∧ c.journal id event s = w.journal event ∧
        report = w.report (c.bus.handles event.key)
    | .error _ => (c.journal id event s).tasks = [] ∧
        ∀ d ∈ (c.journal id event s).deeds, ∃ project, d = .provision event project := by
  obtain ⟨j₁, hl₁, hw₁⟩ := c.load_log id s
  rcases hload : Work.see (c.load id) (Work.reach .idle s).2 with ⟨e | project, s₁⟩
  · have hrun : c.run id event s = (.error (.projectLoad id e), s₁) := by
      rw [run_eq, hload]
    rw [hload] at hl₁
    rw [journal_eq ((congrArg (·.2.log) hrun).trans hl₁), hrun]
    refine ⟨hw₁.tasks, fun d hd => ?_⟩
    change d ∈ j₁.deeds at hd
    rw [hw₁.deeds] at hd
    exact absurd hd List.not_mem_nil
  · obtain ⟨j₂, hl₂, hw₂⟩ := c.provision_log event project s₁
    let opening := openingOf event project s.now s₁.now j₁ j₂
    rw [hload] at hl₁
    rw [hl₁, List.append_assoc] at hl₂
    change _ = s.log ++ opening at hl₂
    rcases hprovision : c.provision event project (Work.reach .projectLoaded s₁).2 with ⟨e | ⟨⟩, s₂⟩
    all_goals rw [hprovision] at hl₂
    · have hrun : c.run id event s = (.error (.storageProvision event.runId e), s₂) := by
        rw [run_eq, hload]
        dsimp only
        rw [hprovision]
      rw [journal_eq ((congrArg (·.2.log) hrun).trans hl₂), hrun]
      refine ⟨tasks_openingOf event project _ _ hw₁ hw₂, fun d hd => ⟨project, ?_⟩⟩
      rw [deeds_openingOf event project _ _ hw₁ hw₂] at hd
      exact List.mem_singleton.1 hd
    · let t := (Work.reach .storageProvisioned s₂).2
      obtain ⟨k, j₃, released, hk, hw₃, hfirst, hl₃⟩ := c.rest_spec event project t
      let w : Whole := {
        project
        opening := opening ++ [(s₂.now, .reached .storageProvisioned)]
        course := k
        closing := j₃ ++ [(released, .reached .storageTornDown), (released, .reached .exited)] }
      have hrun : c.run id event s = (.ok (w.report (c.bus.handles event.key)),
          (Work.reach .exited (Work.reach .storageTornDown
            (c.release event project (c.runHandlers { event, project } t).2).2).2).2) := by
        rw [run_eq, hload]
        dsimp only
        rw [hprovision]
        dsimp only
        rw [hfirst]
        rfl
      have hlog : t.log = s.log ++ w.opening := by
        show s₂.log ++ [_] = _
        rw [hl₂, List.append_assoc]
      rw [hlog, List.append_assoc] at hl₃
      rw [journal_eq ((congrArg (·.2.log) hrun).trans hl₃), hrun]
      exact ⟨w, Whole.of_parts hk hw₁ hw₂ hw₃ s.now s₁.now s₂.now released, rfl, rfl⟩

end Controller

end EventWorker
