import EventWorker.Proofs.Run.Tasks

/-!
# The forest of tasks

What is set off in the background is a forest: a task may set off others while it goes on, and these may
set off more. Which tasks there are, when each of them begins and ends and what it comes to can be read off
the actions and the scene in which they are taken (`Action.setOff`); how the tasks are kept in the meantime
does not come into it.

Main statement: `Action.passes_performAll`. What actions set off is what is written down and kept of them.
-/

namespace EventWorker

open Activity

variable {σ : Type}

/-- There is a reason exactly if there has been a fault. -/
theorem Fault.isSome_reason?_iff {who : String} {outcome : Except Fault Unit} :
    (Fault.reason? who outcome).isSome ↔ ∃ f, outcome = .error f := by
  cases outcome with
  | ok _ => simp [Fault.reason?]
  | error f => simp [Fault.reason?]

/-! ### Branches -/

/-- Work that has been set off, and what it has come to. -/
structure Branch where
  begun : Moment
  finished : Moment
  outcome : Except Fault Unit

namespace Branch

/-- The task that is kept of it. -/
def task (b : Branch) : Task :=
  ⟨b.begun, b.finished, Fault.reason? "background task" b.outcome⟩

/-- It has failed or broken down. -/
def Failed (b : Branch) : Prop :=
  ∃ f, b.outcome = .error f

instance (b : Branch) : Decidable b.Failed :=
  decidable_of_iff (b.task.failure.isSome = true) Fault.isSome_reason?_iff

theorem isSome_failure_task {b : Branch} : b.task.failure.isSome ↔ b.Failed :=
  Fault.isSome_reason?_iff

end Branch

/-! ### What actions set off -/

namespace Action

mutual

/-- What is set off when an action is taken, what is set off by other work before that work itself. -/
def setOff (c : Surroundings σ) : Action → Scene (World σ) Entry → List Branch
  | spawn work, s =>
    let ended := performAll c work { s with now := s.now.next }
    setOffAll c work { s with now := s.now.next } ++ [⟨s.now, ended.2.now, ended.1⟩]
  | _, _ => []

/-- What is set off when actions are taken, up to the first that fails. -/
def setOffAll (c : Surroundings σ) : List Action → Scene (World σ) Entry → List Branch
  | [], _ => []
  | a :: rest, s =>
    setOff c a s ++
      match perform c a s with
      | (.ok (), t) => setOffAll c rest t
      | (.error _, _) => []

end

variable (c : Surroundings σ)

theorem setOff_of_ne_spawn {a : Action} (h : ∀ work, a ≠ spawn work) (s : Scene (World σ) Entry) :
    setOff c a s = [] := by
  rw [setOff]
  exact h

variable {c} in
theorem performAll_of_ok {a : Action} {s t : Scene (World σ) Entry} (h : perform c a s = (.ok (), t))
    (rest : List Action) : performAll c (a :: rest) s = performAll c rest t := by
  rw [performAll]
  simp only [bind, StateT.bind, h]

variable {c} in
theorem performAll_of_error {a : Action} {f : Fault} {s t : Scene (World σ) Entry}
    (h : perform c a s = (.error f, t)) (rest : List Action) :
    performAll c (a :: rest) s = (.error f, t) := by
  rw [performAll]
  simp only [bind, StateT.bind, h]
  rfl

theorem tasks_log_of_ne_spawn {a : Action} (h : ∀ work, a ≠ spawn work) (s : Scene (World σ) Entry) :
    Journal.tasks (perform c a s).2.log = Journal.tasks s.log ++ (setOff c a s).map Branch.task := by
  obtain ⟨j, hlog, hj⟩ := ((steady_perform c h).quiet s).log
  rw [hlog, Journal.tasks_append, hj.tasks, setOff_of_ne_spawn c h]
  rfl

mutual

theorem tasks_log_perform : (a : Action) → (s : Scene (World σ) Entry) →
    Journal.tasks (perform c a s).2.log = Journal.tasks s.log ++ (setOff c a s).map Branch.task
  | spawn work, s => by
    let ended := performAll c work { s with now := s.now.next }
    have hwork : Journal.tasks ended.2.log = _ := tasks_log_performAll work { s with now := s.now.next }
    have hlog : (perform c (.spawn work) s).2.log = ended.2.log ++ [(s.now, .setOff
        ⟨s.now, ended.2.now, Fault.reason? "background task" ended.1⟩)] := by
      rw [perform]
      rfl
    rw [hlog, Journal.tasks_append, hwork, setOff, List.map_append, List.append_assoc]
    rfl
  | sleep _, s => tasks_log_of_ne_spawn c (fun _ h => by cases h) s
  | note _, s => tasks_log_of_ne_spawn c (fun _ h => by cases h) s
  | noteEvent, s => tasks_log_of_ne_spawn c (fun _ h => by cases h) s
  | noteScope, s => tasks_log_of_ne_spawn c (fun _ h => by cases h) s
  | fail _, s => tasks_log_of_ne_spawn c (fun _ h => by cases h) s
  | panic _, s => tasks_log_of_ne_spawn c (fun _ h => by cases h) s
  | job _ _, s => tasks_log_of_ne_spawn c (fun _ h => by cases h) s
  | step _, s => tasks_log_of_ne_spawn c (fun _ h => by cases h) s

/-- The tasks that are noted down are those of the forest. -/
theorem tasks_log_performAll : (actions : List Action) → (s : Scene (World σ) Entry) →
    Journal.tasks (performAll c actions s).2.log =
      Journal.tasks s.log ++ (setOffAll c actions s).map Branch.task
  | [], s => by
    rw [performAll, setOffAll, List.map_nil, List.append_nil]
    rfl
  | a :: rest, s => by
    have ha := tasks_log_perform a s
    rw [setOffAll, List.map_append]
    rcases hperform : perform c a s with ⟨f | _, t⟩
    · rw [hperform] at ha
      rw [performAll_of_error hperform rest, ha, List.map_nil, List.append_nil]
    · rw [hperform] at ha
      rw [performAll_of_ok hperform rest, tasks_log_performAll rest t, ha, List.append_assoc]

end

/-- **What actions set off is added to the tasks that are pending**, and nothing else is. Deeds and stages
are left to the controller. -/
theorem passes_performAll (actions : List Action) (s : Scene (World σ) Entry) :
    ∃ j, Passes s (performAll c actions s).2 j ∧ j.tasks = (setOffAll c actions s).map Branch.task ∧
      j.deeds = [] ∧ j.stages = [] := by
  obtain ⟨j, hj, hdeeds, hstages⟩ := busy_performAll c actions s
  refine ⟨j, hj, ?_, hdeeds, hstages⟩
  have htasks := tasks_log_performAll c actions s
  rw [hj.log, Journal.tasks_append] at htasks
  exact List.append_cancel_left htasks

end Action

end EventWorker
