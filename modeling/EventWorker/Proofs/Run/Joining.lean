import EventWorker.Proofs.Run.Whenever

/-!
# Which tasks are waited for

The tasks that are waited for are those that have been set off since tasks were last waited for
(`Journal.unjoined`), in the order in which they began (`Arranged`). What is set off after that, by the
error handler that one of their failures calls, is left for the next time, if there is one.

Main statement: `run_joins`.
-/

namespace EventWorker

variable {bus : Bus Handler} {event e : Event} {first : Option Failure} {left : List Task}

/-! ### Tasks not waited for yet -/

/-- The tasks that have been waited for. -/
def Deed.joined? : Deed → Option (List Task)
  | join tasks => some tasks
  | _ => none

theorem Deed.joined?_of_isReaction {d : Deed} (h : d.isReaction event) : d.joined? = none := by
  cases d <;> first | rfl | exact absurd h Bool.false_ne_true

/-- What an entry makes of the tasks that are still to be waited for. -/
def Entry.leave (left : List Task) : Entry → List Task
  | setOff t => left ++ [t]
  | deed (.join _) => []
  | _ => left

namespace Journal

/-- The tasks that have been set off since tasks were last waited for. -/
def unjoined (j : Journal) : List Task :=
  j.foldl (fun left x => x.2.leave left) []

theorem foldl_leave {j : Journal} (hj : ∀ d ∈ j.deeds, d.joined? = none) (left : List Task) :
    j.foldl (fun left x => x.2.leave left) left = left ++ j.tasks := by
  induction j generalizing left with
  | nil => exact (List.append_nil left).symm
  | cons x j ih =>
    obtain ⟨m, x⟩ := x
    cases x with
    | setOff t =>
      show j.foldl _ (left ++ [t]) = left ++ ([t] ++ tasks j)
      rw [ih hj, List.append_assoc]
    | deed d =>
      have hrest : ∀ d' ∈ deeds j, d'.joined? = none :=
        fun d' hd' => hj d' (List.mem_cons_of_mem d hd')
      have hleave : (Entry.deed d).leave left = left := by
        have hd := hj d List.mem_cons_self
        cases d <;> first | rfl | exact absurd hd (Option.some_ne_none _)
      show j.foldl _ ((Entry.deed d).leave left) = _
      rw [hleave, ih hrest]
      rfl
    | progress p => exact ih hj left
    | operation text => exact ih hj left
    | reached stage => exact ih hj left
    | remark r => exact ih hj left

theorem unjoined_append (i : Journal) {j : Journal} (hj : ∀ d ∈ j.deeds, d.joined? = none) :
    (i ++ j).unjoined = i.unjoined ++ j.tasks := by
  rw [unjoined, List.foldl_append, foldl_leave hj]
  rfl

theorem unjoined_join (i : Journal) (m : Moment) (tasks : List Task) {j : Journal}
    (hj : ∀ d ∈ j.deeds, d.joined? = none) :
    (i ++ (m, .deed (.join tasks)) :: j).unjoined = j.tasks := by
  rw [unjoined, List.foldl_append, List.foldl_cons, foldl_leave hj]
  rfl

end Journal

/-! ### Order -/

/-- Tasks in the order in which they began, of the same moment in the order in which they were set
off. -/
structure Arranged (tasks arranged : List Task) : Prop where
  perm : arranged.Perm tasks
  inOrder : InOrder arranged
  stable : ∀ m, arranged.filter (·.begun = m) = tasks.filter (·.begun = m)

theorem arranged_addTasks (tasks : List Task) : Arranged tasks (addTasks [] tasks) where
  perm := addTasks_perm [] tasks
  inOrder := inOrder_addTasks List.Pairwise.nil tasks
  stable m := filter_addTasks m List.Pairwise.nil tasks

namespace Controller

theorem Handling.Of.unjoined_before {h : Handling} (ho : h.Of bus event first e left) (i : Journal) :
    (i ++ (h.fired, .deed (.fire e)) :: h.before).unjoined = i.unjoined ++ h.before.tasks := by
  refine Journal.unjoined_append i fun d hd => ?_
  rcases List.mem_cons.1 hd with rfl | hd
  · rfl
  · exact Deed.joined?_of_isReaction (ho.isReaction_before d hd)

theorem Handling.Of.unjoined_journal {h : Handling} (ho : h.Of bus event first e left) (i : Journal) :
    (i ++ h.journal e).unjoined = h.after.tasks := by
  have hafter : ∀ d ∈ h.after.deeds, d.joined? = none :=
    fun d hd => Deed.joined?_of_isReaction (ho.isReaction_after d hd)
  show (i ++ ((h.fired, Entry.deed (.fire e)) ::
    (h.before ++ (h.joined, .deed (.join h.tasks)) :: h.after))).unjoined = _
  rw [← List.cons_append, ← List.append_assoc]
  exact Journal.unjoined_join _ h.joined h.tasks hafter

/-- Before the event is fired no task has been set off. -/
theorem Whole.Of.unjoined_opening {w : Whole} (ho : w.Of bus event) (m : Moment) :
    Journal.unjoined (w.opening ++ [(m, .reached .eventFired)]) = [] := by
  have hopening : ∀ d ∈ w.opening.deeds, d.joined? = none := by
    rw [ho.opening_deeds]
    intro d hd
    rw [List.mem_singleton.1 hd]
    rfl
  have hreached : ∀ d ∈ Journal.deeds [(m, .reached .eventFired)], d.joined? = none :=
    fun d hd => absurd hd List.not_mem_nil
  rw [Journal.unjoined_append w.opening hreached]
  show Journal.unjoined ([] ++ w.opening) ++ [] = []
  rw [Journal.unjoined_append [] hopening, ho.opening_tasks]
  rfl

variable {σ : Type}

/-- **Whenever tasks are waited for**, they are those that have been set off since the last time, in
their order, and all of them are done by then. -/
theorem run_joins (c : Controller σ) (id : String) (event : Event) (s : Scene (World σ) Entry) :
    (c.journal id event s).Whenever fun past m d =>
      ∀ tasks, d = .join tasks → Arranged past.unjoined tasks ∧ ∀ t ∈ tasks, t.finished.le m := by
  have hspec := c.run_spec id event s
  cases hrun : (c.run id event s).1 with
  | ok report =>
    rw [hrun] at hspec
    obtain ⟨w, hw, hj, -⟩ := hspec
    rw [hj]
    have ho := hw.course.primary
    refine hw.whenever (fun _ _ _ hd => Deed.noConfusion hd) ?_ (fun _ hd => Deed.noConfusion hd)
    refine hw.course.whenever ?_ (fun _ _ hd => Deed.noConfusion hd) ?_ fun h hs =>
      ⟨fun _ hd => Deed.noConfusion hd, ?_⟩
    · rintro d hd past m tasks rfl
      exact absurd hd Bool.false_ne_true
    · rintro _ ⟨rfl⟩
      refine ⟨?_, fun t ht => (ho.finished t ht).2⟩
      rw [List.append_cons, ho.unjoined_before, hw.unjoined_opening, ho.tasks]
      exact arranged_addTasks _
    · rintro _ ⟨rfl⟩
      have hh := hw.course.second h hs
      refine ⟨?_, fun t ht => (hh.finished t ht).2⟩
      rw [List.append_cons, ← List.append_assoc, hh.unjoined_before, ho.unjoined_journal, hh.tasks,
        ← addTasks_append]
      exact arranged_addTasks _
  | error e =>
    rw [hrun] at hspec
    refine .of_deeds fun d hd past m tasks hjoin => ?_
    obtain ⟨project, rfl⟩ := hspec.2 d hd
    exact Deed.noConfusion hjoin

end Controller

end EventWorker
