import EventWorker.Proofs.Run.Work
import EventWorker.Run.Handler

/-!
# Tasks set off and waited for

A handler, and every task that it sets off, may set off tasks at any time, so there is a forest of them
to be waited for. What is known of the ones that are still to be waited for is `Pending`: they stand in
the order in which they began, and each of them has been set off by now or by one that began before it
and ends later (`Reachable`). Handlers keep this up (`Passes.pending`). Hence the task at the head has
always been set off by now, and waiting for it leaves a list of the same kind.

* `busy_performAll`: whatever a handler does, the tasks that it sets off are noted in the journal and
  added to those that are pending, and no deed and no stage is noted down.
* `joinTasks_eq`: all tasks that are pending are waited for, in their order, until the last is done.
-/

namespace EventWorker

open Activity

variable {σ α β : Type}

/-! ### Tasks in the order in which they began -/

/-- Tasks in the order in which they began. -/
def InOrder (tasks : List Task) : Prop :=
  tasks.Pairwise fun t u => t.begun.le u.begun

theorem addTask_perm (t : Task) (tasks : List Task) : (addTask t tasks).Perm (t :: tasks) := by
  induction tasks with
  | nil => exact .refl _
  | cons u us ih =>
    rw [addTask]
    split
    · exact (ih.cons u).trans (.swap t u us)
    · exact .refl _

theorem inOrder_addTask (t : Task) {tasks : List Task} (h : InOrder tasks) :
    InOrder (addTask t tasks) := by
  induction tasks with
  | nil => exact List.pairwise_singleton _ t
  | cons u us ih =>
    obtain ⟨hu, hus⟩ := List.pairwise_cons.1 h
    rw [addTask]
    split
    · next hle =>
      refine List.pairwise_cons.2 ⟨fun v hv => ?_, ih hus⟩
      rcases List.mem_cons.1 ((addTask_perm t us).mem_iff.1 hv) with rfl | hv
      · exact hle
      · exact hu v hv
    · next hle =>
      have htu : t.begun.le u.begun := Moment.le_of_not_le hle
      refine List.pairwise_cons.2 ⟨fun v hv => ?_, h⟩
      rcases List.mem_cons.1 hv with rfl | hv
      · exact htu
      · exact Moment.le_trans htu (hu v hv)

/-- Adds tasks one after another. -/
def addTasks (tasks new : List Task) : List Task :=
  new.foldl (fun ts t => addTask t ts) tasks

theorem addTasks_append (tasks new more : List Task) :
    addTasks tasks (new ++ more) = addTasks (addTasks tasks new) more :=
  List.foldl_append

theorem addTasks_perm (tasks new : List Task) : (addTasks tasks new).Perm (tasks ++ new) := by
  induction new generalizing tasks with
  | nil =>
    rw [List.append_nil]
    exact .refl _
  | cons t ts ih =>
    have hstep : (addTask t tasks ++ ts).Perm (tasks ++ t :: ts) :=
      ((addTask_perm t tasks).append_right ts).trans List.perm_middle.symm
    exact (ih (addTask t tasks)).trans hstep

theorem inOrder_addTasks {tasks : List Task} (h : InOrder tasks) (new : List Task) :
    InOrder (addTasks tasks new) := by
  induction new generalizing tasks with
  | nil => exact h
  | cons t ts ih => exact ih (inOrder_addTask t h)

/-- Tasks that began at the same moment stay in the order in which they are added. -/
theorem filter_addTask (m : Moment) (t : Task) {tasks : List Task} (h : InOrder tasks) :
    (addTask t tasks).filter (·.begun = m) = (tasks ++ [t]).filter (·.begun = m) := by
  induction tasks with
  | nil => rfl
  | cons u us ih =>
    obtain ⟨hu, hus⟩ := List.pairwise_cons.1 h
    rw [addTask]
    split
    · rw [List.cons_append, List.filter_cons, List.filter_cons, ih hus]
    · next hle =>
      by_cases ht : t.begun = m
      · -- no task that is already there began at that moment: they all began later than the new one
        have hnone : (u :: us).filter (·.begun = m) = [] := by
          refine List.filter_eq_nil_iff.2 fun v hv hvm => hle ?_
          rw [ht, ← of_decide_eq_true hvm]
          rcases List.mem_cons.1 hv with rfl | hv
          · exact Moment.le_refl _
          · exact hu v hv
        rw [List.filter_append, List.filter_cons, hnone, List.filter_cons]
        rfl
      · rw [List.filter_append, List.filter_cons_of_neg (by simpa using ht),
          List.filter_cons_of_neg (a := t) (by simpa using ht)]
        simp

theorem filter_addTasks (m : Moment) {tasks : List Task} (h : InOrder tasks) (new : List Task) :
    (addTasks tasks new).filter (·.begun = m) = (tasks ++ new).filter (·.begun = m) := by
  induction new generalizing tasks with
  | nil => rw [List.append_nil]; rfl
  | cons t ts ih =>
    have hstep := ih (inOrder_addTask t h)
    rw [List.filter_append, filter_addTask m t h, ← List.filter_append, List.append_assoc] at hstep
    exact hstep

/-! ### Tasks that can be reached from now -/

/-- Each task has been set off by now, or while another one of the tasks was going on. -/
def Reachable (now : Moment) (tasks : List Task) : Prop :=
  ∀ t ∈ tasks, t.begun.le now ∨ ∃ p ∈ tasks, ¬ t.begun.le p.begun ∧ t.begun.le p.finished

theorem Reachable.append {start stop : Moment} {tasks new : List Task} (hle : start.le stop)
    (h : Reachable start tasks) (hnew : Reachable stop new) : Reachable stop (tasks ++ new) := by
  intro t ht
  rcases List.mem_append.1 ht with ht | ht
  · rcases h t ht with hb | ⟨p, hp, hafter, hbefore⟩
    · exact Or.inl (Moment.le_trans hb hle)
    · exact Or.inr ⟨p, List.mem_append_left new hp, hafter, hbefore⟩
  · rcases hnew t ht with hb | ⟨p, hp, hafter, hbefore⟩
    · exact Or.inl hb
    · exact Or.inr ⟨p, List.mem_append_right tasks hp, hafter, hbefore⟩

theorem Reachable.perm {now : Moment} {tasks tasks' : List Task} (h : Reachable now tasks)
    (hp : tasks'.Perm tasks) : Reachable now tasks' := by
  intro t ht
  rcases h t (hp.mem_iff.1 ht) with hb | ⟨p, hmem, hrest⟩
  · exact Or.inl hb
  · exact Or.inr ⟨p, hp.mem_iff.2 hmem, hrest⟩

/-- What is known of the tasks that are still to be waited for. -/
structure Pending (now : Moment) (tasks : List Task) : Prop where
  inOrder : InOrder tasks
  reachable : Reachable now tasks

theorem Pending.nil (now : Moment) : Pending now [] :=
  ⟨List.Pairwise.nil, fun _ ht => absurd ht List.not_mem_nil⟩

/-- Where a task began first, it has been set off by now. -/
theorem Pending.head {now : Moment} {t : Task} {rest : List Task} (h : Pending now (t :: rest)) :
    t.begun.le now := by
  rcases h.reachable t List.mem_cons_self with hb | ⟨p, hp, hafter, -⟩
  · exact hb
  · rcases List.mem_cons.1 hp with rfl | hp
    · exact absurd (Moment.le_refl _) hafter
    · exact absurd ((List.pairwise_cons.1 h.inOrder).1 p hp) hafter

/-- After the end of the first task the others can be reached. -/
theorem Pending.tail {now later : Moment} {t : Task} {rest : List Task}
    (h : Pending now (t :: rest)) (hnow : now.le later) (hfin : t.finished.le later) :
    Pending later rest := by
  refine ⟨(List.pairwise_cons.1 h.inOrder).2, fun u hu => ?_⟩
  rcases h.reachable u (List.mem_cons_of_mem t hu) with hb | ⟨p, hp, hafter, hbefore⟩
  · exact Or.inl (Moment.le_trans hb hnow)
  · rcases List.mem_cons.1 hp with rfl | hp
    · exact Or.inl (Moment.le_trans hbefore hfin)
    · exact Or.inr ⟨p, hp, hafter, hbefore⟩

/-! ### Work that may set off tasks -/

/-- From one scene to another a journal has been written, and the tasks in it have been set off. -/
structure Passes (s t : Scene (World σ) Entry) (j : Journal) : Prop where
  log : t.log = s.log ++ j
  forward : s.now.le t.now
  tasks : t.world.tasks = addTasks s.world.tasks j.tasks
  since : ∀ u ∈ j.tasks, s.now.le u.begun
  reachable : Reachable t.now j.tasks

namespace Passes

variable {s t u : Scene (World σ) Entry} {i j : Journal}

theorem refl (s : Scene (World σ) Entry) : Passes s s [] where
  log := (List.append_nil _).symm
  forward := s.now.le_refl
  tasks := rfl
  since _ hu := absurd hu List.not_mem_nil
  reachable _ hu := absurd hu List.not_mem_nil

theorem trans (hst : Passes s t i) (htu : Passes t u j) : Passes s u (i ++ j) where
  log := by rw [htu.log, hst.log, List.append_assoc]
  forward := Moment.le_trans hst.forward htu.forward
  tasks := by rw [htu.tasks, hst.tasks, Journal.tasks_append, addTasks_append]
  since v hv := by
    rw [Journal.tasks_append] at hv
    rcases List.mem_append.1 hv with hv | hv
    · exact hst.since v hv
    · exact Moment.le_trans hst.forward (htu.since v hv)
  reachable := by
    rw [Journal.tasks_append]
    exact hst.reachable.append htu.forward htu.reachable

/-- A journal without tasks, written while time went on. -/
theorem of_no_tasks (hlog : t.log = s.log ++ j) (hforward : s.now.le t.now)
    (hworld : t.world.tasks = s.world.tasks) (hj : j.tasks = []) : Passes s t j where
  log := hlog
  forward := hforward
  tasks := by
    rw [hj, hworld]
    rfl
  since v hv := by
    rw [hj] at hv
    exact absurd hv List.not_mem_nil
  reachable v hv := by
    rw [hj] at hv
    exact absurd hv List.not_mem_nil

theorem pending (h : Passes s t j) (hs : Pending s.now s.world.tasks) :
    Pending t.now t.world.tasks := by
  rw [h.tasks]
  refine ⟨inOrder_addTasks hs.inOrder j.tasks, ?_⟩
  exact (hs.reachable.append h.forward h.reachable).perm (addTasks_perm s.world.tasks j.tasks)

end Passes

/-- Work as handlers do it: it may set off tasks, and leaves the deeds and stages to the controller. -/
def Busy (a : Work σ α) : Prop :=
  ∀ s : Scene (World σ) Entry, ∃ j : Journal, Passes s (a s).2 j ∧ j.deeds = [] ∧ j.stages = []

namespace Busy

theorem pure (x : α) : Busy (Pure.pure x : Work σ α) :=
  fun s => ⟨[], .refl s, rfl, rfl⟩

theorem bind {a : Work σ α} {f : α → Work σ β} (ha : Busy a) (hf : ∀ x, Busy (f x)) :
    Busy (a >>= f) := by
  intro s
  obtain ⟨i, hi, hid, his⟩ := ha s
  obtain ⟨j, hj, hjd, hjs⟩ := hf (a s).1 (a s).2
  refine ⟨i ++ j, hi.trans hj, ?_, ?_⟩
  · rw [Journal.deeds_append, hid, hjd, List.append_nil]
  · rw [Journal.stages_append, his, hjs, List.append_nil]

theorem of_steady {a : Work σ α} (h : Steady a) : Busy a := by
  intro s
  obtain ⟨j, hlog, hj⟩ := (h.quiet s).log
  exact ⟨j, .of_no_tasks hlog (h.forward s) (h.quiet s).tasks hj.tasks, hj.deeds, hj.stages⟩

end Busy

namespace Action

/-- A task is set off at once and begins in the next turn; what it sets off begins while it goes on. -/
theorem busy_performSpawn {work : Work σ (Except Fault Unit)} (h : Busy work) :
    Busy (performSpawn work) := by
  intro s
  obtain ⟨j, hj, hjd, hjs⟩ := h { s with now := s.now.next }
  let t : Scene (World σ) Entry := (work { s with now := s.now.next }).2
  let task : Task :=
    ⟨s.now, t.now, Fault.reason? "background task" (work { s with now := s.now.next }).1⟩
  have htasks : Journal.tasks (j ++ [(s.now, .setOff task)]) = j.tasks ++ [task] :=
    Journal.tasks_append j _
  refine ⟨j ++ [(s.now, .setOff task)], ⟨?_, s.now.le_refl, ?_, ?_, ?_⟩, ?_, ?_⟩
  · show t.log ++ [(s.now, Entry.setOff task)] = s.log ++ (j ++ [(s.now, .setOff task)])
    rw [show t.log = s.log ++ j from hj.log, List.append_assoc]
  · show addTask task t.world.tasks = _
    rw [htasks, addTasks_append, show t.world.tasks = addTasks s.world.tasks j.tasks from hj.tasks]
    rfl
  · intro u hu
    rw [htasks] at hu
    rcases List.mem_append.1 hu with hu | hu
    · exact Moment.le_trans s.now.le_next (hj.since u hu)
    · rw [List.mem_singleton.1 hu]
      exact s.now.le_refl
  · rw [htasks]
    intro u hu
    rcases List.mem_append.1 hu with hu | hu
    · -- set off by the task itself, unless another one did it
      right
      rcases hj.reachable u hu with hb | ⟨p, hp, hafter, hbefore⟩
      · exact ⟨task, List.mem_append_right _ List.mem_cons_self,
          Moment.not_le_of_next_le (hj.since u hu), hb⟩
      · exact ⟨p, List.mem_append_left _ hp, hafter, hbefore⟩
    · rw [List.mem_singleton.1 hu]
      exact Or.inl s.now.le_refl
  · rw [Journal.deeds_append, hjd]
    rfl
  · rw [Journal.stages_append, hjs]
    rfl

theorem steady_performJob (c : Surroundings σ) (j : Job) (lenient : Bool) :
    Steady (performJob c j lenient) := by
  refine .bind (Job.steady_schedule c.backend c.scope j) fun r => ?_
  obtain ⟨unit, result⟩ := r
  exact .bind (Job.steady_logs c.backend j unit) fun _ => .bind (.remark _) fun _ => .pure _

/-- An action that sets off no task is steady. -/
theorem steady_perform (c : Surroundings σ) {a : Action} (h : ∀ work, a ≠ spawn work) :
    Steady (perform c a) := by
  cases a with
  | sleep millis =>
    rw [perform]
    exact .bind (.sleep millis) fun _ => .pure _
  | note text =>
    rw [perform]
    exact .bind (.remark _) fun _ => .pure _
  | noteEvent =>
    rw [perform]
    exact .bind (.remark _) fun _ => .pure _
  | noteScope =>
    rw [perform]
    exact .bind (.remark _) fun _ => .pure _
  | fail reasons =>
    rw [perform]
    exact .pure _
  | panic text =>
    rw [perform]
    exact .pure _
  | spawn work => exact absurd rfl (h work)
  | job j lenient =>
    rw [perform]
    exact steady_performJob c j lenient
  | step s =>
    rw [perform]
    exact .bind (Step.steady_run (Job.steady_run c.backend c.scope) s) fun _ => .pure _

mutual

theorem busy_perform (c : Surroundings σ) : (a : Action) → Busy (perform c a)
  | spawn work => by
    rw [perform]
    exact busy_performSpawn (busy_performAll c work)
  | sleep _ => .of_steady (steady_perform c nofun)
  | note _ => .of_steady (steady_perform c nofun)
  | noteEvent => .of_steady (steady_perform c nofun)
  | noteScope => .of_steady (steady_perform c nofun)
  | fail _ => .of_steady (steady_perform c nofun)
  | panic _ => .of_steady (steady_perform c nofun)
  | job _ _ => .of_steady (steady_perform c nofun)
  | step _ => .of_steady (steady_perform c nofun)

/-- Whatever actions are taken, it is the work of a handler. -/
theorem busy_performAll (c : Surroundings σ) : (actions : List Action) → Busy (performAll c actions)
  | [] => by
    rw [performAll]
    exact .pure _
  | a :: rest => by
    rw [performAll]
    refine .bind (busy_perform c a) fun result => ?_
    cases result with
    | ok _ => exact busy_performAll c rest
    | error f => exact .pure _

end

end Action

/-! ### Waiting -/

/-- When it is after waiting for a moment depends on nothing but when it was before. -/
theorem waitFor_apply (m : Moment) (s : Scene (World σ) Entry) :
    waitFor m s = ((), { s with now := if m.le s.now then s.now else m.next }) := by
  show (if !m.le s.now then goTo m.next else pure () : Work σ Unit) s = _
  cases m.le s.now <;> rfl

/-- After waiting for a moment it is no earlier than that, nor than before. -/
theorem waitFor_eq (m : Moment) (s : Scene (World σ) Entry) :
    ∃ later, waitFor m s = ((), { s with now := later }) ∧ s.now.le later ∧ m.le later := by
  refine ⟨_, waitFor_apply m s, ?_⟩
  split
  · next h => exact ⟨s.now.le_refl, h⟩
  · next h => exact ⟨Moment.le_trans (Moment.le_of_not_le h) m.le_next, m.le_next⟩

theorem takeTask_cons {s : Scene (World σ) Entry} {t : Task} {rest : List Task}
    (hs : s.world.tasks = t :: rest) (ht : t.begun.le s.now) :
    takeTask s = (some t, { s with world := { s.world with tasks := rest } }) := by
  simp only [takeTask, bind, StateT.bind]
  show (act _ : Work σ (Option Task)) s = _
  simp only [act, modifyGet, MonadStateOf.modifyGet, StateT.modifyGet, hs]
  rw [if_pos ht]
  rfl

/-- Where no task has been set off by now, none is taken. -/
theorem takeTask_of_late {s : Scene (World σ) Entry}
    (h : ∀ t rest, s.world.tasks = t :: rest → ¬ t.begun.le s.now) : takeTask s = (none, s) := by
  simp only [takeTask, bind, StateT.bind]
  show (act _ : Work σ (Option Task)) s = _
  simp only [act, modifyGet, MonadStateOf.modifyGet, StateT.modifyGet]
  cases hs : s.world.tasks with
  | nil => rfl
  | cons t rest =>
    dsimp only
    rw [if_neg (h t rest hs)]
    rfl

/-- The first task is waited for, and then the others. -/
theorem joinWithin_succ (bound : Nat) {s : Scene (World σ) Entry} {t : Task} {rest : List Task}
    (hs : s.world.tasks = t :: rest) (ht : t.begun.le s.now) :
    joinWithin (bound + 1) s =
      let waited := (waitFor t.finished { s with world := { s.world with tasks := rest } }).2
      (t :: (joinWithin bound waited).1, (joinWithin bound waited).2) := by
  simp only [joinWithin, bind, StateT.bind]
  rw [takeTask_cons hs ht]
  rfl

/-- As many tasks as are pending are waited for, each until it is done. -/
theorem joinWithin_eq (tasks : List Task) :
    ∀ s : Scene (World σ) Entry, s.world.tasks = tasks → Pending s.now tasks →
      ∃ later, joinWithin tasks.length s =
          (tasks, { s with now := later, world := { s.world with tasks := [] } }) ∧
        s.now.le later ∧ ∀ t ∈ tasks, t.begun.le later ∧ t.finished.le later := by
  induction tasks with
  | nil =>
    intro s hs _
    refine ⟨s.now, ?_, s.now.le_refl, fun _ ht => absurd ht List.not_mem_nil⟩
    show ([], s) = ([], { s with world := { s.world with tasks := [] } })
    rw [← hs]
  | cons t rest ih =>
    intro s hs hp
    obtain ⟨m, hm, hsm, htm⟩ := waitFor_eq t.finished { s with world := { s.world with tasks := rest } }
    obtain ⟨later, hl, hml, hrest⟩ :=
      ih { s with now := m, world := { s.world with tasks := rest } } rfl (hp.tail hsm htm)
    refine ⟨later, ?_, Moment.le_trans hsm hml, ?_⟩
    · rw [List.length_cons, joinWithin_succ _ hs hp.head, hm]
      dsimp only
      rw [hl]
    · intro u hu
      rcases List.mem_cons.1 hu with rfl | hu
      · exact ⟨Moment.le_trans (Moment.le_trans hp.head hsm) hml, Moment.le_trans htm hml⟩
      · exact hrest u hu

/-- **All pending tasks are waited for**, in the order in which they began, and the run goes on when the
last of them is done. -/
theorem joinTasks_eq (s : Scene (World σ) Entry) (h : Pending s.now s.world.tasks) :
    ∃ later, joinTasks s =
        (s.world.tasks, { s with now := later, world := { s.world with tasks := [] } }) ∧
      s.now.le later ∧ ∀ t ∈ s.world.tasks, t.begun.le later ∧ t.finished.le later :=
  joinWithin_eq s.world.tasks s rfl h

end EventWorker
