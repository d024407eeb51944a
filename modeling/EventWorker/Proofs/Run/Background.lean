import Mathlib.Data.List.Perm.Basic
import Mathlib.Data.List.TakeWhile
import EventWorker.Proofs.Run.Forest
import EventWorker.Proofs.Run.Joining

/-!
# No task is lost

Actions set off a forest of tasks (`Action.setOffAll`). Actions may be taken several times, and tasks waited
for in between (`Round`). All that is still to be waited for then is what has been set off since the last
time, and waiting for it leaves none of it out and takes none of it twice, in whatever order the tasks end.

The tasks may also be waited for in batches: those that have been set off by now, one after another, then
those that have been set off in the meantime, until there are no more. This comes to the same
(`joinBatches_eq`), since tasks that begin while a batch is waited for begin after all that are in it.

Main statement: `joinTasks_joins`.
-/

namespace EventWorker

open Activity

variable {σ α : Type}

/-! ### Rounds -/

/-- What may happen to the tasks of a run. -/
inductive Round (σ : Type) where
  /-- Actions are taken. -/
  | act (c : Surroundings σ) (actions : List Action)
  /-- All tasks are waited for. -/
  | join

namespace Round

/-- What has become of a run: the scene, and the tasks that have been set off since tasks were last waited
for. -/
structure Stand (σ : Type) where
  scene : Scene (World σ) Entry
  left : List Branch

def play (x : Stand σ) : Round σ → Stand σ
  | act c actions =>
    ⟨(Action.performAll c actions x.scene).2, x.left ++ Action.setOffAll c actions x.scene⟩
  | join => ⟨(joinTasks x.scene).2, []⟩

/-- Rounds one after another, where no task has been set off before. -/
def course (s : Scene (World σ) Entry) (rounds : List (Round σ)) : Stand σ :=
  rounds.foldl play ⟨{ s with world := { s.world with tasks := [] } }, []⟩

/-- The tasks that are pending are those that have been set off since. -/
structure Stand.Sound (x : Stand σ) : Prop where
  pending : Pending x.scene.now x.scene.world.tasks
  tasks : x.scene.world.tasks = addTasks [] (x.left.map Branch.task)

theorem sound_play {x : Stand σ} (h : x.Sound) : (r : Round σ) → (play x r).Sound
  | act c actions => by
    obtain ⟨j, hj, htasks, -⟩ := Action.passes_performAll c actions x.scene
    refine ⟨hj.pending h.pending, ?_⟩
    show (Action.performAll c actions x.scene).2.world.tasks = _
    rw [hj.tasks, h.tasks, htasks, ← addTasks_append, ← List.map_append]
    rfl
  | join => by
    obtain ⟨later, hjoin, -, -⟩ := joinTasks_eq x.scene h.pending
    have hplay : (play x join).scene =
        { x.scene with now := later, world := { x.scene.world with tasks := [] } } :=
      congrArg Prod.snd hjoin
    refine ⟨?_, ?_⟩ <;> rw [hplay]
    · exact .nil later
    · rfl

theorem sound_course (s : Scene (World σ) Entry) (rounds : List (Round σ)) : (course s rounds).Sound :=
  List.foldlRecOn rounds play ⟨.nil _, rfl⟩ fun _ h r _ => sound_play h r

end Round

/-! ### Batches -/

/-- The tasks that have been set off by now, taken from the list. -/
def takeBatch : Work σ (List Task) := do
  let now ← now
  act fun w => (w.tasks.takeWhile (·.begun.le now),
    { w with tasks := w.tasks.dropWhile (·.begun.le now) })

/-- Waits for tasks one after another. -/
def waitForEach : List Task → Work σ Unit
  | [] => return ()
  | t :: rest => do
    waitFor t.finished
    waitForEach rest

/-- Waits for at most `bound` batches, and gives the tasks of those that it has waited for. -/
def joinBatches : (bound : Nat) → Work σ (List Task)
  | 0 => return []
  | bound + 1 => do
    match ← takeBatch with
    | [] => return []
    | t :: rest =>
      waitForEach (t :: rest)
      let others ← joinBatches bound
      return (t :: rest) ++ others

/-- A batch is what stands in front of the list; it is empty only if no task is pending. -/
theorem takeBatch_eq {s : Scene (World σ) Entry} (h : Pending s.now s.world.tasks) :
    ∃ batch rest, takeBatch s = (batch, { s with world := { s.world with tasks := rest } }) ∧
      s.world.tasks = batch ++ rest ∧ (∀ t ∈ batch, t.begun.le s.now) ∧
      (batch = [] → s.world.tasks = []) := by
  refine ⟨s.world.tasks.takeWhile (·.begun.le s.now), s.world.tasks.dropWhile (·.begun.le s.now), rfl,
    List.takeWhile_append_dropWhile.symm, fun t ht => List.mem_takeWhile_imp (x := t) ht, fun hnil => ?_⟩
  cases htasks : s.world.tasks with
  | nil => rfl
  | cons t rest =>
    rw [htasks] at h hnil
    rw [List.takeWhile_cons, if_pos h.head] at hnil
    cases hnil

/-- After a batch it is no earlier than before, nor than the end of any task in it. -/
theorem waitForEach_eq (batch : List Task) : ∀ s : Scene (World σ) Entry,
    ∃ later, waitForEach batch s = ((), { s with now := later }) ∧ s.now.le later ∧
      ∀ t ∈ batch, t.finished.le later := by
  induction batch with
  | nil => exact fun s => ⟨s.now, rfl, s.now.le_refl, fun _ ht => absurd ht List.not_mem_nil⟩
  | cons t batch ih =>
    intro s
    obtain ⟨m, hm, hsm, htm⟩ := waitFor_eq t.finished s
    obtain ⟨later, hlater, hml, hbatch⟩ := ih { s with now := m }
    have hall : ∀ u ∈ t :: batch, u.finished.le later :=
      List.forall_mem_cons.2 ⟨Moment.le_trans htm hml, hbatch⟩
    refine ⟨later, ?_, Moment.le_trans hsm hml, hall⟩
    rw [waitForEach]
    simp only [bind, StateT.bind, hm]
    exact hlater

theorem Pending.drop {now later : Moment} {batch rest : List Task} (h : Pending now (batch ++ rest))
    (hnow : now.le later) (hbatch : ∀ t ∈ batch, t.finished.le later) : Pending later rest := by
  induction batch generalizing now with
  | nil =>
    refine ⟨h.inOrder, fun t ht => (h.reachable t ht).imp_left fun hb => Moment.le_trans hb hnow⟩
  | cons t batch ih =>
    obtain ⟨ht, hbatch⟩ := List.forall_mem_cons.1 hbatch
    exact ih (h.tail hnow ht) later.le_refl hbatch

/-- Taking the tasks of a batch one after another is the same as taking them all at first: nobody else takes
any. -/
theorem joinWithin_batch (bound : Nat) (batch rest : List Task) : ∀ s waited : Scene (World σ) Entry,
    s.world.tasks = batch ++ rest → (∀ t ∈ batch, t.begun.le s.now) →
      waitForEach batch { s with world := { s.world with tasks := rest } } = ((), waited) →
      joinWithin (batch.length + bound) s =
        (batch ++ (joinWithin bound waited).1, (joinWithin bound waited).2) := by
  induction batch with
  | nil =>
    intro s waited hs _ hwaited
    obtain rfl : { s with world := { s.world with tasks := rest } } = waited :=
      congrArg Prod.snd hwaited
    rw [List.length_nil, Nat.zero_add, ← show s.world.tasks = rest from hs]
    rfl
  | cons t batch ih =>
    intro s waited hs hbegun hwaited
    obtain ⟨ht, hbegun⟩ := List.forall_mem_cons.1 hbegun
    have htake : s.world.tasks = t :: (batch ++ rest) := hs
    obtain ⟨m, hm, hsm, -⟩ := waitFor_eq t.finished s
    have hnow : m = if t.finished.le s.now then s.now else t.finished.next := by
      rw [waitFor_apply] at hm
      exact (congrArg (·.2.now) hm).symm
    rw [waitForEach] at hwaited
    simp only [bind, StateT.bind, waitFor_apply, ← hnow] at hwaited
    rw [List.length_cons, Nat.add_right_comm, joinWithin_succ _ htake ht, waitFor_apply, ← hnow]
    dsimp only
    rw [ih { s with now := m, world := { s.world with tasks := batch ++ rest } } waited rfl
      (fun u hu => Moment.le_trans (hbegun u hu) hsm) hwaited]
    rfl

/-- **It makes no difference to wait in batches.** There are no more of them than tasks. -/
theorem joinBatches_eq (bound : Nat) : ∀ s : Scene (World σ) Entry, Pending s.now s.world.tasks →
    s.world.tasks.length ≤ bound → joinBatches bound s = joinTasks s := by
  induction bound with
  | zero =>
    intro s _ hbound
    show ([], s) = joinWithin s.world.tasks.length s
    rw [Nat.le_zero.1 hbound]
    rfl
  | succ bound ih =>
    intro s hpending hbound
    obtain ⟨batch, rest, htake, hsplit, hbegun, hempty⟩ := takeBatch_eq hpending
    show joinBatches (bound + 1) s = joinWithin s.world.tasks.length s
    rw [joinBatches]
    simp only [bind, StateT.bind, htake]
    cases batch with
    | nil =>
      have hrest : s.world.tasks = rest := hsplit
      rw [hempty rfl, ← hrest]
      rfl
    | cons t batch =>
      let left : Scene (World σ) Entry := { s with world := { s.world with tasks := rest } }
      obtain ⟨later, hwait, hforward, hended⟩ := waitForEach_eq (t :: batch) left
      have hafter : Pending later rest := by
        rw [hsplit] at hpending
        exact hpending.drop hforward hended
      have hlength : rest.length ≤ bound := by
        rw [hsplit, List.length_append, List.length_cons] at hbound
        omega
      have hothers := ih { left with now := later } hafter hlength
      rw [hsplit, List.length_append, joinWithin_batch rest.length (t :: batch) rest s _ hsplit hbegun hwait]
      show StateT.bind (waitForEach (t :: batch)) _ left = _
      simp only [StateT.bind, bind, hwait, hothers]
      rfl

/-! ### Everything together -/

/-- There is one message for each branch that has failed or broken down, in the order of the branches. -/
theorem forall₂_failures (branches : List Branch) :
    List.Forall₂ (fun text b => ∃ f, b.outcome = .error f ∧ text = f.reason "background task")
      (Task.failures (branches.map Branch.task)) (branches.filter (·.Failed)) := by
  induction branches with
  | nil => exact .nil
  | cons b branches ih =>
    show List.Forall₂ _ ((b.task :: branches.map Branch.task).filterMap (·.failure)) _
    rcases houtcome : b.outcome with f | ⟨⟩
    · have hfailure : b.task.failure = some (f.reason "background task") :=
        congrArg (Fault.reason? _) houtcome
      have hb : b.Failed := ⟨f, houtcome⟩
      rw [List.filterMap_cons_some hfailure, List.filter_cons_of_pos (by simpa using hb)]
      exact .cons ⟨f, houtcome, rfl⟩ ih
    · have hfailure : b.task.failure = none :=
        congrArg (Fault.reason? _) houtcome
      have hb : ¬ b.Failed := by
        rw [← Branch.isSome_failure_task, hfailure]
        exact Bool.false_ne_true
      rw [List.filterMap_cons_none hfailure, List.filter_cons_of_neg (by simpa using hb)]
      exact ih

/-- Tasks that are kept of some branches are those of the branches in some order. -/
theorem Arranged.exists_branches {branches : List Branch} {tasks : List Task}
    (h : Arranged (branches.map Branch.task) tasks) :
    ∃ joined : List Branch, tasks = joined.map Branch.task ∧ joined.Perm branches :=
  (congrFun₂ (List.eq_map_comp_perm Branch.task) tasks branches).mpr h.perm

/-- **Waiting for the tasks loses none and takes none twice.** Whatever has been done in a run so far, and
however often tasks have been waited for, waiting for them once more gives the tasks of the forest that have
been set off since, in the order in which they began and not in that in which they end; those that are only
set off meanwhile are among them. All are done by then, and apart from the time nothing has changed but that
no task is pending any more. There is one message for each of them that has failed or broken down, in the
same order. Waiting in batches comes to the same, and waiting again gives nothing. -/
theorem joinTasks_joins (s : Scene (World σ) Entry) (rounds : List (Round σ)) :
    let x := Round.course s rounds
    ∃ (joined : List Branch) (later : Moment),
      joinTasks x.scene = (joined.map Branch.task,
        { x.scene with now := later, world := { x.scene.world with tasks := [] } }) ∧
      joined.Perm x.left ∧ Arranged (x.left.map Branch.task) (joined.map Branch.task) ∧
      x.scene.now.le later ∧ (∀ b ∈ x.left, b.begun.le later ∧ b.finished.le later) ∧
      List.Forall₂ (fun text b => ∃ f, b.outcome = .error f ∧ text = f.reason "background task")
        (Task.failures (joined.map Branch.task)) (joined.filter (·.Failed)) ∧
      (∀ more, joinBatches (x.left.length + more) x.scene = joinTasks x.scene) ∧
      joinTasks (joinTasks x.scene).2 = ([], (joinTasks x.scene).2) := by
  intro x
  have hsound : x.Sound := Round.sound_course s rounds
  obtain ⟨later, hjoin, hlater, hended⟩ := joinTasks_eq x.scene hsound.pending
  have harranged : Arranged (x.left.map Branch.task) x.scene.world.tasks := by
    rw [hsound.tasks]
    exact arranged_addTasks _
  obtain ⟨joined, hjoined, hperm⟩ := harranged.exists_branches
  rw [hjoined] at harranged hjoin hended
  refine ⟨joined, later, hjoin, hperm, harranged, hlater,
    fun b hb => hended b.task (List.mem_map_of_mem (hperm.mem_iff.2 hb)), forall₂_failures joined,
    fun more => ?_, ?_⟩
  · refine joinBatches_eq _ x.scene hsound.pending ?_
    rw [hjoined, List.length_map, hperm.length_eq]
    exact Nat.le_add_right _ more
  · rw [hjoin]
    rfl

/-- A task that ends late and sets off another one, and a task that breaks down at once. -/
example (c : Surroundings σ) (seen : Seen σ) :
    let x := Round.course { world := { seen } } [.act c
      [.spawn [.sleep 5, .spawn [.fail ["nested"]], .fail ["late"]], .spawn [.panic (some "boom")]]]
    Task.failures (joinTasks x.scene).1 = ["late", "background task panicked: boom", "nested"] := by
  cbv

end EventWorker
