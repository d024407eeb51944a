import EventWorker.Run.Job

/-!
# Work of jobs and steps

Whatever a job or a step does, and whatever the backend does for it, the run around it sees little of
that: entries about the work itself are added to the journal, the tasks are left alone, and time does
not go back (`Steady`). The groups of a step begin each member at an earlier moment than the one that
the member before it came to, so for their members it is only the first two that count (`Quiet`); time
goes on again when the group is waited for.

A job has a property if submission and observation have it (`Composes`), and a step if its leaves do and
groups pass it on (`Gathers`).

Main statement: running a step of jobs is steady (`Step.steady_run`).
-/

namespace EventWorker

open Activity

variable {σ α β φ : Type}

/-! ### Entries about the work itself -/

/-- An entry that is neither about the controller nor about a task. -/
structure Entry.IsWork (e : Entry) : Prop where
  stage : e.stage? = none
  task : e.task? = none
  deed : e.deed? = none

namespace Journal

def IsWork (j : Journal) : Prop :=
  ∀ e ∈ j, e.2.IsWork

theorem isWork_append {i j : Journal} (hi : i.IsWork) (hj : j.IsWork) : IsWork (i ++ j) := by
  intro e he
  rcases List.mem_append.1 he with he | he
  · exact hi e he
  · exact hj e he

theorem IsWork.stages {j : Journal} (h : j.IsWork) : j.stages = [] :=
  List.filterMap_eq_nil_iff.2 fun e he => (h e he).stage

theorem IsWork.tasks {j : Journal} (h : j.IsWork) : j.tasks = [] :=
  List.filterMap_eq_nil_iff.2 fun e he => (h e he).task

theorem IsWork.deeds {j : Journal} (h : j.IsWork) : j.deeds = [] :=
  List.filterMap_eq_nil_iff.2 fun e he => (h e he).deed

end Journal

/-! ### Quiet and steady work -/

/-- Between two scenes only work has been noted down, and the tasks are the same. -/
structure Quiet (s t : Scene (World σ) Entry) : Prop where
  tasks : t.world.tasks = s.world.tasks
  log : ∃ j : Journal, t.log = s.log ++ j ∧ j.IsWork

namespace Quiet

variable {s t u : Scene (World σ) Entry}

/-- Moments, and what groups keep for themselves, do not count. -/
theorem of_eq (hworld : t.world = s.world) (hlog : t.log = s.log) : Quiet s t where
  tasks := by rw [hworld]
  log := ⟨[], by rw [hlog, List.append_nil], fun _ he => absurd he List.not_mem_nil⟩

theorem refl (s : Scene (World σ) Entry) : Quiet s s :=
  of_eq rfl rfl

theorem trans (hst : Quiet s t) (htu : Quiet t u) : Quiet s u := by
  obtain ⟨i, hi, hwi⟩ := hst.log
  obtain ⟨j, hj, hwj⟩ := htu.log
  refine ⟨htu.tasks.trans hst.tasks, i ++ j, ?_, Journal.isWork_append hwi hwj⟩
  rw [hj, hi, List.append_assoc]

end Quiet

/-- Work that leaves the tasks alone, notes down nothing but itself, and takes no negative time. -/
structure Steady (a : Work σ α) : Prop where
  quiet : ∀ s : Scene (World σ) Entry, Quiet s (a s).2
  forward : ∀ s : Scene (World σ) Entry, s.now.le (a s).2.now

namespace Steady

theorem pure (x : α) : Steady (Pure.pure x : Work σ α) :=
  ⟨fun s => .refl s, fun s => s.now.le_refl⟩

theorem bind {a : Work σ α} {f : α → Work σ β} (ha : Steady a) (hf : ∀ x, Steady (f x)) :
    Steady (a >>= f) where
  quiet s := (ha.quiet s).trans ((hf (a s).1).quiet (a s).2)
  forward s := Moment.le_trans (ha.forward s) ((hf (a s).1).forward (a s).2)

theorem now : Steady (Activity.now : Work σ Moment) :=
  ⟨fun s => .refl s, fun s => s.now.le_refl⟩

theorem sleep (millis : Nat) : Steady (Activity.sleep millis : Work σ Unit) :=
  ⟨fun _ => .of_eq rfl rfl, fun s => s.now.le_after millis⟩

theorem emit {e : Entry} (he : e.IsWork) : Steady (Activity.emit e : Work σ Unit) where
  quiet s := ⟨rfl, [(s.now, e)], rfl, by
    intro x hx
    rw [List.mem_singleton.1 hx]
    exact he⟩
  forward s := s.now.le_refl

theorem report (p : Progress) : Steady (Work.report p : Work σ Unit) :=
  emit ⟨rfl, rfl, rfl⟩

theorem remark (r : Remark) : Steady (Work.remark r : Work σ Unit) :=
  emit ⟨rfl, rfl, rfl⟩

/-- An errand is steady whatever it does: all that it writes down are operations. -/
theorem see (e : Errand σ α) : Steady (Work.see e) where
  quiet s := by
    refine ⟨rfl, _, rfl, ?_⟩
    intro x hx
    obtain ⟨y, -, rfl⟩ := List.mem_map.1 hx
    exact ⟨rfl, rfl, rfl⟩
  forward s := Moment.le_latest_left _ _

end Steady

/-! ### Groups -/

/-- A member is begun at another moment, but it works on the same world and journal. -/
theorem quiet_member {m : Work σ α} (hm : Steady m) (start : Moment) (s : Scene (World σ) Entry) :
    Quiet s (member start m s).2 := by
  have hbegin : Quiet s { s with now := start, depth := s.depth + 1, gaveWay := none } :=
    .of_eq rfl rfl
  exact (hbegin.trans (hm.quiet _)).trans (.of_eq rfl rfl)

theorem quiet_each {start : Moment} {members : List (Work σ α)} :
    ∀ (o : Opening), (∀ m ∈ members, Steady m) → ∀ s, Quiet s (each start o members s).2 := by
  induction members with
  | nil => intro o _ s; exact .refl s
  | cons m ms ih =>
    intro o h s
    have hm : Quiet s (member (o.next start s.depth) m s).2 :=
      quiet_member (h m List.mem_cons_self) _ s
    exact hm.trans (ih _ (fun m' hm' => h m' (List.mem_cons_of_mem m hm')) _)

theorem le_latestOf (results : List (α × Moment)) :
    ∀ start : Moment, start.le (latestOf start results) := by
  induction results with
  | nil => intro start; exact start.le_refl
  | cons r rs ih =>
    intro start
    exact Moment.le_trans (Moment.le_latest_left start r.2) (ih (start.latest r.2))

/-- What a group comes to when its members are done: the first of their failures. It moves on in time,
and remembers whether it has let others go first. -/
theorem together_eq {ε : Type} (members : List (Activity β ε (Except φ Unit))) (s : Scene β ε) :
    together members s =
      (match firstFailure (each s.now {} members s).1.1 with
        | some (e, _) => .error e
        | none => .ok (),
      { (each s.now {} members s).2 with
        now := latestOf s.now (each s.now {} members s).1.1
        gaveWay := s.gaveWay.or
          (if (each s.now {} members s).1.2.givesWay then some s.now.millis else none) }) := by
  simp only [together, bind, StateT.bind, get, getThe, MonadStateOf.get, StateT.get, pure]
  rcases each s.now {} members s with ⟨⟨results, o⟩, t⟩
  dsimp only [modify, modifyGet, MonadStateOf.modifyGet, StateT.modifyGet, pure]
  cases firstFailure results with
  | none => rfl
  | some f => rfl

theorem steady_together {members : List (Work σ (Except φ Unit))} (h : ∀ m ∈ members, Steady m) :
    Steady (together members) where
  quiet s := by
    rw [together_eq]
    exact (quiet_each {} h s).trans (.of_eq rfl rfl)
  forward s := by
    rw [together_eq]
    exact le_latestOf _ s.now

/-- Members that are run one after another end with one that fails. -/
theorem inOrder_of_error {ε : Type} {m : Activity β ε (Except φ Unit)}
    {ms : List (Activity β ε (Except φ Unit))} {s : Scene β ε} {e : φ} (h : (m s).1 = .error e) :
    inOrder (m :: ms) s = (.error e, (m s).2) := by
  simp only [inOrder, bind, StateT.bind]
  rcases hm : m s with ⟨result, later⟩
  rw [hm] at h
  subst h
  rfl

/-- After one that succeeds come the others. -/
theorem inOrder_of_ok {ε : Type} {m : Activity β ε (Except φ Unit)}
    {ms : List (Activity β ε (Except φ Unit))} {s : Scene β ε} (h : (m s).1 = .ok ()) :
    inOrder (m :: ms) s = inOrder ms (m s).2 := by
  simp only [inOrder, bind, StateT.bind]
  rcases hm : m s with ⟨result, later⟩
  rw [hm] at h
  subst h
  rfl

theorem steady_inOrder {members : List (Work σ (Except φ Unit))} (h : ∀ m ∈ members, Steady m) :
    Steady (inOrder members) := by
  induction members with
  | nil => exact .pure _
  | cons m ms ih =>
    refine .bind (h m List.mem_cons_self) fun result => ?_
    cases result with
    | error e => exact .pure _
    | ok _ => exact ih fun m' hm' => h m' (List.mem_cons_of_mem m hm')

theorem mem_of_mem_chunks {n : Nat} {items piece : List α} {a : α} (hp : piece ∈ chunks n items)
    (ha : a ∈ piece) : a ∈ items := by
  fun_induction chunks n items with
  | case1 => exact absurd hp List.not_mem_nil
  | case2 b bs ih =>
    rcases List.mem_cons.1 hp with rfl | hp
    · rcases List.mem_cons.1 ha with rfl | ha
      · exact List.mem_cons_self
      · exact List.mem_cons_of_mem b (List.mem_of_mem_take ha)
    · exact List.mem_cons_of_mem b (List.mem_of_mem_drop (ih hp))

/-- A property of work that groups have if their members have it. -/
structure Gathers {ε : Type} (P : Activity σ ε (Except φ Unit) → Prop) : Prop where
  inOrder : ∀ {members}, (∀ m ∈ members, P m) → P (Activity.inOrder members)
  together : ∀ {members}, (∀ m ∈ members, P m) → P (Activity.together members)

namespace Gathers

variable {ε : Type} {P : Activity σ ε (Except φ Unit) → Prop}
  {perform : α → Activity σ ε (Except φ Unit)}

/-- Batches are groups in a group. -/
theorem inBatches (h : Gathers P) (n : Nat) {members : List (Activity σ ε (Except φ Unit))}
    (hmembers : ∀ m ∈ members, P m) : P (Activity.inBatches n members) := by
  refine h.inOrder fun batch hb => ?_
  obtain ⟨piece, hp, rfl⟩ := List.mem_map.1 hb
  exact h.together fun m hm => hmembers m (mem_of_mem_chunks hp hm)

mutual

/-- A step has the property if its leaves do, however its groups are nested. -/
theorem step (h : Gathers P) : (s : Step α) → (∀ a ∈ s.jobs, P (perform a)) → P (s.run perform)
  | .job a, hleaf => by
    rw [Step.jobs] at hleaf
    rw [Step.run]
    exact hleaf a (List.mem_singleton_self a)
  | .serial steps, hleaves => by
    rw [Step.jobs] at hleaves
    rw [Step.run]
    exact h.inOrder (steps_of_mem h steps hleaves)
  | .concurrent steps, hleaves => by
    rw [Step.jobs] at hleaves
    rw [Step.run]
    exact h.together (steps_of_mem h steps hleaves)
  | .batched limit steps, hleaves => by
    rw [Step.jobs] at hleaves
    rw [Step.run]
    exact h.inBatches limit (steps_of_mem h steps hleaves)

theorem steps_of_mem (h : Gathers P) : (steps : List (Step α)) →
    (∀ a ∈ Step.jobsOfAll steps, P (perform a)) → ∀ m ∈ Step.runs perform steps, P m
  | [], _ => by
    rw [Step.runs]
    exact fun m hm => absurd hm List.not_mem_nil
  | s :: rest, hleaves => by
    rw [Step.jobsOfAll, List.forall_mem_append] at hleaves
    rw [Step.runs]
    exact List.forall_mem_cons.2 ⟨step h s hleaves.1, steps_of_mem h rest hleaves.2⟩

end

end Gathers

theorem gathers_steady : Gathers (Steady : Work σ (Except φ Unit) → Prop) where
  inOrder := steady_inOrder
  together := steady_together

/-! ### Jobs and steps -/

/-- A property of work that the whole has if its parts have it. -/
structure Composes (P : {β : Type} → Work σ β → Prop) : Prop where
  pure : ∀ {β : Type} (x : β), P (Pure.pure x : Work σ β)
  bind : ∀ {β γ : Type} {m : Work σ β} {f : β → Work σ γ}, P m → (∀ x, P (f x)) → P (m >>= f)
  now : P (Activity.now : Work σ Moment)
  report : ∀ p, P (Work.report p : Work σ Unit)

namespace Composes

variable {P : {β : Type} → Work σ β → Prop} {b : Backend σ} {scope : RunScope} {j : Job} (h : Composes P)
  (hsubmit : P (Work.see (b.submit j scope))) (hobserve : ∀ u, P (Work.see (b.observe j u)))

include h hsubmit hobserve

theorem execute : P (j.execute b scope) := by
  refine h.bind hsubmit fun submitted => ?_
  cases submitted with
  | error e => exact h.pure _
  | ok u =>
    refine h.bind (h.report _) fun _ => h.bind (hobserve u) fun observed => ?_
    cases observed with
    | error e => exact h.pure _
    | ok p => exact h.pure _

theorem schedule : P (j.schedule b scope) := by
  refine h.bind h.now fun start => h.bind (h.report _) fun _ =>
    h.bind (h.execute hsubmit hobserve) fun r => ?_
  obtain ⟨unit, result⟩ := r
  refine h.bind h.now fun stop => ?_
  cases result with
  | ok _ => exact h.bind (h.report _) fun _ => h.pure _
  | error e => exact h.bind (h.report _) fun _ => h.pure _

/-- A job has the property if submission and observation do. -/
theorem run : P (j.run b scope) :=
  h.bind (h.schedule hsubmit hobserve) fun _ => h.pure _

end Composes

theorem composes_steady : Composes (fun m => Steady m : {β : Type} → Work σ β → Prop) where
  pure := .pure
  bind := .bind
  now := .now
  report := .report

namespace Job

variable (b : Backend σ) (scope : RunScope) (j : Job)

theorem steady_schedule : Steady (j.schedule b scope) :=
  composes_steady.schedule (.see _) fun _ => .see _

theorem steady_run : Steady (j.run b scope) :=
  composes_steady.run (.see _) fun _ => .see _

theorem steady_logs (u : Option UnitRef) : Steady (j.logs b u) := by
  cases u with
  | none => exact .pure _
  | some u => exact .see _

end Job

/-- A step is as steady as its leaves. -/
theorem Step.steady_run {perform : α → Work σ (Except φ Unit)} (h : ∀ a, Steady (perform a))
    (s : Step α) : Steady (s.run perform) :=
  gathers_steady.step s fun a _ => h a

end EventWorker
