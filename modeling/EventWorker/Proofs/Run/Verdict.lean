import EventWorker.Proofs.Run.Groups
import EventWorker.Run.Controller

/-!
# What decides a run

Where it is known of each job beforehand whether it succeeds, it is known of a run. What a piece of work
leads to is told of the world alone (`Leads`): when it happens and what is noted down make no difference.
Work is decided if it keeps up an invariant of the world and succeeds exactly if something holds that is
known beforehand (`Decided`).

A group is decided if its members are, whichever way it runs them, since each works on the world that
the one before it has left, and the invariant is all that it needs of it. So a step is decided by its
jobs (`decided_run`), and a run whose handlers run steps by the jobs of the steps that it comes to.

* `Controller.run_leads`: what a run comes to, given what its parts do.
* `Foreseen.runHandlers_leads`: whether the handlers of a run fail, by the jobs of their steps.
-/

namespace EventWorker

open Activity

variable {σ ε α β φ : Type}

/-! ### Work and the world -/

/-- From a world with `P` the work comes to a result and a world with `Q`. -/
def Leads (P : σ → Prop) (work : Activity σ ε α) (Q : α → σ → Prop) : Prop :=
  ∀ s : Scene σ ε, P s.world → Q (work s).1 (work s).2.world

namespace Leads

variable {P : σ → Prop} {Q R : α → σ → Prop} {S : β → σ → Prop} {m : Activity σ ε α}
  {f : α → Activity σ ε β}

theorem pure {a : α} (h : ∀ w, P w → Q a w) : Leads P (Pure.pure a : Activity σ ε α) Q :=
  fun s hs => h s.world hs

theorem bind (hm : Leads P m R) (hf : ∀ a, Leads (R a) (f a) S) : Leads P (m >>= f) S :=
  fun s hs => hf _ _ (hm s hs)

theorem imp (hm : Leads P m R) (h : ∀ a w, R a w → Q a w) : Leads P m Q :=
  fun s hs => h _ _ (hm s hs)

theorem weaken {P' : σ → Prop} (hm : Leads P m Q) (h : ∀ w, P' w → P w) : Leads P' m Q :=
  fun s hs => hm s (h _ hs)

/-- What does not depend on the world may be taken for granted. -/
theorem known {p : Prop} (h : p → Leads P m Q) : Leads (fun w => P w ∧ p) m Q :=
  fun s hs => h hs.2 s hs.1

theorem now : Leads P (Activity.now : Activity σ ε Moment) fun _ => P :=
  fun _ hs => hs

theorem goTo (m : Moment) : Leads P (Activity.goTo m : Activity σ ε Unit) fun _ => P :=
  fun _ hs => hs

theorem discard {R : σ → Prop} (hm : Leads P m fun _ => R) : Leads P (discard m) fun _ => R :=
  fun s hs => hm s hs

theorem emit (e : ε) : Leads P (Activity.emit e) fun _ => P :=
  fun _ hs => hs

theorem emitAll : (es : List ε) → Leads P (Activity.emitAll es : Activity σ ε Unit) fun _ => P
  | [] => fun _ hs => hs
  | e :: es => bind (emit e) fun _ => emitAll es

theorem pause : Leads P (Activity.pause : Activity σ ε Unit) fun _ => P :=
  fun _ hs => hs

theorem await (hm : Leads P m R) : Leads P (Activity.await m) R :=
  .bind .pause fun _ => .bind hm fun _ => .bind .pause fun _ => .pure fun _ hw => hw

/-- A call acts on the cluster only. -/
theorem call {P : σ → Prop} {Q : Except ε α → σ → Prop} {c : Cluster σ} {f : Call σ ε α}
    (h : ∀ m, P m → Q (f.run m).1 (f.run m).2) :
    Leads (fun seen => P seen.source) (Errand.call c f) fun r seen => Q r seen.source := by
  have hlook : Leads (fun seen => P seen.source) (Errand.watch (Seen.look f.run))
      fun r seen => Q r seen.source :=
    fun s hs => h s.world.source hs
  refine bind (R := fun _ seen => P seen.source) (fun _ hs => hs) fun _ => ?_
  refine bind hlook fun r => ?_
  refine bind (R := fun _ seen => Q r seen.source) (fun _ hs => hs) fun _ => ?_
  exact bind (emitAll _) fun _ => .pure fun _ hw => hw

/-- An errand knows nothing of the tasks. -/
theorem see {P : Seen σ → Prop} {Q : α → Seen σ → Prop} {e : Errand σ α} (h : Leads P e Q)
    (tasks : List Task) : Leads (fun w : World σ => P w.seen ∧ w.tasks = tasks) (Work.see e)
      fun a w => Q a w.seen ∧ w.tasks = tasks :=
  fun s hs => ⟨h { now := s.now, world := s.world.seen } hs.1, hs.2⟩

end Leads

section Jobs

variable {P : World σ → Prop} {b : Backend σ} {scope : RunScope} {j : Job}

/-- What a job reports on itself makes no difference to what it leads to. -/
theorem Job.leads_schedule {Q : Option UnitRef × Except JobError Unit → World σ → Prop}
    (h : Leads P (j.execute b scope) Q) : Leads P (j.schedule b scope) Q := by
  refine .bind .now fun _ => .bind (.emit _) fun _ => .bind h fun r => .bind .now fun _ => ?_
  obtain ⟨unit, result⟩ := r
  cases result with
  | ok _ => exact .bind (.emit _) fun _ => .pure fun _ hw => hw
  | error e => exact .bind (.emit _) fun _ => .pure fun _ hw => hw

theorem Job.leads_run {Q : Except JobError Unit → World σ → Prop}
    (h : Leads P (j.execute b scope) fun r => Q r.2) : Leads P (j.run b scope) Q :=
  .bind (leads_schedule h) fun _ => .pure fun _ hw => hw

/-- A handler that runs a step leads to what the step does. -/
theorem Handler.leads_ofStep {Q : World σ → Prop} {s : Step Job}
    (h : Leads P (s.run (Job.run b scope)) fun _ => Q) (e : Event) :
    Leads P (Action.performAll ⟨b, scope, e⟩ (Handler.ofStep s scope e)) fun _ => Q := by
  have hstep : Leads P (Action.perform ⟨b, scope, e⟩ (.step s)) fun _ => Q := by
    rw [Action.perform]
    exact .bind h fun _ => .pure fun _ hw => hw
  rw [Handler.ofStep, Action.performAll]
  refine .bind hstep fun r => ?_
  cases r with
  | ok _ =>
    rw [Action.performAll]
    exact .pure fun _ hw => hw
  | error f => exact .pure fun _ hw => hw

end Jobs

/-- Work that keeps up `I`, and that succeeds exactly if `good`. -/
def Decided (I : σ → Prop) (good : Prop) (m : Activity σ ε (Except φ Unit)) : Prop :=
  Leads I m fun r w => I w ∧ (r = .ok () ↔ good)

variable {I : σ → Prop}

theorem Decided.congr {good good' : Prop} {m : Activity σ ε (Except φ Unit)} (h : Decided I good m)
    (hiff : good ↔ good') : Decided I good' m :=
  Leads.imp h fun _ _ hr => ⟨hr.1, hr.2.trans hiff⟩

/-! ### Groups -/

variable {goods : List Prop} {members : List (Activity σ ε (Except φ Unit))}

/-- The members of a group in turn. -/
theorem decided_inOrder (h : List.Forall₂ (Decided I) goods members) :
    Decided I (∀ g ∈ goods, g) (inOrder members) := by
  induction h with
  | nil =>
    refine Leads.pure fun w hw => ⟨hw, ?_⟩
    simp
  | @cons g m goods members hm _ ih =>
    refine Leads.bind hm fun r => .known fun hr => ?_
    cases r with
    | ok _ =>
      refine ih.congr ?_
      rw [List.forall_mem_cons]
      exact (and_iff_right (hr.1 rfl)).symm
    | error e =>
      have hbad : ¬ g := fun hg => by cases hr.2 hg
      refine Leads.pure fun w hw => ⟨hw, ?_⟩
      exact iff_of_false (fun heq => by cases heq) fun hall => hbad (hall g List.mem_cons_self)

/-- Each member of a group works on the world that the one before it has left. -/
theorem forall₂_each (h : List.Forall₂ (Decided I) goods members) (start : Moment) :
    ∀ (o : Opening) (s : Scene σ ε), I s.world → I (each start o members s).2.world ∧
      List.Forall₂ (fun g r => r.1 = .ok () ↔ g) goods (each start o members s).1.1 := by
  induction h with
  | nil => exact fun o s hs => ⟨hs, .nil⟩
  | @cons g m goods members hm _ ih =>
    intro o s hs
    let begun := o.next start s.depth
    let t := member begun m s
    have hmember : I t.2.world ∧ (t.1.1 = .ok () ↔ g) :=
      hm { s with now := begun, depth := s.depth + 1, gaveWay := none } hs
    obtain ⟨hkept, hrest⟩ := ih (o.add (t.1.2.1 == begun) t.1.2.2) t.2 hmember.1
    exact ⟨hkept, .cons hmember.2 hrest⟩

/-- The members of a group at once. -/
theorem decided_together (h : List.Forall₂ (Decided I) goods members) :
    Decided I (∀ g ∈ goods, g) (together members) := by
  intro s hs
  obtain ⟨hkept, hresults⟩ := forall₂_each h s.now {} s hs
  have hall : (∀ r ∈ (each s.now {} members s).1.1, r.1 = .ok ()) ↔ ∀ g ∈ goods, g := by
    constructor
    · intro hr g hg
      obtain ⟨r, hmem, hiff⟩ := exists_of_mem_left hresults hg
      exact hiff.1 (hr r hmem)
    · intro hg r hr
      obtain ⟨g, hmem, hiff⟩ := exists_of_mem_right hresults hr
      exact hiff.2 (hg g hmem)
  rw [together_eq, ← hall, ← firstFailure_eq_none_iff]
  refine ⟨hkept, ?_⟩
  cases firstFailure (each s.now {} members s).1.1 with
  | none => exact iff_of_true rfl rfl
  | some f => exact iff_of_false (fun heq => by cases heq) (Option.some_ne_none f)

theorem forall₂_chunks {R : α → β → Prop} (n : Nat) {as : List α} {bs : List β}
    (h : List.Forall₂ R as bs) : List.Forall₂ (List.Forall₂ R) (chunks n as) (chunks n bs) := by
  fun_induction chunks n as generalizing bs with
  | case1 =>
    cases h
    rw [chunks]
    exact .nil
  | case2 a as ih =>
    cases h with
    | @cons _ b _ bs hab hrest =>
      rw [chunks]
      exact .cons (.cons hab (List.forall₂_take _ hrest)) (ih (List.forall₂_drop _ hrest))

/-- The members of a group in batches. -/
theorem decided_inBatches (n : Nat) (h : List.Forall₂ (Decided I) goods members) :
    Decided I (∀ g ∈ goods, g) (inBatches n members) := by
  have hbatches : List.Forall₂ (Decided I) ((chunks n goods).map fun piece => ∀ g ∈ piece, g)
      ((chunks n members).map together) := by
    rw [List.forall₂_map_left_iff, List.forall₂_map_right_iff]
    exact (forall₂_chunks n h).imp fun _ _ hpiece => decided_together hpiece
  refine (decided_inOrder hbatches).congr ?_
  simp only [List.forall_mem_map]
  constructor
  · intro hall g hg
    rw [← flatten_chunks n goods] at hg
    obtain ⟨piece, hpiece, hg⟩ := List.mem_flatten.1 hg
    exact hall piece hpiece g hg
  · exact fun hall piece hpiece g hg => hall g (mem_of_mem_chunks hpiece hg)

/-! ### Steps -/

namespace Step

variable {perform : α → Activity σ ε (Except φ Unit)} {good : α → Prop}

theorem forall_mem_jobsOfAll (good : α → Prop) (steps : List (Step α)) :
    (∀ g ∈ steps.map fun s => ∀ a ∈ s.jobs, good a, g) ↔ ∀ a ∈ jobsOfAll steps, good a := by
  induction steps with
  | nil => simp [jobsOfAll]
  | cons s rest ih =>
    rw [List.map_cons, List.forall_mem_cons, ih, jobsOfAll, List.forall_mem_append]

mutual

/-- **A step is decided by its jobs.** -/
theorem decided_run (h : ∀ a, Decided I (good a) (perform a)) :
    (s : Step α) → Decided I (∀ a ∈ s.jobs, good a) (s.run perform)
  | job a => by
    rw [run, jobs]
    exact (h a).congr (by simp)
  | serial steps => by
    rw [run, jobs]
    exact (decided_inOrder (decided_runs h steps)).congr (forall_mem_jobsOfAll good steps)
  | concurrent steps => by
    rw [run, jobs]
    exact (decided_together (decided_runs h steps)).congr (forall_mem_jobsOfAll good steps)
  | batched limit steps => by
    rw [run, jobs]
    exact (decided_inBatches limit (decided_runs h steps)).congr (forall_mem_jobsOfAll good steps)

theorem decided_runs (h : ∀ a, Decided I (good a) (perform a)) : (steps : List (Step α)) →
    List.Forall₂ (Decided I) (steps.map fun s => ∀ a ∈ s.jobs, good a) (runs perform steps)
  | [] => by
    rw [runs]
    exact .nil
  | s :: rest => by
    rw [runs]
    exact .cons (decided_run h s) (decided_runs h rest)

end

end Step

/-! ### Runs -/

section Runs

variable {I : World σ → Prop} (hI : ∀ w, I w → w.tasks = [])

include hI

/-- There is nothing to wait for. -/
theorem joinTasks_leads : Leads I joinTasks fun tasks w => I w ∧ tasks = [] := by
  intro s hs
  have hjoin : joinTasks s = ([], s) := by
    show joinWithin s.world.tasks.length s = _
    rw [hI s.world hs]
    rfl
  rw [hjoin]
  exact ⟨hs, rfl⟩

/-- There is nothing to forget. -/
theorem forget_leads :
    Leads I (act fun w => ((), { w with tasks := [] }) : Work σ Unit) fun _ => I := by
  intro s hs
  have hsame : ({ s.world with tasks := [] } : World σ) = s.world := by rw [← hI s.world hs]
  show I { s.world with tasks := [] }
  rw [hsame]
  exact hs

/-- Where nobody handles the event of a run, nothing happens. -/
theorem Controller.runHandlers_leads_of_unhandled {c : Controller σ} {scope : RunScope}
    (h : c.bus.handler? scope.event.key = none) :
    Leads I (c.runHandlers scope) fun _ => I := by
  have hdispatch : Leads I (c.dispatch scope scope.event) fun failure w => I w ∧ failure = none := by
    rw [Controller.dispatch]
    refine .bind (.emit _) fun _ => ?_
    simp only [h]
    exact .pure fun w hw => ⟨hw, rfl⟩
  have hhandle : Leads I (c.handle scope none scope.event) fun _ => I := by
    rw [Controller.handle]
    refine .bind hdispatch fun failure => .known fun hnone => ?_
    rw [hnone]
    refine .bind (R := fun _ => I) (.pure fun _ hw => hw) fun first => ?_
    refine .bind (joinTasks_leads hI) fun tasks => .known fun htasks => ?_
    rw [htasks]
    exact .bind (.emit _) fun _ => .pure fun _ hw => hw
  have hunhandled : c.bus.handles scope.event.key = false := by
    rw [Bus.handles, h]
    rfl
  rw [Controller.runHandlers, hunhandled]
  exact .bind (forget_leads hI) fun _ => .bind (.emit _) fun _ => .bind hhandle fun _ =>
    .bind (.emit _) fun _ => .pure fun _ hw => hw

end Runs

/-- **A run that can load its project and gets its volume ends with a report**, and what the report says
of failures is what its handlers have come to. -/
theorem Controller.run_leads {c : Controller σ} {id : String} {event : Event} {project : Project}
    {P R : World σ → Prop} {Q S : Option Failure → World σ → Prop}
    (hload : Leads P (Work.see (c.load id)) fun r w => P w ∧ r = .ok project)
    (hprovision : Leads P (Work.see (c.storage.provision event project)) fun r w => R w ∧ r = .ok ())
    (hhandlers : Leads R (c.runHandlers { event, project }) Q)
    (hrelease : ∀ first, Leads (Q first) (Work.see (c.storage.release event project))
      fun _ => S first) :
    Leads P (c.run id event) fun r w => ∃ report first, r = .ok report ∧
      (report.exitCode = 0 ↔ first = none) ∧ S first w := by
  rw [Controller.run]
  refine .bind (.emit _) fun _ => .bind hload fun r => .known fun hr => ?_
  rw [hr]
  refine .bind (.emit _) fun _ => ?_
  refine .bind (.bind (.emit _) fun _ => hprovision) fun r => .known fun hr => ?_
  rw [hr]
  refine .bind (.emit _) fun _ => .bind hhandlers fun first => ?_
  refine .bind (.bind (.emit _) fun _ => .discard (hrelease first)) fun _ => ?_
  refine .bind (.emit _) fun _ => .bind (.emit _) fun _ => .pure fun w hw => ⟨_, first, rfl, ?_, hw⟩
  cases first <;> simp

/-- A run whose project cannot be loaded is over at once. -/
theorem Controller.run_leads_of_unloaded {c : Controller σ} {id : String} {event : Event}
    {e : ClusterError} {P : World σ → Prop}
    (hload : Leads P (Work.see (c.load id)) fun r w => P w ∧ r = .error e) :
    Leads P (c.run id event) fun r w => P w ∧ r = .error (.projectLoad id e) := by
  rw [Controller.run]
  refine .bind (.emit _) fun _ => .bind hload fun r => .known fun hr => ?_
  rw [hr]
  exact .pure fun w hw => ⟨hw, rfl⟩

/-- A run that does not get its volume is over then. -/
theorem Controller.run_leads_of_unprovisioned {c : Controller σ} {id : String} {event : Event}
    {project : Project} {e : ClusterError} {P R : World σ → Prop}
    (hload : Leads P (Work.see (c.load id)) fun r w => P w ∧ r = .ok project)
    (hprovision : Leads P (Work.see (c.storage.provision event project))
      fun r w => R w ∧ r = .error e) :
    Leads P (c.run id event) fun r w => R w ∧ r = .error (.storageProvision event.runId e) := by
  rw [Controller.run]
  refine .bind (.emit _) fun _ => .bind hload fun r => .known fun hr => ?_
  rw [hr]
  refine .bind (.emit _) fun _ => ?_
  refine .bind (.bind (.emit _) fun _ => hprovision) fun r => .known fun hr => ?_
  rw [hr]
  exact .pure fun w hw => ⟨hw, rfl⟩

/-! ### Handlers that run steps -/

/-- A controller whose handlers run steps, and of whose jobs it is known which succeed. -/
structure Foreseen (c : Controller σ) (scope : RunScope) (steps : EventKey → Option (Step Job))
    (good : Job → Prop) (I : World σ → Prop) : Prop where
  handler : ∀ key, c.bus.handler? key = (steps key).map Handler.ofStep
  job : ∀ j, Decided I (good j) (Job.run c.backend scope j)
  tasks : ∀ w, I w → w.tasks = []

/-- The jobs of the step for the events of a key succeed, if there is a step. -/
def Fine (steps : EventKey → Option (Step Job)) (good : Job → Prop) (key : EventKey) : Prop :=
  ∀ s ∈ steps key, ∀ j ∈ s.jobs, good j

namespace Foreseen

variable {c : Controller σ} {scope : RunScope} {steps : EventKey → Option (Step Job)}
  {good : Job → Prop} {I : World σ → Prop} (h : Foreseen c scope steps good I)

include h

theorem decided_performAll (e : Event) (s : Step Job) :
    Decided I (∀ j ∈ s.jobs, good j)
      (Action.performAll ⟨c.backend, scope, e⟩ (Handler.ofStep s scope e)) := by
  have hstep : Decided I (∀ j ∈ s.jobs, good j)
      (Action.perform ⟨c.backend, scope, e⟩ (.step s)) := by
    rw [Action.perform]
    refine Leads.bind (Step.decided_run h.job s) fun r => Leads.pure fun w hw => ⟨hw.1, ?_⟩
    rw [← hw.2]
    cases r with
    | ok _ => exact iff_of_true rfl rfl
    | error f => exact iff_of_false (fun heq => by cases heq) fun heq => by cases heq
  rw [Handler.ofStep, Action.performAll]
  refine Leads.bind hstep fun r => ?_
  cases r with
  | ok _ =>
    rw [Action.performAll]
    exact Leads.pure fun w hw => hw
  | error f => exact Leads.pure fun w hw => hw

/-- An event is passed to its handler, which fails if one of its jobs does. -/
theorem dispatch_leads (e : Event) :
    Leads I (c.dispatch scope e) fun failure w => I w ∧ (failure = none ↔ Fine steps good e.key) := by
  rw [Controller.dispatch]
  refine .bind (.emit _) fun _ => ?_
  have hhandler := h.handler e.key
  cases hstep : steps e.key with
  | none =>
    rw [hstep, Option.map_none] at hhandler
    simp only [hhandler]
    refine .pure fun w hw => ⟨hw, iff_of_true rfl fun s hs => ?_⟩
    rw [hstep] at hs
    exact absurd hs (Option.not_mem_none s)
  | some s =>
    rw [hstep, Option.map_some] at hhandler
    simp only [hhandler]
    refine .bind (.emit _) fun _ => .bind (.emit _) fun _ =>
      .bind (.await (h.decided_performAll e s)) fun outcome => .bind (.emit _) fun _ =>
        .pure fun w hw => ⟨hw.1, ?_⟩
    have hfine : Fine steps good e.key ↔ ∀ j ∈ s.jobs, good j := by
      simp [Fine, hstep]
    rw [hfine, ← hw.2]
    cases outcome with
    | ok _ => exact iff_of_true rfl rfl
    | error f => exact iff_of_false (Option.some_ne_none _) fun heq => by cases heq

/-- Raising a failure may fire an event. Whatever comes of that is left aside. -/
theorem raise_leads (first : Option Failure) (f : Failure) :
    Leads I (c.raise scope first f) fun r w => I w ∧ r ≠ none := by
  unfold Controller.raise
  refine .bind (.emit _) fun _ => .bind (.emit _) fun _ => ?_
  cases first with
  | some g => exact .pure fun w hw => ⟨hw, Option.some_ne_none g⟩
  | none =>
    have hfired : Leads I (c.dispatch scope (Controller.errorEvent scope.event f)) fun _ => I :=
      .imp (h.dispatch_leads _) fun _ _ hw => hw.1
    exact .bind (.discard hfired) fun _ => .pure fun w hw => ⟨hw, Option.some_ne_none f⟩

theorem raiseAll_leads (fs : List Failure) : ∀ first, Leads I (c.raiseAll scope first fs)
    fun r w => I w ∧ (r = none ↔ first = none ∧ fs = []) := by
  induction fs with
  | nil =>
    intro first
    rw [Controller.raiseAll]
    exact .pure fun w hw => ⟨hw, by simp⟩
  | cons f fs ih =>
    intro first
    rw [Controller.raiseAll]
    refine .bind (h.raise_leads first f) fun r => .known fun hr => .imp (ih r) fun r' w hw => ?_
    exact ⟨hw.1, iff_of_false (fun hnone => hr (hw.2.1 hnone).1) fun hnone => by simp at hnone⟩

/-- The handling of an event adds a failure to those before if a job of its step fails. -/
theorem handle_leads (first : Option Failure) (e : Event) :
    Leads I (c.handle scope first e) fun r w =>
      I w ∧ (r = none ↔ first = none ∧ Fine steps good e.key) := by
  rw [Controller.handle]
  refine .bind (h.dispatch_leads e) fun failure => .known fun hfine => ?_
  refine .bind (h.raiseAll_leads _ first) fun r => .known fun hr => ?_
  refine .bind (joinTasks_leads h.tasks) fun tasks => .known fun htasks => ?_
  refine .bind (.emit _) fun _ => .imp (h.raiseAll_leads _ r) fun r' w hw => ⟨hw.1, ?_⟩
  have hlate : ((Task.failures tasks).map (⟨·, .background⟩) : List Failure) = [] := by
    rw [htasks]
    rfl
  have hearly : (failure.map (⟨·, .handler⟩) : Option Failure).toList = [] ↔ failure = none := by
    cases failure <;> simp
  rw [hw.2, hr, hearly, hfine]
  exact and_iff_left hlate

theorem handles_iff (key : EventKey) : c.bus.handles key = (steps key).isSome := by
  rw [Bus.handles, h.handler key, Option.isSome_map]

/-- **A run is decided by the jobs that it comes to**: those for its event, and, if there is a step for
that, those for the event that comes after. -/
theorem runHandlers_leads :
    Leads I (c.runHandlers scope) fun r w => I w ∧ (r = none ↔ Fine steps good scope.event.key ∧
      ((steps scope.event.key).isSome → Fine steps good (scope.event.source, afterType))) := by
  rw [Controller.runHandlers]
  refine .bind (forget_leads h.tasks) fun _ => .bind (.emit _) fun _ => ?_
  refine .bind (h.handle_leads none scope.event) fun first => .known fun hfirst => ?_
  rw [h.handles_iff]
  cases hstep : (steps scope.event.key).isSome with
  | false =>
    refine .bind (.emit _) fun _ => .pure fun w hw => ⟨hw, ?_⟩
    simpa using hfirst
  | true =>
    have hkey : (Controller.afterEvent scope.event first).key = (scope.event.source, afterType) := by
      cases first <;> rfl
    refine .bind (h.handle_leads first (Controller.afterEvent scope.event first)) fun r =>
      .bind (.emit _) fun _ => .pure fun w hw => ⟨hw.1, ?_⟩
    rw [hw.2, hfirst, hkey]
    simp

end Foreseen

end EventWorker
