import EventWorker.Proofs.Run.Verdict
import EventWorker.Proofs.Watch.Stream

/-!
# What a run leaves as it is

An invariant of the world that every part of some work keeps up is kept up by the work (`Keeps`),
whatever comes of it. Groups keep up what their members do, and a step what its jobs do, and they have no
failures of their own (`Upholds`); a job keeps up what its submission and its observation do, and an
observation what the looks of its watcher do. So the handlers of a run keep up what each of them does,
whichever of them are called and however often.

* `Step.upholds_run`: a step and its jobs.
* `Watcher.keeps_observe`: an observation and its looks.
* `Controller.keeps_runHandlers`: the handlers of a run.
-/

namespace EventWorker

open Activity

variable {σ ε α φ : Type}

/-- Work that keeps up an invariant. -/
def Keeps (I : σ → Prop) (m : Activity σ ε α) : Prop :=
  Leads I m fun _ => I

/-- Work that keeps up an invariant, and whose failures have a property. -/
def Upholds (I : σ → Prop) (P : φ → Prop) (m : Activity σ ε (Except φ α)) : Prop :=
  Leads I m fun r w => I w ∧ ∀ e, r = .error e → P e

/-! ### Groups -/

section Groups

variable {I : σ → Prop} {P : φ → Prop} {members : List (Activity σ ε (Except φ Unit))}

theorem upholds_inOrder (h : ∀ m ∈ members, Upholds I P m) : Upholds I P (inOrder members) := by
  induction members with
  | nil => exact .pure fun _ hw => ⟨hw, fun e he => by cases he⟩
  | cons m members ih =>
    obtain ⟨hm, hrest⟩ := List.forall_mem_cons.1 h
    refine .bind hm fun r => ?_
    cases r with
    | ok _ => exact .weaken (ih hrest) fun _ hw => hw.1
    | error e => exact .pure fun _ hw => hw

theorem upholds_each (h : ∀ m ∈ members, Upholds I P m) (start : Moment) :
    ∀ (o : Opening) (s : Scene σ ε), I s.world → I (each start o members s).2.world ∧
      ∀ r ∈ (each start o members s).1.1, ∀ e, r.1 = .error e → P e := by
  induction members with
  | nil => exact fun o s hs => ⟨hs, fun r hr => absurd hr List.not_mem_nil⟩
  | cons m members ih =>
    obtain ⟨hm, hrest⟩ := List.forall_mem_cons.1 h
    intro o s hs
    let begun := o.next start s.depth
    let t := member begun m s
    have hmember : I t.2.world ∧ ∀ e, t.1.1 = .error e → P e :=
      hm { s with now := begun, depth := s.depth + 1, gaveWay := none } hs
    obtain ⟨hkept, hresults⟩ := ih hrest (o.add (t.1.2.1 == begun) t.1.2.2) t.2 hmember.1
    exact ⟨hkept, List.forall_mem_cons.2 ⟨hmember.2, hresults⟩⟩

theorem upholds_together (h : ∀ m ∈ members, Upholds I P m) : Upholds I P (together members) := by
  intro s hs
  obtain ⟨hkept, hresults⟩ := upholds_each h s.now {} s hs
  rw [together_eq]
  refine ⟨hkept, fun e he => ?_⟩
  cases hfirst : firstFailure (each s.now {} members s).1.1 with
  | none =>
    rw [hfirst] at he
    cases he
  | some f =>
    obtain ⟨e', t⟩ := f
    rw [hfirst] at he
    obtain rfl := Except.error.inj he
    exact hresults _ (firstFailure_eq_some hfirst).1 e' rfl

theorem gathers_upholds : Gathers (Upholds I P : Activity σ ε (Except φ Unit) → Prop) where
  inOrder := upholds_inOrder
  together := upholds_together

end Groups

namespace Step

variable {I : σ → Prop} {P : φ → Prop} {perform : α → Activity σ ε (Except φ Unit)}

/-- **A step keeps up what its leaves do**, and fails in the ways that they fail. -/
theorem upholds_run (s : Step α) (h : ∀ a ∈ s.jobs, Upholds I P (perform a)) :
    Upholds I P (s.run perform) :=
  gathers_upholds.step s h

theorem keeps_run (s : Step α) (h : ∀ a ∈ s.jobs, Keeps I (perform a)) : Keeps I (s.run perform) := by
  have hjobs : ∀ a ∈ s.jobs, Upholds I (fun _ => True) (perform a) :=
    fun a ha => .imp (h a ha) fun _ _ hw => ⟨hw, fun _ _ => trivial⟩
  exact .imp (upholds_run s hjobs) fun _ _ hw => hw.1

end Step

/-! ### Observations -/

/-- Whoever looks at units there keeps up an invariant of the source. -/
structure Source.Keeps (source : Source σ) (I : σ → Prop) : Prop where
  read : ∀ u w, I w → I (source.read u w).2
  subscribe : ∀ u w, I w → I (source.subscribe u w).2

/-- What is watched keeps up an invariant of the source. -/
def Seen.Keeps (I : σ → Prop) (f : StateM (Seen σ) α) : Prop :=
  ∀ seen, I seen.source → I (f seen).2.source

namespace Seen.Keeps

variable {β : Type} {I : σ → Prop} {f : StateM (Seen σ) α} {g : α → StateM (Seen σ) β}

theorem pure (a : α) : Seen.Keeps I (Pure.pure a : StateM (Seen σ) α) :=
  fun _ hs => hs

theorem bind (hf : Seen.Keeps I f) (hg : ∀ a, Seen.Keeps I (g a)) : Seen.Keeps I (f >>= g) :=
  fun seen hs => hg _ _ (hf seen hs)

theorem look {f : StateM σ α} (h : ∀ w, I w → I (f w).2) : Seen.Keeps I (Seen.look f) :=
  fun seen hs => h seen.source hs

/-- The ledger is no part of the source. -/
theorem record (u : UnitRef) (p : Phase) : Seen.Keeps I (Seen.record u p : StateM (Seen σ) Unit) :=
  fun _ hs => hs

end Seen.Keeps

namespace Watch

variable {I : σ → Prop} {source : Source σ} (u : UnitRef) (timeout : Nat)

theorem keeps_giveUp : Seen.Keeps I (giveUp u timeout : StateM (Seen σ) Verdict) :=
  .bind (.record _ _) fun _ => .pure _

theorem keeps_pollFrom (h : source.Keeps I) (interval bound : Nat) :
    ∀ due ready, Seen.Keeps I (pollFrom source u interval timeout bound due ready) := by
  induction bound with
  | zero => exact fun _ _ => keeps_giveUp u timeout
  | succ bound ih =>
    intro due ready
    unfold pollFrom
    dsimp only
    split
    · exact keeps_giveUp u timeout
    · refine .bind (.look (h.read u)) fun reading => ?_
      split
      · exact keeps_giveUp u timeout
      · split
        · refine .bind (.record _ _) fun _ => ?_
          split
          · exact .pure _
          · exact ih _ _
        · exact ih _ _
        · split
          · exact ih _ _
          · exact .pure _

theorem keeps_follow (held : Bool) (items : List (Nat × Except ClusterError Phase)) :
    ∀ progress time, Seen.Keeps I (follow u timeout held progress time items) := by
  induction items with
  | nil => exact fun _ _ => .pure _
  | cons head items ih =>
    obtain ⟨delay, item⟩ := head
    intro progress time
    unfold follow
    dsimp only
    split
    · exact .pure _
    · cases item with
      | error e => exact .pure _
      | ok p =>
        refine .bind (.record _ _) fun _ => ?_
        split
        · exact .pure _
        · exact ih _ _

theorem keeps_attend (h : source.Keeps I) (time : Nat) :
    Seen.Keeps I (attend source u timeout time) := by
  refine .bind (.look (h.subscribe u)) fun answer => ?_
  cases answer with
  | error e => exact .pure _
  | ok feed => exact keeps_follow u timeout _ _ _ _

theorem keeps_respond (r : Reconnect) (fallible : Bool) (count : Nat) (fate : FeedEnd) :
    Seen.Keeps I (respond u r timeout fallible count fate) := by
  cases fate with
  | late => exact .bind (keeps_giveUp u timeout) fun _ => .pure _
  | final p time => exact .pure _
  | disrupted progress time =>
    unfold respond
    dsimp only
    split
    · exact .pure _
    · split
      all_goals
        split
        · exact .pure _
        · exact .pure _

theorem keeps_streamFrom (h : source.Keeps I) (r : Reconnect) (fallible : Bool) (bound : Nat) :
    ∀ count time, Seen.Keeps I (streamFrom source u r fallible timeout bound count time) := by
  induction bound with
  | zero => exact fun _ _ => keeps_giveUp u timeout
  | succ bound ih =>
    intro count time
    rw [streamFrom_succ]
    refine .bind ?_ fun next => ?_
    · unfold pass
      split
      · exact .bind (keeps_giveUp u timeout) fun _ => .pure _
      · exact .bind (keeps_attend u timeout h time) fun fate => keeps_respond u timeout r _ _ fate
    · cases next with
      | inl v => exact .pure v
      | inr next => exact ih next.1 next.2

end Watch

/-- **A watcher keeps up what its looks do.** -/
theorem Watcher.keeps_observe {I : σ → Prop} {source : Source σ} (h : source.Keeps I) (w : Watcher)
    (u : UnitRef) (fallible : Bool) (timeout : Duration) :
    Seen.Keeps I (w.observe source u fallible timeout) := by
  cases w with
  | polling interval =>
    show Seen.Keeps I (Watch.poll source interval.millis u timeout.millis)
    unfold Watch.poll
    split
    · exact .pure _
    · exact Watch.keeps_pollFrom u timeout.millis h interval.millis _ _ _
  | streaming r => exact Watch.keeps_streamFrom u timeout.millis h r fallible _ _ _

/-! ### Jobs -/

/-- The world as a cluster sees it: of the tasks of a run it knows nothing. -/
def Around (I : σ → Prop) (w : World σ) : Prop :=
  I w.seen.source

/-- An errand is part of a run. -/
theorem Leads.around {P : σ → Prop} {Q : α → σ → Prop} {e : Errand σ α}
    (h : Leads (fun seen => P seen.source) e fun a seen => Q a seen.source) :
    Leads (Around P) (Work.see e) fun a => Around (Q a) :=
  fun s hs => h { now := s.now, world := s.world.seen } hs

theorem Leads.aroundCall {P : σ → Prop} {Q : Except ε α → σ → Prop} {c : Cluster σ} {f : Call σ ε α}
    (h : ∀ m, P m → Q (f.run m).1 (f.run m).2) :
    Leads (Around P) (Work.see (Errand.call c f)) fun r => Around (Q r) :=
  .around (.call h)

namespace Keeps

variable {I : σ → Prop}

theorem watch {f : StateM (Seen σ) α} (h : Seen.Keeps I f) :
    Keeps (fun seen : Seen σ => I seen.source) (Errand.watch f) :=
  fun s hs => h s.world hs

theorem call {c : Cluster σ} {f : Call σ ε α} (h : ∀ m, I m → I (f.run m).2) :
    Keeps (fun seen : Seen σ => I seen.source) (Errand.call c f) :=
  Leads.call (P := I) (Q := fun _ => I) h

theorem see {e : Errand σ α} (h : Keeps (fun seen => I seen.source) e) :
    Keeps (Around I) (Work.see e) :=
  Leads.around (P := I) (Q := fun _ => I) h

end Keeps

/-- Where a job is handed to the backend in a scope, an invariant of the source is kept up. -/
structure Backend.Keeps (b : Backend σ) (I : σ → Prop) (scope : RunScope) (j : Job) : Prop where
  submit : EventWorker.Keeps (fun seen => I seen.source) (b.submit j scope)
  observe : ∀ u, EventWorker.Keeps (fun seen => I seen.source) (b.observe j u)

theorem Backend.keeps_watchUnit {I : σ → Prop} {source : Source σ} (h : source.Keeps I) (w : Watcher)
    (j : Job) (u : UnitRef) :
    EventWorker.Keeps (fun seen => I seen.source) (watchUnit source w j u) :=
  .bind .now fun _ => .bind (EventWorker.Keeps.watch (w.keeps_observe h u j.fallible j.timeout))
    fun _ => .bind (.goTo _) fun _ => .pure fun _ hw => hw

theorem composes_keeps (I : World σ → Prop) :
    Composes (fun m => Keeps I m : {β : Type} → Work σ β → Prop) where
  pure _ := .pure fun _ hw => hw
  bind := .bind
  now := .now
  report _ := .emit _

/-- **A job keeps up what its submission and its observation do.** -/
theorem Job.keeps_run {I : σ → Prop} {b : Backend σ} {scope : RunScope} {j : Job}
    (h : b.Keeps I scope j) : Keeps (Around I) (j.run b scope) :=
  (composes_keeps (Around I)).run (.see h.submit) fun u => .see (h.observe u)

/-- A handler that runs a step keeps up what the jobs of the step do. -/
theorem Handler.keeps_ofStep {I : σ → Prop} {b : Backend σ} {scope : RunScope} {s : Step Job}
    (h : ∀ j ∈ s.jobs, b.Keeps I scope j) (e : Event) :
    Keeps (Around I) (Action.performAll ⟨b, scope, e⟩ (Handler.ofStep s scope e)) :=
  leads_ofStep (Step.keeps_run s fun j hj => Job.keeps_run (h j hj)) e

/-! ### The handlers of a run -/

section Handlers

variable {I : σ → Prop}

/-- Taking a task from the list makes no difference to the cluster. -/
theorem keeps_takeTask : Keeps (Around I) (takeTask : Work σ (Option Task)) := by
  refine .bind .now fun now s hs => ?_
  rcases htasks : s.world.tasks with _ | ⟨t, rest⟩
  all_goals simp only [act, modifyGet, MonadStateOf.modifyGet, StateT.modifyGet, htasks]
  · exact hs
  · split
    · exact hs
    · exact hs

theorem keeps_joinWithin (bound : Nat) :
    Keeps (Around I) (joinWithin bound : Work σ (List Task)) := by
  induction bound with
  | zero => exact .pure fun _ hw => hw
  | succ bound ih =>
    refine .bind keeps_takeTask fun t => ?_
    cases t with
    | none => exact .pure fun _ hw => hw
    | some t =>
      have hwait : Keeps (Around I) (waitFor t.finished : Work σ Unit) := by
        refine .bind .now fun now => ?_
        split
        · exact .goTo _
        · exact .pure fun _ hw => hw
      exact .bind hwait fun _ => .bind ih fun _ => .pure fun _ hw => hw

theorem keeps_joinTasks : Keeps (Around I) (joinTasks : Work σ (List Task)) :=
  fun s hs => keeps_joinWithin s.world.tasks.length s hs

namespace Controller

variable {c : Controller σ} {scope : RunScope}
  (h : ∀ e handler, c.bus.handler? e.key = some handler →
    Keeps (Around I) (Action.performAll ⟨c.backend, scope, e⟩ (handler scope e)))

include h

theorem keeps_dispatch (e : Event) : Keeps (Around I) (c.dispatch scope e) := by
  refine .bind (.emit _) fun _ => ?_
  cases hhandler : c.bus.handler? e.key with
  | none => exact .pure fun _ hw => hw
  | some handler =>
    exact .bind (.emit _) fun _ => .bind (.emit _) fun _ => .bind (.await (h e handler hhandler))
      fun _ => .bind (.emit _) fun _ => .pure fun _ hw => hw

theorem keeps_raise (first : Option Failure) (f : Failure) :
    Keeps (Around I) (c.raise scope first f) := by
  refine .bind (.emit _) fun _ => .bind (.emit _) fun _ => ?_
  cases first with
  | some g => exact .pure fun _ hw => hw
  | none => exact .bind (.discard (keeps_dispatch h _)) fun _ => .pure fun _ hw => hw

theorem keeps_raiseAll (fs : List Failure) : ∀ first, Keeps (Around I) (c.raiseAll scope first fs) := by
  induction fs with
  | nil =>
    intro first
    rw [raiseAll]
    exact .pure fun _ hw => hw
  | cons f fs ih =>
    intro first
    rw [raiseAll]
    exact .bind (keeps_raise h first f) fun r => ih r

theorem keeps_handle (first : Option Failure) (e : Event) :
    Keeps (Around I) (c.handle scope first e) :=
  .bind (keeps_dispatch h e) fun _ => .bind (keeps_raiseAll h _ first) fun r =>
    .bind keeps_joinTasks fun _ => .bind (.emit _) fun _ => keeps_raiseAll h _ r

/-- **The handlers of a run keep up what each of them does.** -/
theorem keeps_runHandlers : Keeps (Around I) (c.runHandlers scope) := by
  refine .bind (R := fun _ => Around I) (fun _ hs => hs) fun _ => .bind (.emit _) fun _ =>
    .bind (keeps_handle h none scope.event) fun first => ?_
  split
  · exact .bind (keeps_handle h first _) fun r => .bind (.emit _) fun _ => .pure fun _ hw => hw
  · exact .bind (.emit _) fun _ => .pure fun _ hw => hw

end Controller

end Handlers

end EventWorker
