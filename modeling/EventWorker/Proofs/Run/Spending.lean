import Mathlib.Data.List.Perm.Subperm
import EventWorker.Proofs.Run.Keeping

/-!
# What a run uses up

A run comes to each of its jobs once at most. To make use of that, an invariant is told of the world
together with a list of what may still come, and it holds of any shorter list, in whatever order (`Wanes`).
Work uses up what it comes to if it leads from a list that begins with that to the rest of the list
(`Spends`). A group uses up what its members do, even if it does not come to all of them, and a step its
jobs. The handlers of a run use up the jobs for three events: that of the run, the one that tells of the
first failure, and the one that comes after.

Main statement: `Controller.spends_runHandlers`.
-/

namespace EventWorker

open Activity

variable {σ ε ι α φ : Type}

/-- Of less there is less to say. -/
def Wanes (I : List ι → σ → Prop) : Prop :=
  ∀ xs ys w, ys.Subperm xs → I xs w → I ys w

/-- Work that comes to nothing but `xs`, and to none of them twice. -/
def Spends (I : List ι → σ → Prop) (xs : List ι) (m : Activity σ ε α) : Prop :=
  ∀ rest, Leads (I (xs ++ rest)) m fun _ => I rest

/-! ### Groups -/

section Groups

variable {I : List ι → σ → Prop} (hI : Wanes I) {xss : List (List ι)}
  {members : List (Activity σ ε (Except φ Unit))}

include hI

theorem spends_inOrder (h : List.Forall₂ (Spends I) xss members) :
    Spends I xss.flatten (inOrder members) := by
  induction h with
  | nil => exact fun rest => .pure fun w hw => hw
  | @cons xs m xss members hm _ ih =>
    intro rest
    rw [List.flatten_cons, List.append_assoc]
    refine .bind (hm _) fun r => ?_
    cases r with
    | ok _ => exact ih rest
    | error e => exact .pure fun w hw => hI _ _ w (List.sublist_append_right _ _).subperm hw

omit hI in
/-- Each member works on the world that the one before it has left. -/
theorem spends_each (h : List.Forall₂ (Spends I) xss members) (start : Moment) (rest : List ι) :
    ∀ (o : Opening) (s : Scene σ ε), I (xss.flatten ++ rest) s.world →
      I rest (each start o members s).2.world := by
  induction h with
  | nil => exact fun o s hs => hs
  | @cons xs m xss members hm _ ih =>
    intro o s hs
    let begun := o.next start s.depth
    let t := member begun m s
    rw [List.flatten_cons, List.append_assoc] at hs
    have hmember : I (xss.flatten ++ rest) t.2.world :=
      hm _ { s with now := begun, depth := s.depth + 1, gaveWay := none } hs
    exact ih (o.add (t.1.2.1 == begun) t.1.2.2) t.2 hmember

omit hI in
theorem spends_together (h : List.Forall₂ (Spends I) xss members) :
    Spends I xss.flatten (together members) := by
  intro rest s hs
  rw [together_eq]
  exact spends_each h s.now rest {} s hs

theorem spends_inBatches (n : Nat) (h : List.Forall₂ (Spends I) xss members) :
    Spends I xss.flatten (inBatches n members) := by
  have hbatches : List.Forall₂ (Spends I) ((chunks n xss).map List.flatten)
      ((chunks n members).map together) := by
    rw [List.forall₂_map_left_iff, List.forall₂_map_right_iff]
    exact (forall₂_chunks n h).imp fun _ _ hpiece => spends_together hpiece
  have hflatten : ((chunks n xss).map List.flatten).flatten = xss.flatten := by
    rw [← List.flatten_flatten, flatten_chunks]
  rw [← hflatten]
  exact spends_inOrder hI hbatches

end Groups

/-! ### Steps -/

namespace Step

variable {I : List α → σ → Prop} {perform : α → Activity σ ε (Except φ Unit)}

theorem jobsOfAll_eq_flatten (steps : List (Step α)) : jobsOfAll steps = (steps.map jobs).flatten := by
  induction steps with
  | nil => rfl
  | cons s rest ih => rw [jobsOfAll, ih, List.map_cons, List.flatten_cons]

mutual

/-- **A step uses up its jobs.** -/
theorem spends_run (hI : Wanes I) (h : ∀ a, Spends I [a] (perform a)) :
    (s : Step α) → Spends I s.jobs (s.run perform)
  | job a => by
    rw [run, jobs]
    exact h a
  | serial steps => by
    rw [run, jobs, jobsOfAll_eq_flatten]
    exact spends_inOrder hI (spends_runs hI h steps)
  | concurrent steps => by
    rw [run, jobs, jobsOfAll_eq_flatten]
    exact spends_together (spends_runs hI h steps)
  | batched limit steps => by
    rw [run, jobs, jobsOfAll_eq_flatten]
    exact spends_inBatches hI limit (spends_runs hI h steps)

theorem spends_runs (hI : Wanes I) (h : ∀ a, Spends I [a] (perform a)) : (steps : List (Step α)) →
    List.Forall₂ (Spends I) (steps.map jobs) (runs perform steps)
  | [] => by
    rw [runs]
    exact .nil
  | s :: rest => by
    rw [runs]
    exact .cons (spends_run hI h s) (spends_runs hI h rest)

end

end Step

/-! ### Runs -/

/-- A job uses up what its submission does. -/
theorem Job.leads_around {b : Backend σ} {scope : RunScope} {j : Job} {P Q : σ → Prop}
    (hsubmit : Leads (fun seen => P seen.source) (b.submit j scope) fun _ seen => Q seen.source)
    (hobserve : ∀ u, Keeps (fun seen => Q seen.source) (b.observe j u)) :
    Leads (Around P) (j.run b scope) fun _ => Around Q := by
  refine leads_run (.bind (.around (P := P) (Q := fun _ => Q) hsubmit) fun r => ?_)
  cases r with
  | error e => exact .pure fun _ hw => hw
  | ok u =>
    refine .bind (.emit _) fun _ => .bind (Keeps.see (hobserve u)) fun r => ?_
    cases r with
    | error e => exact .pure fun _ hw => hw
    | ok p => exact .pure fun _ hw => hw

namespace Controller

/-- The jobs for the events of a key. -/
def jobsFor (steps : EventKey → Option (Step Job)) (key : EventKey) : List Job :=
  ((steps key).map Step.jobs).getD []

/-- What may still come besides the rest: the jobs for a failure, as long as there has been none. -/
def leftOver (steps : EventKey → Option (Step Job)) (scope : RunScope) (rest : List Job) :
    Option Failure → List Job
  | none => jobsFor steps (scope.event.source, errorType) ++ rest
  | some _ => rest

variable {c : Controller σ} {scope : RunScope} {steps : EventKey → Option (Step Job)}
  {I : List Job → σ → Prop} (hI : Wanes I)
  (hhandler : ∀ key, c.bus.handler? key = (steps key).map Handler.ofStep)
  (hjob : ∀ j, Spends (fun jobs => Around (I jobs)) [j] (Job.run c.backend scope j))

include hI in
theorem wanes_around : Wanes fun jobs => Around (I jobs) :=
  fun xs ys w hsub hw => hI xs ys w.seen.source hsub hw

include hI hhandler hjob

theorem spends_dispatch (e : Event) :
    Spends (fun jobs => Around (I jobs)) (jobsFor steps e.key) (c.dispatch scope e) := by
  intro rest
  rw [dispatch, jobsFor]
  refine .bind (.emit _) fun _ => ?_
  have hkey := hhandler e.key
  cases hstep : steps e.key with
  | none =>
    rw [hstep, Option.map_none] at hkey
    simp only [hkey]
    exact .pure fun _ hw => hw
  | some s =>
    rw [hstep, Option.map_some] at hkey
    simp only [hkey]
    have hwork := Handler.leads_ofStep (Step.spends_run (wanes_around hI) hjob s rest) e
    exact .bind (.emit _) fun _ => .bind (.emit _) fun _ => .bind (.await hwork) fun _ =>
      .bind (.emit _) fun _ => .pure fun _ hw => hw

/-- Only the first failure is told of. -/
theorem leftOver_raise (rest : List Job) (first : Option Failure) (f : Failure) :
    Leads (Around (I (leftOver steps scope rest first))) (c.raise scope first f)
      fun r => Around (I (leftOver steps scope rest r)) := by
  unfold raise
  refine .bind (.emit _) fun _ => .bind (.emit _) fun _ => ?_
  cases first with
  | some g => exact .pure fun _ hw => hw
  | none =>
    have hdispatch := spends_dispatch hI hhandler hjob (errorEvent scope.event f) rest
    exact .bind (.discard hdispatch) fun _ => .pure fun _ hw => hw

theorem leftOver_raiseAll (rest : List Job) (fs : List Failure) : ∀ first,
    Leads (Around (I (leftOver steps scope rest first))) (c.raiseAll scope first fs)
      fun r => Around (I (leftOver steps scope rest r)) := by
  induction fs with
  | nil =>
    intro first
    rw [raiseAll]
    exact .pure fun _ hw => hw
  | cons f fs ih =>
    intro first
    rw [raiseAll]
    exact .bind (leftOver_raise hI hhandler hjob rest first f) fun r => ih r

theorem leftOver_handle (rest : List Job) (first : Option Failure) (e : Event) :
    Leads (Around (I (jobsFor steps e.key ++ leftOver steps scope rest first))) (c.handle scope first e)
      fun r => Around (I (leftOver steps scope rest r)) :=
  .bind (spends_dispatch hI hhandler hjob e _) fun _ =>
    .bind (leftOver_raiseAll hI hhandler hjob rest _ first) fun r =>
      .bind keeps_joinTasks fun _ => .bind (.emit _) fun _ => leftOver_raiseAll hI hhandler hjob rest _ r

/-- **The handlers of a run use up the jobs for its event, for a failure, and for what comes after.** -/
theorem spends_runHandlers : Leads
    (Around (I (jobsFor steps scope.event.key ++ (jobsFor steps (scope.event.source, errorType) ++
      jobsFor steps (scope.event.source, afterType)))))
    (c.runHandlers scope) fun _ => Around (I []) := by
  have hdone : ∀ xs w, Around (I xs) w → Around (I []) w :=
    fun xs w hw => hI xs [] w.seen.source List.nil_subperm hw
  refine .bind (R := fun _ => _) (fun _ hs => hs) fun _ => .bind (.emit _) fun _ =>
    .bind (leftOver_handle hI hhandler hjob _ none scope.event) fun first => ?_
  split
  · have hkey : (afterEvent scope.event first).key = (scope.event.source, afterType) := by
      cases first <;> rfl
    have hafter := leftOver_handle hI hhandler hjob [] first (afterEvent scope.event first)
    rw [hkey] at hafter
    -- without a failure so far, the jobs for one may still come while what comes after is handled
    refine .bind (.weaken hafter fun w hw => hI _ _ w.seen.source ?_ hw) fun r =>
      .bind (.emit _) fun _ => .pure fun w hw => hdone _ w hw
    cases first with
    | none =>
      rw [leftOver, leftOver, List.append_nil]
      exact List.perm_append_comm.subperm
    | some f => exact (List.append_nil _).symm ▸ List.Subperm.refl _
  · exact .bind (.emit _) fun _ => .pure fun w hw => hdone _ w hw

end Controller

end EventWorker
