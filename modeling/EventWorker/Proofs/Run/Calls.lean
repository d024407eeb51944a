import EventWorker.Proofs.Run.Deeds
import EventWorker.Proofs.Run.Forest

/-!
# What a run calls

The journal says what the controller means to do. What it does is to call others: the loader of projects,
the storage and the handlers (`Invocation`). A call acts on the scene in which it begins, and whatever it
does there can be read off the scene that it leaves. So a run is a chain of calls (`Chain`): each one begins
in the scene that the one before it has left, but for the time that has passed, for what the controller has
written down meanwhile and for the tasks that it keeps (`Alone`). There is no room in it for a call that is
left out, nor for one that is made twice.

What the controller writes down is tied to the calls (`Led`): the events that it has called handlers for,
what it has heard of them, and the tasks that have been set off are those of the calls in their order.

Main statement: `run_calls`. A run that comes to a report asks for the volume, calls handlers, and gives the
volume back; one that is broken off calls no handler and gives nothing back.
-/

namespace EventWorker

open Activity

variable {σ α β : Type}

/-! ### What is heard of handlers -/

/-- Of what event, and of what failure of its handler, the controller learns. -/
def Deed.heard? : Deed → Option (Event × Option String)
  | hear e failure => some (e, failure)
  | _ => none

namespace Journal

/-- What the controller has learned of handlers, one after another. -/
def heard (j : Journal) : List (Event × Option String) :=
  j.deeds.filterMap Deed.heard?

theorem called_append (i j : Journal) : called (i ++ j) = called i ++ called j := by
  rw [called, deeds_append, List.filterMap_append]
  rfl

theorem heard_append (i j : Journal) : heard (i ++ j) = heard i ++ heard j := by
  rw [heard, deeds_append, List.filterMap_append]
  rfl

theorem mem_heard {j : Journal} {e : Event} {failure : Option String} :
    (e, failure) ∈ j.heard ↔ Deed.hear e failure ∈ j.deeds := by
  rw [heard, List.mem_filterMap]
  constructor
  · rintro ⟨d, hd, hheard⟩
    cases d with
    | hear e' failure' =>
      cases hheard
      exact hd
    | _ => cases hheard
  · exact fun hd => ⟨_, hd, rfl⟩

end Journal

/-- An entry that the controller may write down by itself: no change made to the cluster, no remark of a
handler, and no task. -/
structure Entry.IsOwn (e : Entry) : Prop where
  operation : e.operation? = none
  remark : e.remark? = none
  task : e.task? = none

/-- From one scene to another nothing has been called: time has gone on, and the controller has taken tasks to
wait for and written down a journal of its own, but all else is as it was. -/
structure Alone (s t : Scene (World σ) Entry) (j : Journal) : Prop where
  frame : t = { s with
    now := t.now
    world := { s.world with tasks := t.world.tasks }
    log := s.log ++ j }
  forward : s.now.le t.now
  own : ∀ e ∈ j, e.2.IsOwn

namespace Alone

variable {s t u : Scene (World σ) Entry} {i j : Journal}

theorem seen (h : Alone s t j) : t.world.seen = s.world.seen :=
  congrArg (·.world.seen) h.frame

theorem log (h : Alone s t j) : t.log = s.log ++ j :=
  congrArg (·.log) h.frame

theorem trans (hst : Alone s t i) (htu : Alone t u j) : Alone s u (i ++ j) where
  frame := by
    have hframe := htu.frame
    rw [hst.frame] at hframe
    rw [← List.append_assoc]
    exact hframe
  forward := Moment.le_trans hst.forward htu.forward
  own e he := (List.mem_append.1 he).elim (hst.own e) (htu.own e)

/-- Nothing is written down. -/
theorem silent (hframe : t = { s with now := t.now, world := { s.world with tasks := t.world.tasks } })
    (hforward : s.now.le t.now) : Alone s t [] where
  frame := by
    rw [List.append_nil]
    exact hframe
  forward := hforward
  own _ he := absurd he List.not_mem_nil

theorem refl (s : Scene (World σ) Entry) : Alone s s [] :=
  .silent rfl s.now.le_refl

theorem emit {e : Entry} (he : e.IsOwn) (s : Scene (World σ) Entry) :
    Alone s (Activity.emit e s).2 [(s.now, e)] where
  frame := rfl
  forward := s.now.le_refl
  own x hx := by
    rw [List.mem_singleton.1 hx]
    exact he

theorem pause (s : Scene (World σ) Entry) : Alone s (Activity.pause s).2 [] :=
  .silent rfl s.now.le_next

theorem tasks (h : Alone s t j) : j.tasks = [] :=
  List.filterMap_eq_nil_iff.2 fun e he => (h.own e he).task

end Alone

namespace Controller

/-! ### Calls -/

/-- What the handler of an event does, if there is one. -/
def actions (c : Controller σ) (scope : RunScope) (e : Event) : List Action :=
  match c.bus.handler? e.key with
  | some handler => handler scope e
  | none => []

/-- A call of the handler of an event, in the scene in which it begins. -/
structure HandlerCall (σ : Type) where
  scope : RunScope
  event : Event
  begun : Scene (World σ) Entry

namespace HandlerCall

variable (k : HandlerCall σ) (c : Controller σ)

def surroundings : Surroundings σ :=
  ⟨c.backend, k.scope, k.event⟩

/-- What the handler comes to. -/
def outcome : Except Fault Unit :=
  (Action.performAll (k.surroundings c) (c.actions k.scope k.event) k.begun).1

/-- The scene that the handler leaves. -/
def ended : Scene (World σ) Entry :=
  (Action.performAll (k.surroundings c) (c.actions k.scope k.event) k.begun).2

/-- What the handler sets off in the background, and what this sets off in its turn. -/
def forest : List Branch :=
  Action.setOffAll (k.surroundings c) (c.actions k.scope k.event) k.begun

/-- The handler has failed or broken down. -/
def Failed : Prop :=
  ∃ f, k.outcome c = .error f

end HandlerCall

/-- A call of anything that the controller does not do by itself, in the scene in which it begins. -/
inductive Invocation (σ : Type) where
  | load (id : String) (begun : Scene (World σ) Entry)
  | provision (event : Event) (project : Project) (begun : Scene (World σ) Entry)
  | handler (call : HandlerCall σ)
  | release (event : Event) (project : Project) (begun : Scene (World σ) Entry)

namespace Invocation

def begun : Invocation σ → Scene (World σ) Entry
  | load _ s | provision _ _ s | release _ _ s => s
  | handler k => k.begun

/-- The scene that is left by a call. -/
def ended (c : Controller σ) : Invocation σ → Scene (World σ) Entry
  | load id s => (Work.see (c.load id) s).2
  | provision event project s => (Work.see (c.storage.provision event project) s).2
  | handler k => k.ended c
  | release event project s => (Work.see (c.storage.release event project) s).2

end Invocation

/-- From one scene to another there have been these calls in this order, and no others. -/
def Chain (c : Controller σ) : List (Invocation σ) → Scene (World σ) Entry → Scene (World σ) Entry → Prop
  | [], s, t => ∃ j, Alone s t j
  | k :: ks, s, t => (∃ j, Alone s k.begun j) ∧ Chain c ks (k.ended c) t

namespace Chain

variable {c : Controller σ} {s t u : Scene (World σ) Entry} {ks ls : List (Invocation σ)} {j : Journal}

theorem alone_left (hst : Alone s t j) (htu : Chain c ks t u) : Chain c ks s u := by
  cases ks with
  | nil =>
    obtain ⟨i, hi⟩ := htu
    exact ⟨j ++ i, hst.trans hi⟩
  | cons k ks =>
    obtain ⟨⟨i, hi⟩, hks⟩ := htu
    exact ⟨⟨j ++ i, hst.trans hi⟩, hks⟩

theorem append (hst : Chain c ks s t) (htu : Chain c ls t u) : Chain c (ks ++ ls) s u := by
  induction ks generalizing s with
  | nil =>
    obtain ⟨j, hj⟩ := hst
    exact htu.alone_left hj
  | cons k ks ih => exact ⟨hst.1, ih hst.2⟩

/-- One call, and what it has led to. -/
theorem single {k : Invocation σ} (hbegun : Alone s k.begun j) (hended : k.ended c = t) :
    Chain c [k] s t :=
  ⟨⟨j, hbegun⟩, [], hended ▸ .refl t⟩

/-- A record in the world that calls add to, and nothing else. -/
theorem recorded {record : Seen σ → List β} {entries : Invocation σ → List β} (hst : Chain c ks s t)
    (h : ∀ k, record (k.ended c).world.seen = record k.begun.world.seen ++ entries k) :
    record t.world.seen = record s.world.seen ++ ks.flatMap entries := by
  induction ks generalizing s with
  | nil =>
    obtain ⟨j, hj⟩ := hst
    rw [hj.seen, List.flatMap_nil, List.append_nil]
  | cons k ks ih =>
    obtain ⟨⟨j, hj⟩, hks⟩ := hst
    rw [ih hks, h k, hj.seen, List.append_assoc, List.flatMap_cons]

end Chain

/-! ### Work that calls handlers -/

/-- What a journal says of handlers that have been called: for which events, and what has been heard of them
and set off by them. -/
structure Told (c : Controller σ) (scope : RunScope) (ks : List (HandlerCall σ)) (j : Journal) : Prop where
  scopes : ∀ k ∈ ks, k.scope = scope
  handled : ∀ k ∈ ks, c.bus.handles k.event.key
  called : j.called = ks.map (·.event)
  heard : j.heard = ks.map fun k => (k.event, Fault.reason? "handler" (k.outcome c))
  tasks : j.tasks = ks.flatMap fun k => (k.forest c).map Branch.task

namespace Told

variable {c : Controller σ} {scope : RunScope} {ks ls : List (HandlerCall σ)} {i j : Journal}

theorem append (hi : Told c scope ks i) (hj : Told c scope ls j) : Told c scope (ks ++ ls) (i ++ j) where
  scopes k hk := (List.mem_append.1 hk).elim (hi.scopes k) (hj.scopes k)
  handled k hk := (List.mem_append.1 hk).elim (hi.handled k) (hj.handled k)
  called := by rw [Journal.called_append, hi.called, hj.called, List.map_append]
  heard := by rw [Journal.heard_append, hi.heard, hj.heard, List.map_append]
  tasks := by rw [Journal.tasks_append, hi.tasks, hj.tasks, List.flatMap_append]

/-- Where no handler is called there is nothing to be said of any. -/
theorem nil (hcalled : j.called = []) (hheard : j.heard = []) (htasks : j.tasks = []) :
    Told c scope [] j where
  scopes _ hk := absurd hk List.not_mem_nil
  handled _ hk := absurd hk List.not_mem_nil
  called := hcalled
  heard := hheard
  tasks := htasks

theorem of_isWork (h : j.IsWork) : Told c scope [] j :=
  .nil (by rw [Journal.called, h.deeds]; rfl) (by rw [Journal.heard, h.deeds]; rfl) h.tasks

/-- The controller says that it calls a handler, and afterwards what has come of it. -/
theorem single {k : HandlerCall σ} (hhandled : c.bus.handles k.event.key)
    (hcalled : j.called = [k.event])
    (hheard : j.heard = [(k.event, Fault.reason? "handler" (k.outcome c))])
    (htasks : j.tasks = (k.forest c).map Branch.task) : Told c k.scope [k] j where
  scopes h hh := congrArg _ (List.mem_singleton.1 hh)
  handled h hh := by
    rw [List.mem_singleton.1 hh]
    exact hhandled
  called := hcalled
  heard := hheard
  tasks := by rw [List.flatMap_singleton, htasks]

end Told

/-- From one scene to another what has been written down is what has come of these calls. -/
def Tells (c : Controller σ) (scope : RunScope) (s : Scene (World σ) Entry) (ks : List (HandlerCall σ))
    (t : Scene (World σ) Entry) : Prop :=
  ∃ j, t.log = s.log ++ j ∧ Told c scope ks j

theorem Tells.trans {c : Controller σ} {scope : RunScope} {s t u : Scene (World σ) Entry}
    {ks ls : List (HandlerCall σ)} (hst : Tells c scope s ks t) (htu : Tells c scope t ls u) :
    Tells c scope s (ks ++ ls) u := by
  obtain ⟨i, hi, hti⟩ := hst
  obtain ⟨j, hj, htj⟩ := htu
  refine ⟨i ++ j, ?_, hti.append htj⟩
  rw [hj, hi, List.append_assoc]

theorem Tells.of_alone {c : Controller σ} {scope : RunScope} {s t : Scene (World σ) Entry} {j : Journal}
    (h : Alone s t j) (hcalled : j.called = []) (hheard : j.heard = []) : Tells c scope s [] t :=
  ⟨j, h.log, .nil hcalled hheard h.tasks⟩

/-- From one scene to another handlers have been called, and what has been written down is what has come of
them. -/
structure Led (c : Controller σ) (scope : RunScope) (s : Scene (World σ) Entry)
    (ks : List (HandlerCall σ)) (t : Scene (World σ) Entry) : Prop where
  chain : c.Chain (ks.map .handler) s t
  tells : Tells c scope s ks t

namespace Led

variable {c : Controller σ} {scope : RunScope} {s t u : Scene (World σ) Entry} {ks ls : List (HandlerCall σ)}
  {i j : Journal}

theorem trans (hst : Led c scope s ks t) (htu : Led c scope t ls u) : Led c scope s (ks ++ ls) u where
  chain := by
    rw [List.map_append]
    exact hst.chain.append htu.chain
  tells := hst.tells.trans htu.tells

/-- Where nothing is called and the controller does not say that anything is, no handler has been called. -/
theorem of_alone (h : Alone s t j) (hcalled : j.called = []) (hheard : j.heard = []) :
    Led c scope s [] t :=
  ⟨⟨j, h⟩, .of_alone h hcalled hheard⟩

/-- A handler is called, and the controller says so before, and says afterwards what has come of it. -/
theorem single {k : HandlerCall σ} (hhandled : c.bus.handles k.event.key) (hbegun : Alone s k.begun i)
    (hended : Alone (k.ended c) t j) (hcall : i.called = [k.event]) (hunheard : i.heard = [])
    (huncalled : j.called = []) (hhear : j.heard = [(k.event, Fault.reason? "handler" (k.outcome c))]) :
    Led c k.scope s [k] t := by
  obtain ⟨work, hwork, htasks, hdeeds, -⟩ := Action.passes_performAll (k.surroundings c)
    (c.actions k.scope k.event) k.begun
  have hcalled : work.called = [] := by rw [Journal.called, hdeeds]; rfl
  have hheard : work.heard = [] := by rw [Journal.heard, hdeeds]; rfl
  refine ⟨⟨⟨i, hbegun⟩, j, hended⟩, i ++ work ++ j, ?_, .single hhandled ?_ ?_ ?_⟩
  · have hleft : (k.ended c).log = k.begun.log ++ work := hwork.log
    rw [hended.log, hleft, hbegun.log, List.append_assoc s.log, List.append_assoc s.log]
  · rw [Journal.called_append, Journal.called_append, hcall, hcalled, huncalled]
    rfl
  · rw [Journal.heard_append, Journal.heard_append, hunheard, hheard, hhear]
    rfl
  · rw [Journal.tasks_append, Journal.tasks_append, hbegun.tasks, htasks, hended.tasks]
    exact List.append_nil _

end Led

/-- Work that calls handlers, and nothing else. -/
def Conducts (c : Controller σ) (scope : RunScope) (m : Work σ α) : Prop :=
  ∀ s, ∃ ks, Led c scope s ks (m s).2

namespace Conducts

variable {c : Controller σ} {scope : RunScope}

theorem bind {m : Work σ α} {f : α → Work σ β} (hm : Conducts c scope m) (hf : ∀ x, Conducts c scope (f x)) :
    Conducts c scope (m >>= f) := by
  intro s
  obtain ⟨ks, hks⟩ := hm s
  obtain ⟨ls, hls⟩ := hf (m s).1 (m s).2
  exact ⟨ks ++ ls, hks.trans hls⟩

/-- Work that calls nothing, and writes nothing down. -/
theorem silent {m : Work σ α} (h : ∀ s, Alone s (m s).2 []) : Conducts c scope m :=
  fun s => ⟨[], .of_alone (h s) rfl rfl⟩

theorem pure (x : α) : Conducts c scope (Pure.pure x : Work σ α) :=
  silent .refl

theorem report (p : Progress) : Conducts c scope (Work.report p : Work σ Unit) :=
  fun s => ⟨[], .of_alone (.emit ⟨rfl, rfl, rfl⟩ s) rfl rfl⟩

theorem reach (stage : Stage) : Conducts c scope (Work.reach stage : Work σ Unit) :=
  fun s => ⟨[], .of_alone (.emit ⟨rfl, rfl, rfl⟩ s) rfl rfl⟩

/-- A deed is recorded that is neither the call of a handler nor what comes of it. -/
theorem record {d : Deed} (hcalled : d.called? = none) (hheard : d.heard? = none) :
    Conducts c scope (Work.record d : Work σ Unit) := by
  refine fun s => ⟨[], .of_alone (.emit ⟨rfl, rfl, rfl⟩ s) ?_ ?_⟩
  · exact List.filterMap_cons_none hcalled
  · exact List.filterMap_cons_none hheard

theorem joinTasks : Conducts c scope (joinTasks : Work σ (List Task)) := by
  have htake : Conducts c scope (takeTask : Work σ (Option Task)) := by
    refine silent fun s => ?_
    by_cases h : ∃ t rest, s.world.tasks = t :: rest ∧ t.begun.le s.now
    · obtain ⟨t, rest, hs, ht⟩ := h
      rw [takeTask_cons hs ht]
      exact .silent rfl s.now.le_refl
    · rw [takeTask_of_late fun t rest hs ht => h ⟨t, rest, hs, ht⟩]
      exact .refl s
  have hwait : ∀ m, Conducts c scope (waitFor m : Work σ Unit) := by
    refine fun m => silent fun s => ?_
    obtain ⟨later, hm, hlater, -⟩ := waitFor_eq m s
    rw [hm]
    exact .silent rfl hlater
  have hwithin : ∀ bound, Conducts c scope (joinWithin bound : Work σ (List Task)) := by
    intro bound
    induction bound with
    | zero => exact .pure _
    | succ bound ih =>
      refine htake.bind fun taken => ?_
      cases taken with
      | none => exact .pure _
      | some t => exact (hwait t.finished).bind fun _ => ih.bind fun _ => .pure _
  exact (silent .refl).bind fun w => hwithin w.tasks.length

/-- Passing an event to its handler is one call, and what the handler comes to is what is heard of it. -/
theorem dispatch (e : Event) : Conducts c scope (c.dispatch scope e) := by
  have hfire : Conducts c scope (Work.record (.fire e) : Work σ Unit) := record rfl rfl
  cases h : c.bus.handler? e.key with
  | none =>
    rw [Controller.dispatch, h]
    exact hfire.bind fun _ => .pure _
  | some handler =>
    intro s
    have hactions : c.actions scope e = handler scope e := by rw [actions, h]
    have hhandles : c.bus.handles e.key := by rw [Bus.handles, h]; rfl
    let before : Scene (World σ) Entry := (Work.record (.call e) (Work.report (.fired e.source e.type)
      (Work.record (.fire e) s).2).2).2
    let k : HandlerCall σ := ⟨scope, e, (pause before).2⟩
    let failure := Fault.reason? "handler" (k.outcome c)
    let after : Scene (World σ) Entry := (Work.record (.hear e failure) (pause (k.ended c)).2).2
    have hdispatch : (c.dispatch scope e s).2 = after := by
      simp only [after, failure, k, HandlerCall.ended, HandlerCall.outcome, hactions]
      simp only [Controller.dispatch, h]
      rfl
    have hbegun : Alone s k.begun ([(s.now, .deed (.fire e))] ++
        [(s.now, .progress (.fired e.source e.type))] ++ [(s.now, .deed (.call e))] ++ []) :=
      (((Alone.emit ⟨rfl, rfl, rfl⟩ s).trans (.emit ⟨rfl, rfl, rfl⟩ _)).trans
        (.emit ⟨rfl, rfl, rfl⟩ _)).trans (.pause before)
    have hafter : Alone (k.ended c) after ([] ++ [((k.ended c).now.next, .deed (.hear e failure))]) :=
      (Alone.pause (k.ended c)).trans (.emit ⟨rfl, rfl, rfl⟩ _)
    refine ⟨[k], ?_⟩
    rw [hdispatch]
    exact .single hhandles hbegun hafter rfl rfl rfl rfl

/-- Raising a failure calls a handler once at most. -/
theorem raise (first : Option Failure) (f : Failure) :
    Conducts c scope (c.raise scope first f) := by
  have hrecord : Conducts c scope (Work.record (.raise f) : Work σ Unit) := record rfl rfl
  refine hrecord.bind fun _ => (report _).bind fun _ => ?_
  cases first with
  | some g => exact .pure _
  | none => exact (dispatch _).bind fun _ => .pure _

theorem raiseAll (first : Option Failure) (fs : List Failure) :
    Conducts c scope (c.raiseAll scope first fs) := by
  induction fs generalizing first with
  | nil =>
    rw [Controller.raiseAll]
    exact .pure _
  | cons f fs ih =>
    rw [Controller.raiseAll]
    exact (raise first f).bind ih

theorem handle (first : Option Failure) (e : Event) : Conducts c scope (c.handle scope first e) :=
  (dispatch e).bind fun _ => (raiseAll _ _).bind fun _ => joinTasks.bind fun tasks =>
    (record (d := .join tasks) rfl rfl).bind fun _ => raiseAll _ _

variable (c scope) in
/-- All that is called while the volume is there are handlers. -/
theorem runHandlers : Conducts c scope (c.runHandlers scope) := by
  refine (silent fun s => .silent rfl s.now.le_refl).bind fun _ => (reach _).bind fun _ =>
    (handle none scope.event).bind fun first => ?_
  split
  · exact (handle first _).bind fun _ => (reach _).bind fun _ => .pure _
  · exact (reach _).bind fun _ => .pure _

end Conducts

/-! ### A run -/

/-- The calls of a run that comes to a report. -/
structure Calls (σ : Type) where
  project : Project
  /-- The scenes in which the project is loaded, and the volume asked for and given back. -/
  loading : Scene (World σ) Entry
  provisioning : Scene (World σ) Entry
  releasing : Scene (World σ) Entry
  handlers : List (HandlerCall σ)

/-- First the project is loaded, then the volume is asked for, then handlers are called, and at last the
volume is given back. -/
def Calls.all (k : Calls σ) (id : String) (event : Event) : List (Invocation σ) :=
  .load id k.loading :: .provision event k.project k.provisioning ::
    (k.handlers.map .handler ++ [.release event k.project k.releasing])

/-- What is known of the calls of a run that comes to a report. -/
structure Ran (c : Controller σ) (id : String) (event : Event) (s : Scene (World σ) Entry)
    (k : Calls σ) : Prop where
  chain : c.Chain (k.all id event) s (c.run id event s).2
  loaded : (Work.see (c.load id) k.loading).1 = .ok k.project
  provisioned : (Work.see (c.storage.provision event k.project) k.provisioning).1 = .ok ()
  told : Told c { event, project := k.project } k.handlers (c.journal id event s)

/-- What a run calls that is broken off: neither a handler, nor is there anything to be given back. -/
inductive BrokenOff (c : Controller σ) (id : String) (event : Event) (s : Scene (World σ) Entry) : Prop where
  /-- The project cannot be loaded. -/
  | load (loading : Scene (World σ) Entry) (e : ClusterError)
      (failed : (Work.see (c.load id) loading).1 = .error e)
      (chain : c.Chain [.load id loading] s (c.run id event s).2)
  /-- The volume is not to be had. -/
  | provision (project : Project) (loading provisioning : Scene (World σ) Entry) (e : ClusterError)
      (loaded : (Work.see (c.load id) loading).1 = .ok project)
      (failed : (Work.see (c.storage.provision event project) provisioning).1 = .error e)
      (chain : c.Chain [.load id loading, .provision event project provisioning] s (c.run id event s).2)

/-- An errand is written down as nothing but work, and the controller says nothing before it of handlers. -/
theorem Tells.see {c : Controller σ} {scope : RunScope} {e : Errand σ α} {s t u : Scene (World σ) Entry}
    {j : Journal} (hbegun : Alone s t j) (hcalled : j.called = []) (hheard : j.heard = [])
    (hsee : (Work.see e t).2 = u) : Tells c scope s [] u := by
  obtain ⟨i, hi, hwork⟩ := see_log e t
  rw [hsee] at hi
  exact (Tells.of_alone hbegun hcalled hheard).trans ⟨i, hi, .of_isWork hwork⟩

/-- The scene in which a run loads its project. -/
def loadingIn (s : Scene (World σ) Entry) : Scene (World σ) Entry :=
  (Work.reach .idle s).2

/-- The scene in which the volume is asked for once the project is loaded. -/
def provisioningIn (event : Event) (project : Project) (s : Scene (World σ) Entry) :
    Scene (World σ) Entry :=
  (Work.record (.provision event project) (Work.reach .projectLoaded s).2).2

/-- The scene in which the volume is given back once the handlers are done. -/
def releasingIn (event : Event) (project : Project) (s : Scene (World σ) Entry) : Scene (World σ) Entry :=
  (Work.record (.release event project) s).2

section Parts

variable {c : Controller σ} {id : String} {event : Event} {project : Project} {e : ClusterError}
  {s s₁ s₂ : Scene (World σ) Entry}

theorem alone_loadingIn (s : Scene (World σ) Entry) : Alone s (loadingIn s) [(s.now, .reached .idle)] :=
  .emit ⟨rfl, rfl, rfl⟩ s

theorem alone_provisioningIn (event : Event) (project : Project) (s : Scene (World σ) Entry) :
    Alone s (provisioningIn event project s)
      ([(s.now, .reached .projectLoaded)] ++ [(s.now, .deed (.provision event project))]) :=
  (Alone.emit ⟨rfl, rfl, rfl⟩ s).trans (.emit ⟨rfl, rfl, rfl⟩ _)

theorem alone_releasingIn (event : Event) (project : Project) (s : Scene (World σ) Entry) :
    Alone s (releasingIn event project s) [(s.now, .deed (.release event project))] :=
  .emit ⟨rfl, rfl, rfl⟩ s

theorem run_of_unloaded (hload : Work.see (c.load id) (loadingIn s) = (.error e, s₁)) :
    c.run id event s = (.error (.projectLoad id e), s₁) := by
  rw [run_eq, ← loadingIn, hload]

theorem run_of_unprovisioned (hload : Work.see (c.load id) (loadingIn s) = (.ok project, s₁))
    (hprovision : Work.see (c.storage.provision event project) (provisioningIn event project s₁) =
      (.error e, s₂)) :
    c.run id event s = (.error (.storageProvision event.runId e), s₂) := by
  have hprovided : c.provision event project (Work.reach .projectLoaded s₁).2 = _ := hprovision
  rw [run_eq, ← loadingIn, hload]
  dsimp only
  rw [hprovided]

/-- Where nothing is in the way, the run goes on to its report. -/
theorem run_of_provisioned (hload : Work.see (c.load id) (loadingIn s) = (.ok project, s₁))
    (hprovision : Work.see (c.storage.provision event project) (provisioningIn event project s₁) =
      (.ok (), s₂)) :
    let ran := (c.runHandlers { event, project } (Work.reach .storageProvisioned s₂).2).2
    let released := (Work.see (c.storage.release event project) (releasingIn event project ran)).2
    ∃ report, c.run id event s =
      (.ok report, (Work.reach .exited (Work.reach .storageTornDown released).2).2) := by
  have hprovided : c.provision event project (Work.reach .projectLoaded s₁).2 = _ := hprovision
  rw [run_eq, ← loadingIn, hload]
  dsimp only
  rw [hprovided]
  exact ⟨_, rfl⟩

/-- The project is loaded and the volume asked for. -/
theorem chain_of_provision {result : Except ClusterError Unit}
    (hload : Work.see (c.load id) (loadingIn s) = (.ok project, s₁))
    (hprovision : Work.see (c.storage.provision event project) (provisioningIn event project s₁) =
      (result, s₂)) :
    c.Chain [.load id (loadingIn s), .provision event project (provisioningIn event project s₁)] s s₂ :=
  (Chain.single (k := .load id (loadingIn s)) (alone_loadingIn s) (congrArg Prod.snd hload)).append
    (.single (alone_provisioningIn event project s₁) (congrArg Prod.snd hprovision))

theorem ran_of_provisioned (hload : Work.see (c.load id) (loadingIn s) = (.ok project, s₁))
    (hprovision : Work.see (c.storage.provision event project) (provisioningIn event project s₁) =
      (.ok (), s₂)) : ∃ k : Calls σ, Ran c id event s k := by
  let scope : RunScope := { event, project }
  let ready := (Work.reach .storageProvisioned s₂).2
  let ran := (c.runHandlers scope ready).2
  let released := (Work.see (c.storage.release event project) (releasingIn event project ran)).2
  let last := (Work.reach .exited (Work.reach .storageTornDown released).2).2
  obtain ⟨report, hrun⟩ := run_of_provisioned hload hprovision
  have hend : (c.run id event s).2 = last := congrArg Prod.snd hrun
  have hready : Alone s₂ ready [(s₂.now, .reached .storageProvisioned)] := .emit ⟨rfl, rfl, rfl⟩ s₂
  have hreleasing := alone_releasingIn event project ran
  have hlast : Alone released last
      ([(released.now, .reached .storageTornDown)] ++ [(released.now, .reached .exited)]) :=
    (Alone.emit ⟨rfl, rfl, rfl⟩ released).trans (.emit ⟨rfl, rfl, rfl⟩ _)
  obtain ⟨handlers, hled⟩ := Conducts.runHandlers c scope ready
  have htells : Tells c scope s (handlers ++ []) last := by
    have hloaded : Tells c scope s [] s₁ := .see (alone_loadingIn s) rfl rfl (congrArg Prod.snd hload)
    have hprovisioned : Tells c scope s₁ [] s₂ :=
      .see (alone_provisioningIn event project s₁) rfl rfl (congrArg Prod.snd hprovision)
    have hreleased : Tells c scope ran [] released := .see hreleasing rfl rfl rfl
    exact (hloaded.trans hprovisioned).trans (((Tells.of_alone hready rfl rfl).trans hled.tells).trans
      (hreleased.trans (.of_alone hlast rfl rfl)))
  rw [List.append_nil] at htells
  obtain ⟨j, hj, htold⟩ := htells
  refine ⟨⟨project, loadingIn s, provisioningIn event project s₁, releasingIn event project ran, handlers⟩,
    ?_, congrArg Prod.fst hload, congrArg Prod.fst hprovision, ?_⟩
  · rw [hend]
    have hclosed : c.Chain [.release event project (releasingIn event project ran)] ran last :=
      (Chain.single hreleasing rfl).append ⟨_, hlast⟩
    exact (chain_of_provision hload hprovision).append ((hled.chain.alone_left hready).append hclosed)
  · rw [journal_eq ((congrArg Scene.log hend).trans hj)]
    exact htold

end Parts

/-- **What a run calls.** If it comes to a report, the volume is asked for once, before any handler is
called, and given back once, after the last, whatever the handlers have come to. -/
theorem run_calls (c : Controller σ) (id : String) (event : Event) (s : Scene (World σ) Entry) :
    match (c.run id event s).1 with
    | .ok _ => ∃ k : Calls σ, Ran c id event s k
    | .error _ => BrokenOff c id event s := by
  rcases hload : Work.see (c.load id) (loadingIn s) with ⟨e | project, s₁⟩
  · have hrun : c.run id event s = _ := run_of_unloaded hload
    rw [hrun]
    refine .load (loadingIn s) e (congrArg Prod.fst hload) ?_
    rw [hrun]
    exact .single (alone_loadingIn s) (congrArg Prod.snd hload)
  rcases hprovision : Work.see (c.storage.provision event project) (provisioningIn event project s₁) with
    ⟨e | ⟨⟩, s₂⟩
  · have hrun := run_of_unprovisioned hload hprovision
    rw [hrun]
    refine .provision project (loadingIn s) (provisioningIn event project s₁) e
      (congrArg Prod.fst hload) (congrArg Prod.fst hprovision) ?_
    rw [hrun]
    exact chain_of_provision hload hprovision
  · obtain ⟨report, hrun⟩ := run_of_provisioned hload hprovision
    rw [hrun]
    exact ran_of_provisioned hload hprovision

/-- **Whoever keeps a record of calls has those of the run in it**, each of them once, in the order in which
they were made. -/
theorem run_recorded {c : Controller σ} {id : String} {event : Event} {s : Scene (World σ) Entry}
    {report : RunReport} (hrun : (c.run id event s).1 = .ok report) {record : Seen σ → List β}
    {entries : Invocation σ → List β}
    (h : ∀ k, record (k.ended c).world.seen = record k.begun.world.seen ++ entries k) :
    ∃ k : Calls σ, Ran c id event s k ∧
      record (c.run id event s).2.world.seen = record s.world.seen ++ (k.all id event).flatMap entries := by
  have hcalls := c.run_calls id event s
  rw [hrun] at hcalls
  obtain ⟨k, hk⟩ := hcalls
  exact ⟨k, hk, hk.chain.recorded h⟩

end Controller

end EventWorker
