import EventWorker.Proofs.Run.Course

/-!
# The deeds of a run, one kind at a time

Which events a run fires, which handlers it calls, and what it does about its volume, read off from
what is known of its course.

* `Course.Of.fired_journal`: the event is fired, and the one that comes after it if there is a handler;
  after each of them an error event, if the first failure of the run came then.
* `Course.Of.filter_error`, `Course.Of.filter_after`: which of them are derived events, and of what cause.
* `Course.Of.called_journal`: the events that handlers are called for are those fired that have one.
-/

namespace EventWorker

variable {bus : Bus Handler} {event e : Event} {first : Option Failure} {left : List Task}

/-! ### Kinds of deeds -/

namespace Deed

def fired? : Deed → Option Event
  | fire e => some e
  | _ => none

def called? : Deed → Option Event
  | call e => some e
  | _ => none

/-- Whether the volume of the run is asked for or given back. -/
def isOfVolume : Deed → Bool
  | provision _ _ => true
  | release _ _ => true
  | _ => false

/-- Whether the deed is one of those that a fired event or a failure brings about in a run of
`event`: no event is fired then but an error event. -/
def isReaction (event : Event) : Deed → Bool
  | fire e => Event.isDerived errorType event e
  | call _ => true
  | hear _ _ => true
  | raise _ => true
  | _ => false

end Deed

namespace Journal

/-- The events that are fired. -/
def fired (j : Journal) : List Event :=
  j.deeds.filterMap Deed.fired?

/-- The events that handlers are called for. -/
def called (j : Journal) : List Event :=
  j.deeds.filterMap Deed.called?

end Journal

/-! ### The first failure -/

/-- The failure that becomes the first of the run, if it has had none yet. -/
def newly : (first : Option Failure) → List Failure → List Failure
  | none, fs => fs.head?.toList
  | some _, _ => []

theorem newly_nil (first : Option Failure) : newly first [] = [] := by
  cases first <;> rfl

theorem newly_append (first : Option Failure) (fs gs : List Failure) :
    newly first (fs ++ gs) = newly first fs ++ newly (first.or fs.head?) gs := by
  cases first with
  | some f => rfl
  | none =>
    cases fs with
    | nil => rfl
    | cons f fs => rfl

namespace Controller

/-! ### Derived events -/

theorem isDerived_after_errorEvent (event : Event) (f : Failure) :
    Event.isDerived afterType event (errorEvent event f) = false := by
  rw [errorEvent, Event.isDerived_derive]
  decide

theorem isDerived_error_errorEvent (event : Event) (f : Failure) :
    Event.isDerived errorType event (errorEvent event f) = true := by
  rw [errorEvent, Event.isDerived_derive]
  decide

theorem isDerived_afterEvent (type : String) (event : Event) (first : Option Failure) :
    Event.isDerived type event (afterEvent event first) = decide (afterType = type) := by
  obtain ⟨trigger, reason, h⟩ := afterEvent_eq event first
  rw [h, Event.isDerived_derive]

/-- No event is derived in both ways. -/
theorem isDerived_error_of_after (h : Event.isDerived afterType event e = true) :
    Event.isDerived errorType event e = false := by
  cases e with
  | primary data => rfl
  | derived data trigger reason cause =>
    have heq : Event.derived data trigger reason cause = event.derive afterType trigger reason :=
      of_decide_eq_true h
    rw [heq, Event.isDerived_derive]
    decide

theorem filter_error_map (event : Event) (fs : List Failure) :
    (fs.map (errorEvent event)).filter (Event.isDerived errorType event) = fs.map (errorEvent event) := by
  refine List.filter_eq_self.2 fun e he => ?_
  obtain ⟨f, -, rfl⟩ := List.mem_map.1 he
  exact isDerived_error_errorEvent event f

theorem filter_after_map (event : Event) (fs : List Failure) :
    (fs.map (errorEvent event)).filter (Event.isDerived afterType event) = [] := by
  refine List.filter_eq_nil_iff.2 fun e he => ?_
  obtain ⟨f, -, rfl⟩ := List.mem_map.1 he
  rw [isDerived_after_errorEvent]
  exact Bool.false_ne_true

/-! ### Answering and raising -/

theorem fired_answerDeeds (failure : Option String) :
    (answerDeeds bus e failure).filterMap Deed.fired? = [] := by
  unfold answerDeeds
  split <;> rfl

theorem called_answerDeeds (failure : Option String) :
    (answerDeeds bus e failure).filterMap Deed.called? = [e].filter (bus.handles ·.key) := by
  cases h : bus.handles e.key with
  | true =>
    rw [answerDeeds_of_handles h, List.filter_cons, h]
    rfl
  | false =>
    rw [answerDeeds_of_not_handles h, List.filter_cons, h]
    rfl

theorem isReaction_answerDeeds (event : Event) (failure : Option String) :
    ∀ d ∈ answerDeeds bus e failure, d.isReaction event := by
  unfold answerDeeds
  split <;> simp [Deed.isReaction]

/-- Without a first failure an error event is fired; with one, or without any failure, nothing is. -/
theorem raiseDeeds_eq (bus : Bus Handler) (event : Event) (first : Option Failure)
    (fs : List Failure) (heard : Option String) :
    (raiseDeeds bus event first fs heard = fs.map .raise ∧ newly first fs = []) ∨
      ∃ f rest, fs = f :: rest ∧ newly first fs = [f] ∧
        raiseDeeds bus event first fs heard = .raise f :: .fire (errorEvent event f) ::
          (answerDeeds bus (errorEvent event f) heard ++ rest.map .raise) := by
  cases first with
  | some g => exact Or.inl ⟨rfl, rfl⟩
  | none =>
    cases fs with
    | nil => exact Or.inl ⟨rfl, rfl⟩
    | cons f rest => exact Or.inr ⟨f, rest, rfl, rfl, rfl⟩

theorem fired_map_raise (fs : List Failure) : (fs.map Deed.raise).filterMap Deed.fired? = [] := by
  rw [List.filterMap_map]
  exact List.filterMap_eq_nil_iff.2 fun _ _ => rfl

theorem called_map_raise (fs : List Failure) : (fs.map Deed.raise).filterMap Deed.called? = [] := by
  rw [List.filterMap_map]
  exact List.filterMap_eq_nil_iff.2 fun _ _ => rfl

theorem fired_raiseDeeds (fs : List Failure) (heard : Option String) :
    (raiseDeeds bus event first fs heard).filterMap Deed.fired? =
      (newly first fs).map (errorEvent event) := by
  rcases raiseDeeds_eq bus event first fs heard with ⟨hd, hn⟩ | ⟨f, rest, -, hn, hd⟩
  · rw [hd, hn, fired_map_raise]
    rfl
  · rw [hd, hn]
    show errorEvent event f :: List.filterMap Deed.fired? (_ ++ _) = _
    rw [List.filterMap_append, fired_answerDeeds, fired_map_raise]
    rfl

theorem called_raiseDeeds (fs : List Failure) (heard : Option String) :
    (raiseDeeds bus event first fs heard).filterMap Deed.called? =
      ((newly first fs).map (errorEvent event)).filter (bus.handles ·.key) := by
  rcases raiseDeeds_eq bus event first fs heard with ⟨hd, hn⟩ | ⟨f, rest, -, hn, hd⟩
  · rw [hd, hn, called_map_raise]
    rfl
  · rw [hd, hn]
    show List.filterMap Deed.called? (_ ++ _) = _
    rw [List.filterMap_append, called_answerDeeds, called_map_raise, List.append_nil]
    rfl

theorem isReaction_raiseDeeds (fs : List Failure) (heard : Option String) :
    ∀ d ∈ raiseDeeds bus event first fs heard, d.isReaction event := by
  have hraise : ∀ gs : List Failure, ∀ d ∈ gs.map Deed.raise, d.isReaction event := by
    intro gs d hd
    obtain ⟨g, -, rfl⟩ := List.mem_map.1 hd
    rfl
  rcases raiseDeeds_eq bus event first fs heard with ⟨hd, -⟩ | ⟨f, rest, -, -, hd⟩
  · rw [hd]
    exact hraise fs
  · rw [hd]
    intro d hmem
    rcases List.mem_cons.1 hmem with rfl | hmem
    · rfl
    rcases List.mem_cons.1 hmem with rfl | hmem
    · exact isDerived_error_errorEvent event f
    rcases List.mem_append.1 hmem with hmem | hmem
    · exact isReaction_answerDeeds event heard d hmem
    · exact hraise rest d hmem

/-! ### Handling an event -/

namespace Handling

variable {h : Handling}

theorem deeds_journal (h : Handling) (e : Event) : (h.journal e).deeds =
    .fire e :: (h.before.deeds ++ .join h.tasks :: h.after.deeds) := by
  show Deed.fire e :: Journal.deeds (h.before ++ (h.joined, .deed (.join h.tasks)) :: h.after) = _
  rw [Journal.deeds_append]
  rfl

theorem Of.fired_journal (ho : h.Of bus event first e left) :
    (h.journal e).fired = e :: (newly first h.failures).map (errorEvent event) := by
  obtain ⟨heard, hb⟩ := ho.deeds_before
  obtain ⟨heard', ha⟩ := ho.deeds_after
  rw [Journal.fired, deeds_journal, hb, ha]
  show e :: List.filterMap Deed.fired? (_ ++ _ ++ _) = _
  rw [List.filterMap_append, List.filterMap_append, fired_answerDeeds, fired_raiseDeeds]
  show e :: (_ ++ List.filterMap Deed.fired? (raiseDeeds _ _ _ _ _)) = _
  rw [fired_raiseDeeds, failures, newly_append, List.map_append]
  rfl

theorem Of.called_journal (ho : h.Of bus event first e left) :
    (h.journal e).called = (h.journal e).fired.filter (bus.handles ·.key) := by
  obtain ⟨heard, hb⟩ := ho.deeds_before
  obtain ⟨heard', ha⟩ := ho.deeds_after
  rw [ho.fired_journal, Journal.called, deeds_journal, hb, ha]
  show List.filterMap Deed.called? (_ ++ _ ++ _) = _
  rw [List.filterMap_append, List.filterMap_append, called_answerDeeds, called_raiseDeeds]
  show _ ++ List.filterMap Deed.called? (raiseDeeds _ _ _ _ _) = _
  rw [called_raiseDeeds, failures, newly_append, List.map_append, ← List.filter_append,
    ← List.filter_append, List.append_assoc]
  rfl

theorem Of.isReaction_before (ho : h.Of bus event first e left) :
    ∀ d ∈ h.before.deeds, d.isReaction event := by
  obtain ⟨heard, hb⟩ := ho.deeds_before
  rw [hb]
  intro d hd
  rcases List.mem_append.1 hd with hd | hd
  · exact isReaction_answerDeeds event _ d hd
  · exact isReaction_raiseDeeds _ _ d hd

theorem Of.isReaction_after (ho : h.Of bus event first e left) :
    ∀ d ∈ h.after.deeds, d.isReaction event := by
  obtain ⟨heard, ha⟩ := ho.deeds_after
  rw [ha]
  exact isReaction_raiseDeeds _ _

theorem Of.isOfVolume_journal (ho : h.Of bus event first e left) :
    ∀ d ∈ (h.journal e).deeds, d.isOfVolume = false := by
  have hreaction : ∀ d : Deed, d.isReaction event → d.isOfVolume = false := by
    intro d hd
    cases d <;> first | rfl | exact absurd hd Bool.false_ne_true
  intro d hd
  rw [deeds_journal] at hd
  rcases List.mem_cons.1 hd with rfl | hd
  · rfl
  rcases List.mem_append.1 hd with hd | hd
  · exact hreaction d (ho.isReaction_before d hd)
  rcases List.mem_cons.1 hd with rfl | hd
  · rfl
  · exact hreaction d (ho.isReaction_after d hd)

theorem Of.stages_journal (ho : h.Of bus event first e left) : (h.journal e).stages = [] := by
  show Journal.stages (h.before ++ (h.joined, .deed (.join h.tasks)) :: h.after) = _
  rw [Journal.stages_append, ho.stages_before]
  exact ho.stages_after

end Handling

/-! ### The course of a run -/

namespace Course

variable {k : Course}

/-- The second handling, with what is known of it. -/
theorem Of.handled_cases (ho : k.Of bus event) :
    (bus.handles event.key = false ∧ k.second = none) ∨
      ∃ h, bus.handles event.key = true ∧ k.second = some h ∧
        h.Of bus event k.primary.failures.head? (k.following event)
          (addTasks [] k.primary.after.tasks) := by
  cases hs : k.second with
  | none => exact Or.inl ⟨by rw [← ho.handled, hs]; rfl, rfl⟩
  | some h => exact Or.inr ⟨h, by rw [← ho.handled, hs]; rfl, rfl, ho.second h hs⟩

theorem journal_of_unhandled (hs : k.second = none) (event : Event) : k.journal event =
    (k.begun, .reached .eventFired) ::
      (k.primary.journal event ++ [(k.ended, .reached .noHandlerBookkept)]) := by
  rw [journal, hs]

theorem journal_of_handled {h : Handling} (hs : k.second = some h) (event : Event) :
    k.journal event = (k.begun, .reached .eventFired) :: (k.primary.journal event ++
      (h.journal (k.following event) ++ [(k.ended, .reached .afterFired)])) := by
  rw [journal, hs]

/-- What is written down while the event that comes after is handled. -/
def latter (k : Course) (event : Event) : Journal :=
  (k.second.map (·.journal (k.following event))).getD []

theorem latter_of_unhandled (hs : k.second = none) (event : Event) : k.latter event = [] := by
  rw [latter, hs]
  rfl

theorem latter_of_handled {h : Handling} (hs : k.second = some h) (event : Event) :
    k.latter event = h.journal (k.following event) := by
  rw [latter, hs]
  rfl

/-- All that is done in a course is done while one of the two events is handled. -/
theorem deeds_journal (k : Course) (event : Event) : (k.journal event).deeds =
    (k.primary.journal event).deeds ++ (k.latter event).deeds := by
  cases hs : k.second with
  | none =>
    rw [journal_of_unhandled hs, latter_of_unhandled hs]
    show Journal.deeds (_ ++ _) = _
    rw [Journal.deeds_append]
    rfl
  | some h =>
    rw [journal_of_handled hs, latter_of_handled hs]
    show Journal.deeds (_ ++ (_ ++ _)) = _
    rw [Journal.deeds_append, Journal.deeds_append]
    exact congrArg _ (List.append_nil _)

theorem tasks_journal (k : Course) (event : Event) : (k.journal event).tasks =
    (k.primary.journal event).tasks ++ (k.latter event).tasks := by
  cases hs : k.second with
  | none =>
    rw [journal_of_unhandled hs, latter_of_unhandled hs]
    show Journal.tasks (_ ++ _) = _
    rw [Journal.tasks_append]
    rfl
  | some h =>
    rw [journal_of_handled hs, latter_of_handled hs]
    show Journal.tasks (_ ++ (_ ++ _)) = _
    rw [Journal.tasks_append, Journal.tasks_append]
    exact congrArg _ (List.append_nil _)

theorem fired_journal (k : Course) (event : Event) : (k.journal event).fired =
    (k.primary.journal event).fired ++ (k.latter event).fired := by
  rw [Journal.fired, deeds_journal, List.filterMap_append]
  rfl

/-- The events fired, where the second handling is there or not. -/
theorem Of.fired_journal (ho : k.Of bus event) : (k.journal event).fired =
    event :: (newly none k.primary.failures).map (errorEvent event) ++
      (k.second.map fun h => k.following event ::
        (newly k.primary.failures.head? h.failures).map (errorEvent event)).getD [] := by
  rw [Course.fired_journal, ho.primary.fired_journal]
  rcases ho.handled_cases with ⟨-, hs⟩ | ⟨h, -, hs, hh⟩
  · rw [latter_of_unhandled hs, hs]
    rfl
  · rw [latter_of_handled hs, hh.fired_journal, hs]
    rfl

theorem isDerived_error_following (k : Course) (event : Event) :
    Event.isDerived errorType event (k.following event) = false := by
  rw [following, isDerived_afterEvent]
  decide

theorem isDerived_after_following (k : Course) (event : Event) :
    Event.isDerived afterType event (k.following event) = true := by
  rw [following, isDerived_afterEvent]
  decide

/-- The error events of a run are made of its first failure. -/
theorem Of.filter_error (ho : k.Of bus event) :
    (k.journal event).fired.filter (Event.isDerived errorType event) =
      k.failures.head?.toList.map (errorEvent event) := by
  rw [ho.fired_journal, List.filter_append, List.filter_cons_of_neg (by rw [Event.isDerived_self]; decide),
    filter_error_map]
  show _ = (newly none k.failures).map (errorEvent event)
  rw [failures, newly_append, List.map_append]
  cases k.second with
  | none =>
    show _ = _ ++ List.map _ (newly _ [])
    rw [newly_nil]
    rfl
  | some h =>
    show _ ++ List.filter _ (k.following event :: _) = _
    rw [List.filter_cons_of_neg (by rw [isDerived_error_following]; decide), filter_error_map]
    rfl

theorem Of.filter_after (ho : k.Of bus event) :
    (k.journal event).fired.filter (Event.isDerived afterType event) =
      if bus.handles event.key then [k.following event] else [] := by
  rw [ho.fired_journal, List.filter_append, List.filter_cons_of_neg (by rw [Event.isDerived_self]; decide),
    filter_after_map]
  rcases ho.handled_cases with ⟨hn, hs⟩ | ⟨h, hn, hs, -⟩
  · rw [hn, hs]
    rfl
  · rw [hn, hs]
    show [] ++ List.filter _ (k.following event :: _) = _
    rw [List.filter_cons_of_pos (isDerived_after_following k event), filter_after_map]
    rfl

/-- Whatever is fired after the event itself is derived from it. -/
theorem Of.fired_cons (ho : k.Of bus event) : ∃ rest, (k.journal event).fired = event :: rest ∧
    ∀ e ∈ rest, Event.isDerived afterType event e ∨ Event.isDerived errorType event e := by
  have herror : ∀ fs : List Failure, ∀ e ∈ fs.map (errorEvent event),
      Event.isDerived errorType event e := by
    intro fs e he
    obtain ⟨f, -, rfl⟩ := List.mem_map.1 he
    exact isDerived_error_errorEvent event f
  refine ⟨_, ho.fired_journal, fun e he => ?_⟩
  rcases List.mem_append.1 he with he | he
  · exact Or.inr (herror _ e he)
  · cases hs : k.second with
    | none =>
      rw [hs] at he
      exact absurd he List.not_mem_nil
    | some h =>
      rw [hs] at he
      rcases List.mem_cons.1 he with rfl | he
      · exact Or.inl (isDerived_after_following k event)
      · exact Or.inr (herror _ e he)

/-- The event itself is no derivation of its own, so it is not fired again. -/
theorem Of.count_event (ho : k.Of bus event) : (k.journal event).fired.count event = 1 := by
  obtain ⟨rest, hfired, hrest⟩ := ho.fired_cons
  have hnot : event ∉ rest := by
    intro hmem
    have hself := hrest event hmem
    rw [Event.isDerived_self, Event.isDerived_self] at hself
    exact hself.elim Bool.false_ne_true Bool.false_ne_true
  rw [hfired, List.count_cons_self, List.count_eq_zero_of_not_mem hnot]

theorem Of.count_after (ho : k.Of bus event) :
    (k.journal event).fired.countP (Event.isDerived afterType event) =
      if bus.handles event.key then 1 else 0 := by
  rw [List.countP_eq_length_filter, ho.filter_after]
  split <;> rfl

theorem Of.count_error (ho : k.Of bus event) :
    (k.journal event).fired.countP (Event.isDerived errorType event) =
      k.failures.head?.toList.length := by
  rw [List.countP_eq_length_filter, ho.filter_error, List.length_map]

theorem Of.called_journal (ho : k.Of bus event) :
    (k.journal event).called = (k.journal event).fired.filter (bus.handles ·.key) := by
  have hlatter : (k.latter event).called = (k.latter event).fired.filter (bus.handles ·.key) := by
    rcases ho.handled_cases with ⟨-, hs⟩ | ⟨h, -, hs, hh⟩
    · rw [latter_of_unhandled hs]
      rfl
    · rw [latter_of_handled hs]
      exact hh.called_journal
  rw [Course.fired_journal, List.filter_append, ← ho.primary.called_journal, ← hlatter,
    Journal.called, deeds_journal, List.filterMap_append]
  rfl

theorem Of.isOfVolume_journal (ho : k.Of bus event) :
    ∀ d ∈ (k.journal event).deeds, d.isOfVolume = false := by
  intro d hd
  rw [deeds_journal] at hd
  rcases List.mem_append.1 hd with hd | hd
  · exact ho.primary.isOfVolume_journal d hd
  rcases ho.handled_cases with ⟨-, hs⟩ | ⟨h, -, hs, hh⟩
  · rw [latter_of_unhandled hs] at hd
    exact absurd hd List.not_mem_nil
  · rw [latter_of_handled hs] at hd
    exact hh.isOfVolume_journal d hd

theorem Of.stages_journal (ho : k.Of bus event) : (k.journal event).stages =
    [.eventFired, if bus.handles event.key then .afterFired else .noHandlerBookkept] := by
  rcases ho.handled_cases with ⟨hn, hs⟩ | ⟨h, hn, hs, hh⟩
  · rw [journal_of_unhandled hs, hn]
    show Stage.eventFired :: Journal.stages (_ ++ _) = _
    rw [Journal.stages_append, ho.primary.stages_journal]
    rfl
  · rw [journal_of_handled hs, hn]
    show Stage.eventFired :: Journal.stages (_ ++ (_ ++ _)) = _
    rw [Journal.stages_append, Journal.stages_append, ho.primary.stages_journal, hh.stages_journal]
    rfl

end Course

/-! ### The whole run -/

namespace Whole

variable {w : Whole}

theorem Of.deeds_journal (ho : w.Of bus event) : (w.journal event).deeds =
    .provision event w.project :: ((w.course.journal event).deeds ++ [.release event w.project]) := by
  rw [journal, Journal.deeds_append, Journal.deeds_append, ho.opening_deeds]
  show [Deed.provision event w.project] ++ (_ ++ .release event w.project :: w.closing.deeds) = _
  rw [ho.closing_deeds]
  rfl

theorem Of.fired_journal (ho : w.Of bus event) :
    (w.journal event).fired = (w.course.journal event).fired := by
  rw [Journal.fired, ho.deeds_journal]
  show List.filterMap Deed.fired? (_ ++ _) = _
  rw [List.filterMap_append]
  exact List.append_nil _

theorem Of.called_journal (ho : w.Of bus event) :
    (w.journal event).called = (w.course.journal event).called := by
  rw [Journal.called, ho.deeds_journal]
  show List.filterMap Deed.called? (_ ++ _) = _
  rw [List.filterMap_append]
  exact List.append_nil _

theorem Of.stages_journal (ho : w.Of bus event) :
    (w.journal event).stages = stagesOf (bus.handles event.key) := by
  rw [journal, Journal.stages_append, Journal.stages_append, ho.opening_stages,
    ho.course.stages_journal]
  show [Stage.idle, .projectLoaded, .storageProvisioned] ++ (_ ++ w.closing.stages) = _
  rw [ho.closing_stages]
  rfl

end Whole

end Controller

end EventWorker
