import EventWorker.Proofs.Run.Calls

/-!
# Once and no more

Failures may come from the handler of the event, from that of the event after it, and from any of the
tasks, and an error handler may fail and set off tasks in its turn. However they come, the volume of a
run is provisioned once and released once, the event that comes after is fired once if there is a
handler and not at all otherwise, and an error event is fired once at most.

Main statement: `run_once_only`. The volume is provisioned and released, and handlers are called, where they
are called in fact (`Ran`), and the journal says the same. Nothing is said about the type of the event that
the run is about, which may itself be that of a derived event: two events are told apart by their causes.
-/

namespace EventWorker

namespace Controller

variable {σ : Type}

/-- What a run of an event has done once and only once, by its journal, when it has come to a report. -/
structure OnceOnly (bus : Bus Handler) (event : Event) (report : RunReport) (j : Journal) : Prop where
  /-- The volume is asked for before all else and given back after all else. -/
  volume : ∃ project during,
    j.deeds = .provision event project :: (during ++ [.release event project]) ∧
      ∀ d ∈ during, d.isOfVolume = false
  primary : j.fired.count event = 1
  after : j.fired.countP (Event.isDerived afterType event) = if bus.handles event.key then 1 else 0
  error : j.fired.countP (Event.isDerived errorType event) ≤ 1
  /-- No other event is fired. -/
  others : ∀ e ∈ j.fired, e = event ∨ Event.isDerived afterType event e ∨ Event.isDerived errorType event e
  /-- The handlers called are those of the events fired. -/
  called : j.called = j.fired.filter (bus.handles ·.key)
  afterFired : report.afterFired = bus.handles event.key
  stages : j.stages = report.stages
  states : report.stages = [.idle, .projectLoaded, .storageProvisioned, .eventFired,
    if bus.handles event.key then .afterFired else .noHandlerBookkept, .storageTornDown, .exited]

/-- **A run does what it does once and no more.** If it is broken off, no handler has been called and no
volume given back. -/
theorem run_once_only (c : Controller σ) (id : String) (event : Event)
    (s : Scene (World σ) Entry) :
    match (c.run id event s).1 with
    | .ok report => (∃ k : Calls σ, Ran c id event s k) ∧
        OnceOnly c.bus event report (c.journal id event s)
    | .error _ => BrokenOff c id event s ∧ (c.journal id event s).fired = [] ∧
        (c.journal id event s).called = [] ∧
        ∀ project, .release event project ∉ (c.journal id event s).deeds := by
  have hspec := c.run_spec id event s
  have hcalls := c.run_calls id event s
  cases hrun : (c.run id event s).1 with
  | ok report =>
    rw [hrun] at hspec hcalls
    refine ⟨hcalls, ?_⟩
    obtain ⟨w, hw, hj, hreport⟩ := hspec
    have hk := hw.course
    rw [hj]
    refine ⟨?_, ?_, ?_, ?_, ?_, ?_, ?_, ?_, ?_⟩
    · exact ⟨w.project, _, hw.deeds_journal, hk.isOfVolume_journal⟩
    · rw [hw.fired_journal]
      exact hk.count_event
    · rw [hw.fired_journal]
      exact hk.count_after
    · rw [hw.fired_journal, hk.count_error]
      exact Option.length_toList_le
    · intro e he
      obtain ⟨rest, hfired, hrest⟩ := hk.fired_cons
      rw [hw.fired_journal, hfired] at he
      rcases List.mem_cons.1 he with rfl | he
      · exact Or.inl rfl
      · exact Or.inr (hrest e he)
    · rw [hw.called_journal, hw.fired_journal, hk.called_journal]
    · rw [hreport]
      rfl
    · rw [hreport, hw.stages_journal]
      rfl
    · rw [hreport]
      rfl
  | error e =>
    rw [hrun] at hspec hcalls
    refine ⟨hcalls, List.filterMap_eq_nil_iff.2 fun d hd => ?_,
      List.filterMap_eq_nil_iff.2 fun d hd => ?_, fun project hd => ?_⟩
    · obtain ⟨project, rfl⟩ := hspec.2 d hd
      rfl
    · obtain ⟨project, rfl⟩ := hspec.2 d hd
      rfl
    · obtain ⟨project', hd⟩ := hspec.2 _ hd
      exact Deed.noConfusion hd

end Controller

end EventWorker
