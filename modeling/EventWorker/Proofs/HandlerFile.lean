import EventWorker.HandlerFile
import EventWorker.Proofs.Job.Name
import EventWorker.Proofs.Related
import EventWorker.Proofs.Step
import Mathlib.Data.List.Nodup

/-!
# Registered handlers

Which handler a bus has for an event, where the handlers of a file have been registered on it. Of two
handlers for the same events the later one stays, but an accepted file has no two of them
(`check_eq_ok_iff`): each of its handlers is the one that is called.

* `handler?_register_of_mem`: the handler that is called for the events that one is declared for.
* `handler?_register_of_forall_ne`: none is called for other events.
* `handler?_register_empty`: both at once, where there are no handlers but those of the file.
-/

namespace EventWorker

namespace Bus

variable {H : Type}

/-- A handler takes the place of an earlier one, and no other's. -/
theorem handler?_on (bus : Bus H) (key : EventKey) (h : H) (k : EventKey) :
    (bus.on key h).handler? k = if key = k then some h else bus.handler? k := by
  show (bus.entries.filter (·.1 != key) ++ [(key, h)]).lookup k = _
  rw [List.lookup_append, lookup_filter_ne]
  by_cases hk : key = k
  · simp [hk]
  · have hne : (k == key) = false := by simpa using Ne.symm hk
    simp [hk, List.lookup_cons, hne, handler?]

end Bus

namespace HandlerFile

variable {H : Type} {handler : Step Job → H} {f : HandlerFile} {key : EventKey}

/-! ### Accepted files -/

theorem checkJobs_eq_ok_iff {js : List Job} :
    checkJobs js = .ok () ↔ ∀ j ∈ js, j.validate = .ok () := by
  induction js with
  | nil => exact iff_of_true rfl fun j hj => absurd hj List.not_mem_nil
  | cons j js ih =>
    rw [checkJobs, Except.bind_eq_ok_iff, List.forall_mem_cons, ih]
    simp only [Except.mapError_eq_ok_iff]
    exact ⟨fun ⟨_, hj, hjs⟩ => ⟨hj, hjs⟩, fun ⟨hj, hjs⟩ => ⟨(), hj, hjs⟩⟩

/-- Handlers pass the check behind others if each is for events of its own and its jobs are valid. -/
theorem checkHandlers_eq_ok_iff {seen : List EventKey} {hs : List HandlerDecl} :
    checkHandlers seen hs = .ok () ↔ ((∀ d ∈ hs, d.key ∉ seen) ∧ (hs.map (·.key)).Nodup) ∧
      ∀ d ∈ hs, ∀ j ∈ d.run.jobs, j.validate = .ok () := by
  induction hs generalizing seen with
  | nil => simp [checkHandlers]
  | cons d ds ih =>
    have hcheck : checkHandlers seen (d :: ds) = .ok () ↔ d.key ∉ seen ∧
        checkJobs d.run.jobs = .ok () ∧ checkHandlers (d.key :: seen) ds = .ok () := by
      rw [checkHandlers]
      by_cases hseen : d.key ∈ seen
      · rw [if_pos (by simpa using hseen)]
        exact iff_of_false (fun h => by cases h) fun h => h.1 hseen
      · rw [if_neg (by simpa using hseen)]
        exact Except.bind_eq_ok_iff.trans
          ⟨fun ⟨_, hjobs, hrest⟩ => ⟨hseen, hjobs, hrest⟩, fun h => ⟨(), h.2.1, h.2.2⟩⟩
    rw [hcheck, ih, checkJobs_eq_ok_iff, List.map_cons, List.nodup_cons, List.forall_mem_cons,
      List.forall_mem_cons]
    have hfresh : (∀ e ∈ ds, e.key ∉ d.key :: seen) ↔
        d.key ∉ ds.map (·.key) ∧ ∀ e ∈ ds, e.key ∉ seen := by
      simp only [List.mem_cons, not_or, List.mem_map, not_exists, not_and, ← forall_and]
    rw [hfresh]
    tauto

/-- Each handler of a file is for events of its own, and the names in its jobs are valid, wherever a
job stands. -/
structure Proper (f : HandlerFile) : Prop where
  nodup : (f.handlers.map (·.key)).Nodup
  named : ∀ d ∈ f.handlers, ∀ j, Step.Within j d.run →
    ∀ name ∈ j.name :: j.sidecars.keys, nameFault? name = none

theorem check_eq_ok_iff : f.check = .ok () ↔ f.Proper := by
  rw [check, checkHandlers_eq_ok_iff]
  simp only [Job.validate_eq_ok_iff, Step.mem_jobs_iff]
  constructor
  · exact fun ⟨⟨_, hnodup⟩, hnamed⟩ => ⟨hnodup, hnamed⟩
  · exact fun h => ⟨⟨fun _ _ => List.not_mem_nil, h.nodup⟩, h.named⟩

/-- A file is accepted if it decodes and passes the check. -/
theorem parse_eq_ok_iff {text : String} :
    parse text = .ok f ↔ Decoder.ofYaml decode text = .ok f ∧ f.Proper := by
  simp only [parse, Except.bind_eq_ok_iff, Except.mapError_eq_ok_iff, ← check_eq_ok_iff]
  constructor
  · rintro ⟨g, hg, _, hcheck, h⟩
    obtain rfl : g = f := Except.ok.inj h
    exact ⟨hg, hcheck⟩
  · exact fun ⟨hf, hcheck⟩ => ⟨f, hf, (), hcheck, rfl⟩

/-- An accepted file has one handler at most for the events of a key. -/
theorem nodup_keys_of_parse {text : String} (h : parse text = .ok f) :
    (f.handlers.map (·.key)).Nodup :=
  (parse_eq_ok_iff.1 h).2.nodup

/-! ### Registering -/

theorem handler?_foldl_of_forall_ne {hs : List HandlerDecl} (h : ∀ d ∈ hs, d.key ≠ key) :
    ∀ bus : Bus H, (hs.foldl (fun bus d => bus.on d.key (handler d.run)) bus).handler? key =
      bus.handler? key := by
  induction hs with
  | nil => exact fun _ => rfl
  | cons d ds ih =>
    intro bus
    rw [List.foldl_cons, ih fun e he => h e (List.mem_cons_of_mem d he), Bus.handler?_on,
      if_neg (h d List.mem_cons_self)]

/-- Where no handler is declared for them, nothing changes for the events of a key. -/
theorem handler?_register_of_forall_ne (h : ∀ d ∈ f.handlers, d.key ≠ key) (bus : Bus H) :
    (f.register handler bus).handler? key = bus.handler? key :=
  handler?_foldl_of_forall_ne h bus

theorem handler?_foldl_of_mem {hs : List HandlerDecl} (hnodup : (hs.map (·.key)).Nodup)
    {d : HandlerDecl} (hd : d ∈ hs) :
    ∀ bus : Bus H, (hs.foldl (fun bus d => bus.on d.key (handler d.run)) bus).handler? d.key =
      some (handler d.run) := by
  induction hs with
  | nil => exact absurd hd List.not_mem_nil
  | cons e es ih =>
    intro bus
    rw [List.map_cons, List.nodup_cons] at hnodup
    rw [List.foldl_cons]
    rcases List.mem_cons.1 hd with rfl | hd
    · -- those that come later are for other events
      have hne : ∀ e ∈ es, e.key ≠ d.key := fun e he heq =>
        hnodup.1 (List.mem_map.2 ⟨e, he, heq⟩)
      rw [handler?_foldl_of_forall_ne hne, Bus.handler?_on, if_pos rfl]
    · exact ih hnodup.2 hd _

/-- **The handler that is called is the one that is declared.** -/
theorem handler?_register_of_mem (hnodup : (f.handlers.map (·.key)).Nodup) {d : HandlerDecl}
    (hd : d ∈ f.handlers) (bus : Bus H) :
    (f.register handler bus).handler? d.key = some (handler d.run) :=
  handler?_foldl_of_mem hnodup hd bus

/-- The step that is declared for the events of a key. -/
def step? (f : HandlerFile) (key : EventKey) : Option (Step Job) :=
  (f.handlers.find? (·.key == key)).map (·.run)

theorem step?_eq_none_iff : f.step? key = none ↔ ∀ d ∈ f.handlers, d.key ≠ key := by
  simp [step?]

theorem step?_eq_some_iff (hnodup : (f.handlers.map (·.key)).Nodup) {s : Step Job} :
    f.step? key = some s ↔ ∃ d ∈ f.handlers, d.key = key ∧ d.run = s := by
  rw [step?, Option.map_eq_some_iff]
  constructor
  · rintro ⟨d, hd, rfl⟩
    exact ⟨d, List.mem_of_find?_eq_some hd, by simpa using List.find?_some hd, rfl⟩
  · rintro ⟨d, hd, rfl, rfl⟩
    cases hfound : f.handlers.find? (·.key == d.key) with
    | none => exact absurd rfl (step?_eq_none_iff.1 (by rw [step?, hfound]; rfl) d hd)
    | some e =>
      have hkey : e.key = d.key := by simpa using List.find?_some hfound
      have hsame : e = d :=
        List.inj_on_of_nodup_map hnodup (List.mem_of_find?_eq_some hfound) hd hkey
      exact ⟨e, rfl, by rw [hsame]⟩

/-- A bus that knows the handlers of an accepted file, and no others. -/
theorem handler?_register_empty (hnodup : (f.handlers.map (·.key)).Nodup) (key : EventKey) :
    (f.register handler {}).handler? key = (f.step? key).map handler := by
  cases hstep : f.step? key with
  | none => exact handler?_register_of_forall_ne (step?_eq_none_iff.1 hstep) {}
  | some s =>
    obtain ⟨d, hd, rfl, rfl⟩ := (step?_eq_some_iff hnodup).1 hstep
    exact handler?_register_of_mem hnodup hd {}

/-- There is a handler for the events of a key if the file declares one. -/
theorem handles_register_empty_iff (hnodup : (f.handlers.map (·.key)).Nodup) :
    (f.register handler {}).handles key = true ↔ ∃ d ∈ f.handlers, d.key = key := by
  rw [Bus.handles, handler?_register_empty hnodup, Option.isSome_map, Option.isSome_iff_ne_none,
    ne_eq, step?_eq_none_iff]
  simp

theorem entries_foldl {hs : List HandlerDecl} (hnodup : (hs.map (·.key)).Nodup) :
    ∀ bus : Bus H, (∀ d ∈ hs, ∀ e ∈ bus.entries, e.1 ≠ d.key) →
      (hs.foldl (fun bus d => bus.on d.key (handler d.run)) bus).entries =
        bus.entries ++ hs.map fun d => (d.key, handler d.run) := by
  induction hs with
  | nil => exact fun bus _ => (List.append_nil _).symm
  | cons d ds ih =>
    intro bus hnew
    rw [List.map_cons, List.nodup_cons] at hnodup
    obtain ⟨hd, hnew⟩ := List.forall_mem_cons.1 hnew
    have hon : (bus.on d.key (handler d.run)).entries = bus.entries ++ [(d.key, handler d.run)] := by
      show bus.entries.filter (·.1 != d.key) ++ _ = _
      rw [List.filter_eq_self.2 fun e he => bne_iff_ne.2 (hd e he)]
    rw [List.foldl_cons, ih hnodup.2, hon, List.append_assoc]
    · rfl
    · intro e he entry hentry
      rw [hon, List.mem_append, List.mem_singleton] at hentry
      rcases hentry with hentry | rfl
      · exact hnew e he entry hentry
      · exact fun heq => hnodup.1 (List.mem_map.2 ⟨e, he, heq.symm⟩)

/-- No handler of the file takes the place of another. -/
theorem size_register_empty (hnodup : (f.handlers.map (·.key)).Nodup) :
    (f.register handler {}).size = f.handlers.length := by
  have hentries : (f.register handler {}).entries = _ :=
    entries_foldl hnodup {} fun d _ e he => by cases he
  rw [Bus.size, hentries]
  exact List.length_map _

end HandlerFile

end EventWorker
