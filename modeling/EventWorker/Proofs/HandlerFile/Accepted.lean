import EventWorker.Command
import EventWorker.Proofs.HandlerFile
import EventWorker.Proofs.Run.Submission

/-!
# Accepted handler files

Which files are accepted, and what can be done with those that are. A file is accepted if it is a single
document, read to its end, that declares handlers (`Declared`), no two of them for the same events, with
valid names in all of their jobs (`Proper`). In YAML no list stands for a record: a step is a record at
every depth.

Of an accepted file nothing is lost. Each of its handlers is registered under its own key (`Registered`),
and none of their jobs is turned down for a name, whichever backend runs them.

Main statement: `parse_exact`.
-/

namespace EventWorker

open Decoder Document

variable {terms : Terms} {d : Document}

/-! ### Handlers -/

namespace HandlerDecl

/-- A document declares a handler. -/
def Declared (h : HandlerDecl) (terms : Terms) (d : Document) : Prop :=
  ∃ inner fields, HasFields terms d inner fields ∧ Keyed ["source", "type", "run"] false fields ∧
    (∃ v, valueOf? "source" fields = some v ∧ scalarText? v = some h.source) ∧
    (∃ v, valueOf? "type" fields = some v ∧ scalarText? v = some h.type) ∧
    ∃ v, valueOf? "run" fields = some v ∧ h.run.Declared inner v

def columns : List (Column HandlerDecl) :=
  [⟨"source", String, text, (·.source), fun v h => { h with source := v }⟩,
    ⟨"type", String, text, (·.type), fun v h => { h with type := v }⟩,
    ⟨"run", Step Job, Step.decode, (·.run), fun v h => { h with run := v }⟩]

theorem laid_shape : Laid shape columns where
  fields := rfl
  nodup := by decide
  required _ hf := hf
  repeats := rfl
  set := by simp [columns, shape]
  get_put := by simp [columns]
  get_put_of_ne := by simp [columns]
  ext := by
    rintro ⟨⟩ ⟨⟩
    simp [columns]

theorem decode_eq_ok_iff (hlists : terms.lists = false) {h : HandlerDecl} :
    shape.decode terms d = .ok h ↔ h.Declared terms d := by
  rw [laid_shape.decode_eq_ok_iff_of_required rfl hlists]
  refine exists_congr fun inner => exists_congr fun fields => and_congr_right fun hfields =>
    and_congr_right fun _ => ?_
  have hrun : ∀ v, Step.decode inner v = .ok h.run ↔ h.run.Declared inner v :=
    fun v => Step.decode_eq_ok_iff (hfields.lists.trans hlists)
  simp [columns, text_eq_ok_iff, hrun]

end HandlerDecl

/-! ### Files -/

namespace HandlerFile

/-- A document declares the handlers of a file. -/
def Declared (f : HandlerFile) (terms : Terms) (d : Document) : Prop :=
  ∃ inner fields, HasFields terms d inner fields ∧ Keyed ["handlers"] false fields ∧
    ∃ v, valueOf? "handlers" fields = some v ∧ ∃ deeper items, HasItems inner v deeper items ∧
      List.Forall₂ (fun d (h : HandlerDecl) => h.Declared deeper d) items f.handlers

def columns : List (Column HandlerFile) :=
  [⟨"handlers", List HandlerDecl, listOf HandlerDecl.shape.decode, (·.handlers),
    fun v f => { f with handlers := v }⟩]

theorem laid_shape : Laid shape columns where
  fields := rfl
  nodup := by decide
  required _ hf := hf
  repeats := rfl
  set := by simp [columns, shape]
  get_put := by simp [columns]
  get_put_of_ne := by simp [columns]
  ext := by
    rintro ⟨⟩ ⟨⟩
    simp [columns]

/-- **What is decoded as a file is what declares it.** -/
theorem decode_eq_ok_iff (hlists : terms.lists = false) {f : HandlerFile} :
    decode terms d = .ok f ↔ f.Declared terms d := by
  rw [decode, laid_shape.decode_eq_ok_iff_of_required rfl hlists]
  refine exists_congr fun inner => exists_congr fun fields => and_congr_right fun hfields =>
    and_congr_right fun _ => ?_
  have hhandlers : ∀ v, listOf HandlerDecl.shape.decode inner v = .ok f.handlers ↔
      ∃ deeper items, HasItems inner v deeper items ∧
        List.Forall₂ (fun d (h : HandlerDecl) => h.Declared deeper d) items f.handlers := by
    intro v
    rw [listOf_eq_ok_iff]
    refine exists_congr fun deeper => exists_congr fun items => and_congr_right fun hitems => ?_
    have hdeeper : deeper.lists = false := hitems.lists.trans (hfields.lists.trans hlists)
    simp only [HandlerDecl.decode_eq_ok_iff hdeeper]
  simp [columns, hhandlers]

/-- The text is one document, read to its end. -/
def IsDocument (text : String) (d : Document) : Prop :=
  Document.ofYaml text = (d, true) ∧ d.isWhole = true

theorem ofYaml_decode_eq_ok_iff {text : String} {f : HandlerFile} :
    Decoder.ofYaml decode text = .ok f ↔ ∃ d, IsDocument text d ∧ f.Declared yamlTerms d := by
  rw [Decoder.ofYaml]
  rcases hread : Document.ofYaml text with ⟨d, alone⟩
  dsimp only
  rw [Except.bind_eq_ok_iff]
  simp only [decode_eq_ok_iff (show yamlTerms.lists = false from rfl)]
  constructor
  · rintro ⟨g, hg, h⟩
    split at h
    · next hwhole =>
      obtain rfl := Except.ok.inj h
      rw [Bool.and_eq_true] at hwhole
      obtain ⟨hwhole, rfl⟩ := hwhole
      exact ⟨d, ⟨hread, hwhole⟩, hg⟩
    · cases h
  · rintro ⟨d', ⟨hread', hwhole⟩, hf⟩
    obtain ⟨rfl, rfl⟩ := Prod.mk.inj (hread.symm.trans hread')
    exact ⟨f, hf, by rw [hwhole]; rfl⟩

/-! ### Registered handlers -/

variable {H : Type}

/-- A bus has the handlers of a file, one each, and no others. -/
structure Registered (f : HandlerFile) (handler : Step Job → H) (bus : Bus H) : Prop where
  size : bus.size = f.handlers.length
  handles : ∀ key, bus.handles key = true ↔ ∃ h ∈ f.handlers, h.key = key
  called : ∀ h ∈ f.handlers, bus.handler? h.key = some (handler h.run)
  /-- What is said of an event when the file is validated. -/
  verdict : ∀ e : Event, Command.handlerLine f e =
    if bus.handles e.key then
      Console.passed ("Event " ++ Command.eventText e ++ " has a handler")
    else
      Console.warning ("No handler for event " ++ Command.eventText e ++
        "; the run would only do bookkeeping")

theorem registered_of_nodup {f : HandlerFile} (hnodup : (f.handlers.map (·.key)).Nodup)
    (handler : Step Job → H) : f.Registered handler (f.register handler {}) where
  size := size_register_empty hnodup
  handles _ := handles_register_empty_iff hnodup
  called h hh := handler?_register_of_mem hnodup hh {}
  verdict e := by
    have hany : f.handlers.any (·.key == e.key) = (f.register handler {}).handles e.key := by
      rw [Bool.eq_iff_iff, handles_register_empty_iff hnodup]
      simp
    rw [Command.handlerLine, hany]

/-! ### Acceptance -/

/-- **A file is accepted exactly if it declares proper handlers, and an accepted file can be run without
loss**: every handler is called for its events and no other is, and no job in any of them is turned down
for a name. -/
theorem parse_exact (text : String) (f : HandlerFile) :
    (parse text = .ok f ↔ (∃ d, IsDocument text d ∧ f.Declared yamlTerms d) ∧ f.Proper) ∧
    (parse text = .ok f →
      (∀ {H : Type} (handler : Step Job → H), f.Registered handler (f.register handler {})) ∧
      ∀ h ∈ f.handlers, ∀ {σ : Type} (b : Backend σ), b.Known → ∀ scope,
        (∀ j, Step.Within j h.run → Spares (b.submit j scope)) ∧
          Spares (h.run.run (Job.run b scope))) := by
  have hparse : parse text = .ok f ↔ (∃ d, IsDocument text d ∧ f.Declared yamlTerms d) ∧ f.Proper := by
    rw [parse_eq_ok_iff, ofYaml_decode_eq_ok_iff]
  refine ⟨hparse, fun haccepted => ?_⟩
  obtain ⟨-, hproper⟩ := hparse.1 haccepted
  refine ⟨fun handler => registered_of_nodup hproper.nodup handler, fun h hh σ b hb scope => ?_⟩
  have hvalid : ∀ j, Step.Within j h.run → j.validate = .ok () := fun j hj =>
    Job.validate_eq_ok_iff.2 (hproper.named h hh j hj)
  exact ⟨fun j hj => hb.submit_spares (hvalid j hj) scope,
    Step.run_spares hb scope fun j hj => hvalid j (Step.mem_jobs_iff.1 hj)⟩

/-- A job in a group, beside a group of none. -/
def nightlyText : String :=
  "handlers:\n- source: cron\n  type: nightly\n" ++
  "  run: {serial: [{job: {name: build}}, {concurrent: []}]}\n"

theorem parse_exact_nightly : ∃ f, parse nightlyText = .ok f ∧ f.jobCount = 1 ∧
    f.Registered Handler.ofStep (f.register Handler.ofStep {}) := by
  have hcount : (parse nightlyText).toOption.map jobCount = some 1 := by decide +kernel
  cases hf : parse nightlyText with
  | error e =>
    rw [hf] at hcount
    cases hcount
  | ok f =>
    rw [hf] at hcount
    exact ⟨f, rfl, Option.some.inj hcount, ((parse_exact nightlyText f).2 hf).1 Handler.ofStep⟩

/-- A step that is given as the list of its fields. -/
def listedText : String :=
  "handlers:\n- source: cron\n  type: nightly\n  run:\n" ++
  "  - name: build\n  - ~\n  - ~\n  - ~\n"

/-- A list of the fields of a step declares no step, though it would if lists stood for records. -/
theorem not_parse_listed :
    (∃ d f, IsDocument listedText d ∧ decode { yamlTerms with lists := true } d = .ok f ∧ f.Proper) ∧
      parse listedText = .error (.handlers .mismatch) := by
  constructor
  · have hread : (Document.ofYaml listedText).2 = true ∧
        (Document.ofYaml listedText).1.isWhole = true := by decide +kernel
    have hcheck : (decode { yamlTerms with lists := true } (Document.ofYaml listedText).1).toOption.map
        check = some (.ok ()) := by decide +kernel
    cases hf : decode { yamlTerms with lists := true } (Document.ofYaml listedText).1 with
    | error e =>
      rw [hf] at hcheck
      cases hcheck
    | ok f =>
      rw [hf] at hcheck
      exact ⟨_, f, ⟨Prod.ext rfl hread.1, hread.2⟩, hf, check_eq_ok_iff.1 (Option.some.inj hcheck)⟩
  · have hrefused : (match parse listedText with
        | .ok _ => none
        | .error e => some e) = some (.handlers .mismatch) := by decide +kernel
    cases hf : parse listedText with
    | error e =>
      rw [hf] at hrefused
      exact congrArg Except.error (Option.some.inj hrefused)
    | ok f =>
      rw [hf] at hrefused
      cases hrefused

end HandlerFile

end EventWorker
