import EventWorker.Config
import EventWorker.Proofs.Checks
import EventWorker.Proofs.Text.Blank

/-!
# Which settings make a configuration

A setting is taken without the blanks at its ends, and a blank one counts as not given. Four of the settings
have to be given and four more have to be readable if they are (`Rule`); the rest are taken as they come.
The rules are gone through one after another, and a complaint is about the first that is broken
(`Guarded`). What reads one setting has one rule, and what reads several in a row has theirs in a row
(`Guarded.bind`), so that the order of the rules is that of the readings. What counts as a pattern for
service accounts is left to the reader of patterns.

Main statement: `Config.ofSettings_decided`.
-/

namespace EventWorker

/-! ### Words -/

/-- The words for a level. -/
def LogLevel.words : List String :=
  ["debug", "trace", "info", "warn", "warning", "error"]

/-- A text with no blanks at its ends is a level if it is one of the words in any ASCII case. -/
theorem LogLevel.isSome_parse?_iff {s : String} (h : Text.IsNeat s) :
    (parse? s).isSome ↔ Text.lowerAscii s ∈ words := by
  simp only [parse?, h.2, words, List.mem_cons, List.not_mem_nil, or_false]
  split_ifs <;> grind

namespace Setting

/-- The words for yes and no. -/
def flagWords : List String :=
  ["true", "1", "yes", "false", "0", "no"]

theorem isSome_flag?_iff {s : String} : (flag? s).isSome ↔ Text.lowerAscii s ∈ flagWords := by
  simp only [flag?, flagWords, List.mem_cons, List.not_mem_nil, or_false]
  split_ifs <;> grind

/-! ### Taking settings -/

/-- The look-up with all values trimmed, and blank ones not given. -/
def trimmed (lookup : Lookup) : Lookup := fun name =>
  (lookup name).bind Text.trimmed?

theorem isNeat_of_get {lookup : Lookup} {name s : String} (h : get lookup name = some s) :
    Text.IsNeat s := by
  obtain ⟨_, -, hs⟩ := Option.bind_eq_some_iff.1 h
  exact Text.isNeat_of_trimmed? hs

/-- A setting that has been trimmed is taken as before. -/
theorem get_trimmed (lookup : Lookup) (name : String) : get (trimmed lookup) name = get lookup name := by
  have hneat : ∀ s ∈ get lookup name, Text.IsNeat s := fun _ hs => isNeat_of_get hs
  exact Text.bind_trimmed?_of_isNeat hneat

end Setting

/-- Nothing but what is taken for the settings has a say in the configuration. -/
theorem Config.ofSettings_congr {lookup other : Lookup} (patterns : Text.Pattern.Reader)
    (h : ∀ name ∈ Setting.names, Setting.get other name = Setting.get lookup name) :
    ofSettings other patterns = ofSettings lookup patterns := by
  simp only [Setting.names, List.forall_mem_cons] at h
  obtain ⟨hid, hsource, htype, hcommit, href, hpayload, hproject, hnamespace, haccount, hpattern, hlevel,
    hlegacy, hexits, hcache, hbuild, hsize, -⟩ := h
  simp only [ofSettings, eventOfSettings, apply, Setting.required, Setting.pattern, Setting.level,
    Setting.flag, Setting.parsed, hid, hsource, htype, hcommit, href, hpayload, hproject, hnamespace,
    haccount, hpattern, hlevel, hlegacy, hexits, hcache, hbuild, hsize]

/-! ### Rules -/

namespace Setting

/-- What is asked of a setting. -/
inductive Rule where
  /-- It has to be given. -/
  | needed (name : String)
  /-- If it is given, its value has to be one of these. -/
  | checked (name : String) (accepts : String → Prop)

/-- The rule is kept. -/
def Rule.Met (lookup : Lookup) : Rule → Prop
  | needed name => (get lookup name).isSome
  | checked name accepts => ∀ s ∈ get lookup name, accepts s

/-- The complaint is about the setting of this rule, by its full name. -/
def Rule.BlamedBy (e : ConfigError) : Rule → Prop
  | needed name => e = .missing (key name)
  | checked name _ => ∃ reason, e = .invalid (key name) reason

/-- The rule is broken, and all before it are kept. -/
def FirstBroken (lookup : Lookup) (rules : List Rule) (rule : Rule) : Prop :=
  ∃ before after, rules = before ++ rule :: after ∧ (∀ r ∈ before, r.Met lookup) ∧ ¬rule.Met lookup

/-- There is a result only if all rules are kept; otherwise the complaint is about the first that is
broken. -/
structure Guarded {α : Type} (lookup : Lookup) (rules : List Rule) (result : Except ConfigError α) :
    Prop where
  met : ∀ a, result = .ok a → ∀ rule ∈ rules, rule.Met lookup
  blamed : ∀ e, result = .error e → ∃ rule, FirstBroken lookup rules rule ∧ rule.BlamedBy e

namespace Guarded

variable {α β : Type} {lookup : Lookup} {rules others : List Rule}

theorem pure (a : α) : Guarded lookup [] (.ok a) where
  met _ _ _ hrule := absurd hrule List.not_mem_nil
  blamed _ h := by cases h

/-- One rule is looked at. -/
theorem of_rule {rule : Rule} {result : Except ConfigError α}
    (hok : ∀ a, result = .ok a → rule.Met lookup)
    (herror : ∀ e, result = .error e → ¬rule.Met lookup ∧ rule.BlamedBy e) :
    Guarded lookup [rule] result where
  met a h := List.forall_mem_singleton.2 (hok a h)
  blamed e h := by
    obtain ⟨hbroken, hblamed⟩ := herror e h
    exact ⟨rule, ⟨[], [], rfl, fun _ hr => absurd hr List.not_mem_nil, hbroken⟩, hblamed⟩

/-- The rules of what is read afterwards come afterwards. -/
theorem bind {result : Except ConfigError α} {next : α → Except ConfigError β}
    (h : Guarded lookup rules result) (hnext : ∀ a, Guarded lookup others (next a)) :
    Guarded lookup (rules ++ others) (result >>= next) := by
  cases result with
  | error e =>
    refine ⟨fun _ hb => (by cases hb), fun e' he' => ?_⟩
    obtain rfl : e = e' := Except.error.inj he'
    obtain ⟨rule, ⟨before, after, rfl, hbefore, hbroken⟩, hblamed⟩ := h.blamed e rfl
    refine ⟨rule, ⟨before, after ++ others, ?_, hbefore, hbroken⟩, hblamed⟩
    rw [List.append_assoc, List.cons_append]
  | ok a =>
    have hrules := h.met a rfl
    refine ⟨fun b hb => List.forall_mem_append.2 ⟨hrules, (hnext a).met b hb⟩, fun e he => ?_⟩
    obtain ⟨rule, ⟨before, after, rfl, hbefore, hbroken⟩, hblamed⟩ := (hnext a).blamed e he
    refine ⟨rule, ⟨rules ++ before, after, ?_, ?_, hbroken⟩, hblamed⟩
    · rw [List.append_assoc]
    · exact List.forall_mem_append.2 ⟨hrules, hbefore⟩

/-- No rule is broken that has been gone through. -/
theorem exists_ok_iff {result : Except ConfigError α} (h : Guarded lookup rules result) :
    (∃ a, result = .ok a) ↔ ∀ rule ∈ rules, rule.Met lookup := by
  refine ⟨fun ⟨a, ha⟩ => h.met a ha, fun hmet => ?_⟩
  cases hresult : result with
  | ok a => exact ⟨a, rfl⟩
  | error e =>
    obtain ⟨rule, ⟨before, after, rfl, -, hbroken⟩, -⟩ := h.blamed e hresult
    exact absurd (hmet rule (List.mem_append_right _ List.mem_cons_self)) hbroken

end Guarded

variable (lookup : Lookup)

theorem guarded_required (name : String) : Guarded lookup [.needed name] (required lookup name) := by
  rw [required]
  cases hget : get lookup name with
  | some s => exact .of_rule (fun _ _ => by rw [Rule.Met, hget]; rfl) fun _ he => by cases he
  | none =>
    refine .of_rule (fun _ ha => by cases ha) fun e he => ⟨?_, ?_⟩
    · rw [Rule.Met, hget]
      exact Bool.false_ne_true
    · exact (Except.error.inj he).symm

theorem guarded_parsed {α : Type} {name : String} {read : String → Option α}
    {complaint : String → String} {accepts : String → Prop}
    (h : ∀ s, Text.IsNeat s → ((read s).isSome ↔ accepts s)) :
    Guarded lookup [.checked name accepts] (parsed lookup name read complaint) := by
  cases hget : get lookup name with
  | none =>
    have hresult : parsed lookup name read complaint = .ok none := by simp only [parsed, hget]
    rw [hresult]
    exact .of_rule (fun _ _ s hs => by rw [hget] at hs; cases hs) fun _ he => by cases he
  | some s =>
    have hmet : Rule.Met lookup (.checked name accepts) ↔ (read s).isSome := by
      rw [Rule.Met, hget, h s (isNeat_of_get hget)]
      exact ⟨fun hall => hall s rfl, fun hs t ht => Option.some.inj ht ▸ hs⟩
    cases hread : read s with
    | some a =>
      have hresult : parsed lookup name read complaint = .ok (some a) := by simp only [parsed, hget, hread]
      rw [hresult]
      exact .of_rule (fun _ _ => hmet.2 (by rw [hread]; rfl)) fun _ he => by cases he
    | none =>
      have hresult : parsed lookup name read complaint = .error (.invalid (key name) (complaint s)) := by
        simp only [parsed, hget, hread]
      rw [hresult]
      refine .of_rule (fun _ ha => by cases ha) fun e he => ⟨fun hkept => ?_, complaint s, ?_⟩
      · have hsome := hmet.1 hkept
        rw [hread] at hsome
        cases hsome
      · exact (Except.error.inj he).symm

/-! ### The rules there are -/

/-- What the event is made of. -/
def eventRules : List Rule :=
  [.needed "EVENT_ID", .needed "EVENT_SOURCE", .needed "EVENT_TYPE"]

/-- What holds for all units. -/
def unitRules (patterns : Text.Pattern.Reader) : List Rule :=
  [.checked "SERVICE_ACCOUNT_REGEX" fun s => (patterns s).isSome,
    .checked "LOG_LEVEL" fun s => Text.lowerAscii s ∈ LogLevel.words,
    .checked "LEGACY_NAMING" fun s => Text.lowerAscii s ∈ flagWords,
    .checked "EXIT_ON_ERROR" fun s => Text.lowerAscii s ∈ flagWords]

/-- All rules, in the order in which they are gone through. -/
def rules (patterns : Text.Pattern.Reader) : List Rule :=
  eventRules ++ .needed "PROJECT_ID" :: unitRules patterns

end Setting

namespace Config

open Setting

variable (patterns : Text.Pattern.Reader) (lookup : Lookup)

theorem guarded_eventOfSettings : Guarded lookup eventRules (eventOfSettings lookup) := by
  refine (guarded_required lookup "EVENT_ID").bind fun id => ?_
  refine (guarded_required lookup "EVENT_SOURCE").bind fun source => ?_
  exact (guarded_required lookup "EVENT_TYPE").bind fun type => .pure _

theorem guarded_apply (c : Config) :
    Guarded lookup (unitRules patterns) (c.apply patterns lookup) := by
  refine (guarded_parsed lookup fun _ _ => Iff.rfl).bind fun accountPattern => ?_
  refine (guarded_parsed lookup fun _ hneat => LogLevel.isSome_parse?_iff hneat).bind fun level => ?_
  refine (guarded_parsed lookup fun _ _ => isSome_flag?_iff).bind fun legacy => ?_
  exact (guarded_parsed lookup fun _ _ => isSome_flag?_iff).bind fun exits => .pure _

theorem guarded_ofSettings : Guarded lookup (rules patterns) (ofSettings lookup patterns) := by
  refine (guarded_eventOfSettings lookup).bind fun event => ?_
  exact (guarded_required lookup "PROJECT_ID").bind fun projectId =>
    guarded_apply patterns lookup _

variable {patterns lookup}

/-- What holds for all units leaves the event as it is. -/
theorem event_of_apply {c c' : Config} (h : c.apply patterns lookup = .ok c') : c'.event = c.event := by
  obtain ⟨accountPattern, -, h⟩ := Except.bind_eq_ok_iff.1 h
  obtain ⟨level, -, h⟩ := Except.bind_eq_ok_iff.1 h
  obtain ⟨legacy, -, h⟩ := Except.bind_eq_ok_iff.1 h
  obtain ⟨exits, -, h⟩ := Except.bind_eq_ok_iff.1 h
  obtain rfl := Except.ok.inj h
  rfl

theorem isSome_revision_iff {event : Event} (h : eventOfSettings lookup = .ok event) :
    event.data.revision.isSome ↔ (get lookup "COMMIT_ID").isSome ∨ (get lookup "COMMIT_REF").isSome := by
  obtain ⟨id, -, h⟩ := Except.bind_eq_ok_iff.1 h
  obtain ⟨source, -, h⟩ := Except.bind_eq_ok_iff.1 h
  obtain ⟨type, -, h⟩ := Except.bind_eq_ok_iff.1 h
  obtain rfl := Except.ok.inj h
  simp [Event.data]

/-- **Exactly the valid settings make a configuration**, whatever texts are read as patterns. What comes of
a look-up is decided by what is taken for the sixteen settings, so it makes no difference to trim the values
beforehand and to leave the blank ones out. There is a configuration exactly if the four settings are given
that have to be, the pattern for service accounts is one, the level is known, and the two switches are set
to yes or no. Otherwise the complaint is about the first setting, in the order of `Setting.rules`, for which
this fails. The event has a revision exactly if a commit or a reference is given. -/
theorem ofSettings_decided (patterns : Text.Pattern.Reader) (lookup : Lookup) :
    (∀ other : Lookup, (∀ name ∈ names, get other name = get lookup name) →
      ofSettings other patterns = ofSettings lookup patterns) ∧
    ofSettings (trimmed lookup) patterns = ofSettings lookup patterns ∧
    ((∃ c, ofSettings lookup patterns = .ok c) ↔
      ((get lookup "EVENT_ID").isSome ∧ (get lookup "EVENT_SOURCE").isSome ∧
        (get lookup "EVENT_TYPE").isSome ∧ (get lookup "PROJECT_ID").isSome) ∧
      (∀ s ∈ get lookup "SERVICE_ACCOUNT_REGEX", (patterns s).isSome) ∧
      (∀ s ∈ get lookup "LOG_LEVEL", Text.lowerAscii s ∈ LogLevel.words) ∧
      (∀ s ∈ get lookup "LEGACY_NAMING", Text.lowerAscii s ∈ flagWords) ∧
      (∀ s ∈ get lookup "EXIT_ON_ERROR", Text.lowerAscii s ∈ flagWords)) ∧
    (∀ e, ofSettings lookup patterns = .error e →
      ∃ rule, FirstBroken lookup (rules patterns) rule ∧ rule.BlamedBy e) ∧
    (∀ c, ofSettings lookup patterns = .ok c → (c.event.data.revision.isSome ↔
      (get lookup "COMMIT_ID").isSome ∨ (get lookup "COMMIT_REF").isSome)) := by
  have hguarded := guarded_ofSettings patterns lookup
  refine ⟨fun other h => ofSettings_congr patterns h,
    ofSettings_congr patterns fun name _ => get_trimmed lookup name, ?_, hguarded.blamed, fun c h => ?_⟩
  · rw [hguarded.exists_ok_iff]
    simp only [rules, eventRules, unitRules, List.cons_append, List.nil_append, List.forall_mem_cons,
      Rule.Met, List.not_mem_nil, false_imp_iff, implies_true, and_true, and_assoc]
  · obtain ⟨event, hevent, h⟩ := Except.bind_eq_ok_iff.1 h
    obtain ⟨projectId, -, h⟩ := Except.bind_eq_ok_iff.1 h
    rw [event_of_apply h]
    exact isSome_revision_iff hevent

/-- With two settings wrong, the complaint is about the one that is looked at first. -/
example : (ofSettings fun name =>
    [("FERRY_EVENT_ID", "1"), ("FERRY_EVENT_SOURCE", "cron"), ("FERRY_EVENT_TYPE", " tick "),
      ("FERRY_PROJECT_ID", "p"), ("FERRY_EXIT_ON_ERROR", "maybe"), ("FERRY_LOG_LEVEL", "Loud")].lookup name) =
    .error (.invalid "FERRY_LOG_LEVEL" "unknown level 'Loud'") := by
  rfl

end Config

end EventWorker
