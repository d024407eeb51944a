import EventWorker.Config
import EventWorker.Proofs.Document.Fields
import EventWorker.Proofs.RoundTrip
import EventWorker.Proofs.Text.Blank

/-!
# Two ways to receive an event

The texts of an event and the identifier of its project may come as settings or in a descriptor
(`Received`). Settings are taken without the blanks at their ends, and a blank one counts as not given; a
descriptor is taken as it is, but for the two identifiers, which must not be blank. So the two ways agree
on texts that have something in them and no blanks at their ends, and apart from that in what is left when
all texts are trimmed. The order of the fields of a descriptor makes no difference.

Main statement: `Received.config_alike`.
-/

namespace EventWorker

/-- The texts of an event, and the identifier of its project. -/
structure Received where
  id : String
  source : String
  type : String
  projectId : String
  payload : Option String := none
  commit : Option String := none
  gitRef : Option String := none

namespace Received

/-- There is a revision if anything is said about it. -/
def revision? (r : Received) : Option Revision :=
  if r.commit.isSome || r.gitRef.isSome then some { commit := r.commit, gitRef := r.gitRef } else none

def data (r : Received) : EventData where
  id := r.id
  source := r.source
  type := r.type
  payload := r.payload
  revision := r.revision?

/-- The event that the texts say. -/
def event (r : Received) : Event :=
  .primary r.data

/-- All texts but the payload without the blanks at their ends; one that may be absent counts as absent if
it is blank. -/
def trimmed (r : Received) : Received where
  id := Text.trim r.id
  source := Text.trim r.source
  type := Text.trim r.type
  projectId := Text.trim r.projectId
  payload := r.payload
  commit := r.commit.bind Text.trimmed?
  gitRef := r.gitRef.bind Text.trimmed?

/-- None of the texts is blank or has a blank at its ends. -/
structure IsNeat (r : Received) : Prop where
  id : Text.IsNeat r.id
  source : Text.IsNeat r.source
  type : Text.IsNeat r.type
  projectId : Text.IsNeat r.projectId
  payload : ∀ s ∈ r.payload, Text.IsNeat s
  commit : ∀ s ∈ r.commit, Text.IsNeat s
  gitRef : ∀ s ∈ r.gitRef, Text.IsNeat s

end Received

/-! ### Settings -/

namespace Setting

/-- The settings that hold for all units. -/
def unitNames : List String :=
  ["PROJECT_NAMESPACE", "SERVICE_ACCOUNT", "SERVICE_ACCOUNT_REGEX", "LOG_LEVEL", "LEGACY_NAMING",
    "EXIT_ON_ERROR", "DEFAULT_CACHE_STORAGE_CLASS", "DEFAULT_BUILD_STORAGE_CLASS", "BUILD_STORAGE_SIZE"]

/-- None of them is given. -/
def Silent (lookup : Lookup) : Prop :=
  ∀ name ∈ unitNames, lookup (key name) = none

theorem Silent.parsed {α : Type} {lookup : Lookup} (h : Silent lookup) {name : String}
    (hname : name ∈ unitNames) (read : String → Option α) (complaint : String → String) :
    parsed lookup name read complaint = .ok none := by
  rw [Setting.parsed, Setting.get, h name hname]
  rfl

theorem required_eq {lookup : Lookup} {name s : String} (h : lookup (key name) = some s) :
    required lookup name =
      if Text.isBlankText s then .error (.missing (key name)) else .ok (Text.trim s) := by
  rw [required, Setting.get, h, Option.bind_some]
  cases hs : Text.isBlankText s with
  | true => rw [Text.trimmed?_of_blank hs, if_pos rfl]
  | false => rw [Text.trimmed?_of_not_blank hs, if_neg Bool.false_ne_true]

end Setting

namespace Received

open Setting

/-- The texts are given as settings, and no other setting is. -/
structure GivenBy (r : Received) (lookup : Lookup) : Prop where
  id : lookup (key "EVENT_ID") = some r.id
  source : lookup (key "EVENT_SOURCE") = some r.source
  type : lookup (key "EVENT_TYPE") = some r.type
  projectId : lookup (key "PROJECT_ID") = some r.projectId
  payload : lookup (key "PAYLOAD") = r.payload
  commit : lookup (key "COMMIT_ID") = r.commit
  gitRef : lookup (key "COMMIT_REF") = r.gitRef
  silent : Silent lookup

end Received

/-- Where nothing else is set, a configuration keeps its event and its project. -/
theorem Config.apply_of_silent {lookup : Lookup} (h : Setting.Silent lookup) (c : Config)
    (patterns : Text.Pattern.Reader) :
    ∃ c', c.apply patterns lookup = .ok c' ∧ c'.projectId = c.projectId ∧ c'.event = c.event := by
  have hpattern : Setting.pattern patterns lookup "SERVICE_ACCOUNT_REGEX" = .ok none :=
    h.parsed (by decide) _ _
  have hlevel : Setting.level lookup "LOG_LEVEL" = .ok none := h.parsed (by decide) _ _
  have hlegacy : Setting.flag lookup "LEGACY_NAMING" = .ok none := h.parsed (by decide) _ _
  have hexits : Setting.flag lookup "EXIT_ON_ERROR" = .ok none := h.parsed (by decide) _ _
  rw [apply, hpattern, hlevel, hlegacy, hexits]
  exact ⟨_, rfl, rfl, rfl⟩

namespace Received

open Setting Config

variable {r : Received} {lookup : Lookup}

/-- **What settings come to**: there is a configuration if none of the four texts is blank that have to
be there, and its event is made of what is left of the texts. -/
theorem ofSettings_of_givenBy (h : r.GivenBy lookup) (patterns : Text.Pattern.Reader) :
    if Text.isBlankText r.id || Text.isBlankText r.source || Text.isBlankText r.type ||
      Text.isBlankText r.projectId then ∃ e, ofSettings lookup patterns = .error e
    else ∃ c, ofSettings lookup patterns = .ok c ∧ c.projectId = r.trimmed.projectId ∧
      c.event = { r.trimmed with payload := r.payload.bind Text.trimmed? }.event := by
  rw [ofSettings, eventOfSettings, required_eq h.id, required_eq h.source, required_eq h.type,
    required_eq h.projectId]
  cases Text.isBlankText r.id
  case true => exact ⟨_, rfl⟩
  cases Text.isBlankText r.source
  case true => exact ⟨_, rfl⟩
  cases Text.isBlankText r.type
  case true => exact ⟨_, rfl⟩
  cases Text.isBlankText r.projectId
  case true => exact ⟨_, rfl⟩
  obtain ⟨c, happly, hproject, hevent⟩ := apply_of_silent h.silent
    { projectId := Text.trim r.projectId
      event := { r.trimmed with payload := r.payload.bind Text.trimmed? }.event } patterns
  refine ⟨c, ?_, hproject, hevent⟩
  rw [← happly]
  simp only [Setting.get, h.payload, h.commit, h.gitRef]
  rfl

end Received

/-! ### Records of texts -/

open Decoder Document

section Fields

variable {fields : List (String × Document)} {key : String} {d : Document}

/-- The fields of a record whose keys are texts. -/
def textFields (fields : List (String × Document)) : List (Document × Document) :=
  fields.map fun f => (.text f.1, f.2)

theorem mem_of_valueOf? (h : valueOf? key (textFields fields) = some d) : (key, d) ∈ fields := by
  induction fields with
  | nil => cases h
  | cons f rest ih =>
    obtain ⟨k, v⟩ := f
    by_cases hk : k = key
    · subst hk
      have hself : valueOf? k (textFields ((k, v) :: rest)) = some v := valueOf?_cons_self rfl
      obtain rfl := Option.some.inj (hself.symm.trans h)
      exact List.mem_cons_self
    · have hother : valueOf? key (textFields ((k, v) :: rest)) = valueOf? key (textFields rest) :=
        valueOf?_cons_of_ne rfl (Ne.symm hk)
      exact List.mem_cons_of_mem _ (ih (hother.symm.trans h))

theorem valueOf?_of_mem (hnodup : (fields.map (·.1)).Nodup) (h : (key, d) ∈ fields) :
    valueOf? key (textFields fields) = some d := by
  cases hvalue : valueOf? key (textFields fields) with
  | none =>
    have hmem : (Document.text key, d) ∈ textFields fields := List.mem_map_of_mem h
    exact absurd rfl (valueOf?_eq_none_iff.1 hvalue _ hmem)
  | some v =>
    have hsame := List.inj_on_of_nodup_map hnodup (mem_of_valueOf? hvalue) h rfl
    rw [(Prod.mk.inj hsame).2]

theorem keyed_textFields (hnodup : (fields.map (·.1)).Nodup) {known : List String}
    (hknown : ∀ f ∈ fields, f.1 ∈ known) (closed : Bool) : Keyed known closed (textFields fields) where
  texts f hf := by
    obtain ⟨f, -, rfl⟩ := List.mem_map.1 hf
    exact ⟨f.1, rfl⟩
  once := by
    refine List.pairwise_map.2 ((List.pairwise_map.1 hnodup).imp ?_)
    rintro f g hne key - hf hg
    exact hne ((Option.some.inj hf).trans (Option.some.inj hg).symm)
  others f hf key hkey hnot := by
    obtain ⟨f, hmem, rfl⟩ := List.mem_map.1 hf
    obtain rfl := Option.some.inj hkey
    exact absurd (hknown f hmem) hnot

theorem fieldsFree_textFields {levels : Nat} (h : ∀ f ∈ fields, f.2.isFree levels = true) :
    fieldsFree levels (textFields fields) = true := by
  induction fields with
  | nil => rfl
  | cons f rest ih =>
    show ((Document.text f.1).isFree levels && f.2.isFree levels &&
      fieldsFree levels (textFields rest)) = true
    rw [h f List.mem_cons_self, ih fun g hg => h g (List.mem_cons_of_mem f hg)]
    rfl

/-- The fields say a value under a key, in one of its spellings, or that there is none. -/
def Says {α : Type} (fields : List (String × Document)) (key : String) (spelled : α → Document → Prop) :
    Option α → Prop
  | some a => ∃ d, (key, d) ∈ fields ∧ spelled a d
  | none => ∀ d, (key, d) ∈ fields → d = .null

section Says

variable {α : Type} {spelled : α → Document → Prop} {value? : Option α}

theorem Says.reads {σ : Type} (h : Says fields key spelled value?) (hnodup : (fields.map (·.1)).Nodup)
    {read : Decoder α} {terms : Terms}
    (hread : ∀ a ∈ value?, ∀ d, spelled a d → d.IsGiven ∧ read terms d = .ok a)
    {get : σ → Option α} {put : Option α → σ → σ} {first s : σ} (hfirst : get first = none)
    (hs : get s = value?) :
    (Column.ofOptional key read get put).Reads terms first s (valueOf? key (textFields fields)) := by
  cases value? with
  | none =>
    rw [Column.reads_ofOptional_of_none hfirst hs]
    intro v hv
    obtain rfl := h v (mem_of_valueOf? hv)
    exact .null
  | some a =>
    obtain ⟨d, hd, hspelled⟩ := h
    rw [Column.reads_ofOptional_of_some hfirst hs]
    exact ⟨d, valueOf?_of_mem hnodup hd, hread a rfl d hspelled⟩

/-- What the value is spelled by is null or one of its spellings. -/
theorem Says.elim (h : Says fields key spelled value?) (hnodup : (fields.map (·.1)).Nodup)
    (hd : (key, d) ∈ fields) : d = .null ∨ ∃ a ∈ value?, spelled a d := by
  cases value? with
  | none => exact .inl (h d hd)
  | some a =>
    obtain ⟨d', hd', hspelled⟩ := h
    have hsame := List.inj_on_of_nodup_map hnodup hd hd' rfl
    obtain rfl := (Prod.mk.inj hsame).2
    exact .inr ⟨a, rfl, hspelled⟩

/-- A text is spelled by itself. -/
def IsText (s : String) (d : Document) : Prop :=
  d = .text s

theorem IsText.read {s : String} (h : IsText s d) (terms : Terms) :
    d.IsGiven ∧ Decoder.text terms d = .ok s := by
  obtain rfl := h
  refine ⟨⟨fun hnull => ?_, fun _ heq => ?_⟩, rfl⟩
  · cases hnull
  · cases heq

theorem Says.isFree_of_texts {text? : Option String} (h : Says fields key IsText text?)
    (hnodup : (fields.map (·.1)).Nodup) (hd : (key, d) ∈ fields) (levels : Nat) :
    d.isFree levels = true := by
  rcases h.elim hnodup hd with rfl | ⟨s, -, rfl⟩ <;> rfl

theorem says_textOrNull {text? : Option String} (hd : ∀ d, (key, d) ∈ fields ↔ d = .textOrNull text?) :
    Says fields key IsText text? := by
  cases text? with
  | none => exact fun d => (hd d).1
  | some s => exact ⟨.text s, (hd _).2 rfl, rfl⟩

end Says

end Fields

namespace Revision

def columns : List (Column Revision) :=
  [.ofOptional "commit" Decoder.text (·.commit) fun v r => { r with commit := v },
    .ofOptional "ref" Decoder.text (·.gitRef) fun v r => { r with gitRef := v }]

theorem laid_shape : Laid shape columns where
  fields := rfl
  nodup := by decide
  required _ hf := by cases hf
  repeats := rfl
  set := by simp [columns, shape, Column.ofOptional]
  get_put := by simp [columns, Column.ofOptional]
  get_put_of_ne := by simp [columns, Column.ofOptional]
  ext := by
    rintro ⟨⟩ ⟨⟩
    simp [columns, Column.ofOptional]

/-- A record says the two texts of a revision, and nothing else. -/
structure SaidBy (r : Revision) (fields : List (String × Document)) : Prop where
  nodup : (fields.map (·.1)).Nodup
  known : ∀ f ∈ fields, f.1 ∈ shape.fields
  commit : Says fields "commit" IsText r.commit
  gitRef : Says fields "ref" IsText r.gitRef

variable {r : Revision} {fields : List (String × Document)}

theorem SaidBy.decode (h : r.SaidBy fields) {terms : Terms} (hterms : 1 ≤ terms.levels) :
    Revision.decode terms (.object fields) = .ok r := by
  have hfields : ∀ inner : Terms, 0 ≤ inner.levels → shape.ofFields inner (textFields fields) = .ok r := by
    intro inner _
    refine laid_shape.ofFields_eq_ok_iff.2 ⟨keyed_textFields h.nodup h.known _,
      fun key hkey => absurd hkey List.not_mem_nil, fun c hc => ?_⟩
    rcases List.mem_pair.1 hc with rfl | rfl
    · exact h.commit.reads h.nodup (fun _ _ _ hs => hs.read inner) rfl rfl
    · exact h.gitRef.reads h.nodup (fun _ _ _ hs => hs.read inner) rfl rfl
  exact Spells.decode_enter hfields hterms

theorem SaidBy.isFree (h : r.SaidBy fields) (levels : Nat) :
    (Document.object fields).isFree (levels + 1) = true := by
  refine fieldsFree_textFields ?_
  rintro ⟨key, d⟩ hf
  rcases List.mem_pair.1 (h.known _ hf) with rfl | rfl
  · exact h.commit.isFree_of_texts h.nodup hf levels
  · exact h.gitRef.isFree_of_texts h.nodup hf levels

/-- The fields that a revision is written with say it. -/
theorem saidBy_own (r : Revision) :
    r.SaidBy [("commit", .textOrNull r.commit), ("ref", .textOrNull r.gitRef)] where
  nodup := by
    show ["commit", "ref"].Nodup
    decide
  known := by simp [shape]
  commit := says_textOrNull (by simp)
  gitRef := says_textOrNull (by simp)

end Revision

namespace Event

def columns : List (Column EventData) :=
  [⟨"id", String, Decoder.text, (·.id), fun v e => { e with id := v }⟩,
    ⟨"source", String, Decoder.text, (·.source), fun v e => { e with source := v }⟩,
    ⟨"type", String, Decoder.text, (·.type), fun v e => { e with type := v }⟩,
    .ofOptional "shortTitle" Decoder.text (·.shortTitle) fun v e => { e with shortTitle := v },
    .ofOptional "longTitle" Decoder.text (·.longTitle) fun v e => { e with longTitle := v },
    .ofOptional "payload" Decoder.text (·.payload) fun v e => { e with payload := v },
    .ofOptional "revision" Revision.decode (·.revision) fun v e => { e with revision := v },
    ⟨"worker", Worker, Worker.decode, (·.worker), fun v e => { e with worker := v }⟩]

theorem laid_shape : Laid shape columns where
  fields := rfl
  nodup := by decide
  required := by decide
  repeats := rfl
  set := by simp [columns, shape, Column.ofOptional]
  get_put := by simp [columns, Column.ofOptional]
  get_put_of_ne := by simp [columns, Column.ofOptional]
  ext := by
    rintro ⟨⟩ ⟨⟩
    simp [columns, Column.ofOptional]

end Event

/-! ### Descriptors -/

namespace Received

open Config

/-- The fields of a record say the texts of the event, in some order, and nothing else. -/
structure SaidBy (r : Received) (fields : List (String × Document)) : Prop where
  nodup : (fields.map (·.1)).Nodup
  known : ∀ f ∈ fields, f.1 ∈ ["id", "source", "type", "payload", "revision"]
  id : ("id", .text r.id) ∈ fields
  source : ("source", .text r.source) ∈ fields
  type : ("type", .text r.type) ∈ fields
  payload : Says fields "payload" IsText r.payload
  revision : Says fields "revision" (fun rev d => ∃ inner, d = .object inner ∧ rev.SaidBy inner) r.revision?

variable {r : Received} {fields : List (String × Document)}

theorem SaidBy.decode (h : r.SaidBy fields) {terms : Terms} (hterms : 1 ≤ terms.levels) :
    Event.shape.ofFields terms (textFields fields) = .ok r.data := by
  have htext : ∀ {key s : String}, (key, .text s) ∈ fields →
      valueOf? key (textFields fields) = some (.text s) := valueOf?_of_mem h.nodup
  have habsent : ∀ {key : String}, key ∉ ["id", "source", "type", "payload", "revision"] →
      valueOf? key (textFields fields) = none := by
    intro key hkey
    rw [Option.eq_none_iff_forall_ne_some]
    exact fun d hd => hkey (h.known _ (mem_of_valueOf? hd))
  refine Event.laid_shape.ofFields_eq_ok_iff.2 ⟨keyed_textFields h.nodup (fun f hf => ?_) _, ?_, ?_⟩
  · have hsub : ["id", "source", "type", "payload", "revision"] ⊆ Event.shape.fields := by decide
    exact hsub (h.known f hf)
  · have hrequired : ∀ key ∈ ["id", "source", "type"], (valueOf? key (textFields fields)).isSome := by
      simp [htext h.id, htext h.source, htext h.type]
    exact hrequired
  · have hrevision : ∀ rev ∈ r.revision?, ∀ d, (∃ inner, d = .object inner ∧ rev.SaidBy inner) →
        d.IsGiven ∧ Revision.decode terms d = .ok rev := by
      rintro rev - _ ⟨inner, rfl, hinner⟩
      refine ⟨⟨fun hnull => ?_, fun _ heq => ?_⟩, hinner.decode hterms⟩
      · cases hnull
      · cases heq
    -- titles and worker are not among the known keys, and stay at their defaults
    simp only [Event.columns, List.forall_mem_cons]
    refine ⟨?_, ?_, ?_, ?_, ?_, ?_, ?_, ?_, fun _ hnil => absurd hnil List.not_mem_nil⟩
    · rw [htext h.id]
      rfl
    · rw [htext h.source]
      rfl
    · rw [htext h.type]
      rfl
    · rw [Column.name_ofOptional, habsent (by decide)]
      rfl
    · rw [Column.name_ofOptional, habsent (by decide)]
      rfl
    · exact h.payload.reads h.nodup (fun _ _ _ hs => hs.read terms) rfl rfl
    · exact h.revision.reads h.nodup hrevision rfl rfl
    · rw [habsent (by decide)]
      rfl

theorem SaidBy.isFree (h : r.SaidBy fields) {levels : Nat} (hlevels : 1 ≤ levels) :
    ∀ f ∈ fields, f.2.isFree levels = true := by
  obtain ⟨levels, rfl⟩ := Nat.exists_eq_add_of_le' hlevels
  have htext : ∀ {key s : String} {d : Document}, (key, .text s) ∈ fields → (key, d) ∈ fields →
      d.isFree (levels + 1) = true := by
    intro key s d hs hd
    obtain ⟨-, rfl⟩ := Prod.mk.inj (List.inj_on_of_nodup_map h.nodup hs hd rfl)
    rfl
  rintro ⟨key, d⟩ hf
  have hkey := h.known _ hf
  simp only [List.mem_cons, List.not_mem_nil, or_false] at hkey
  rcases hkey with rfl | rfl | rfl | rfl | rfl
  · exact htext h.id hf
  · exact htext h.source hf
  · exact htext h.type hf
  · exact h.payload.isFree_of_texts h.nodup hf _
  · rcases h.revision.elim h.nodup hf with rfl | ⟨rev, -, inner, rfl, hinner⟩
    · rfl
    · exact hinner.isFree levels

end Received

namespace Config.Descriptor

variable {terms : Terms} {key : String} {d : Document} {fields before after : List (String × Document)}

/-- A field that is not the project is set aside. -/
theorem split_cons_of_ne (hne : key ≠ "project") (hfree : d.isFree terms.levels = true)
    {p p' : Option Project} {rest others : List (Document × Document)}
    (hrest : split terms p rest = .ok (p', others)) :
    split terms p ((.text key, d) :: rest) = .ok (p', (.text key, d) :: others) := by
  show (if key = "project" then _ else if Document.isFree terms.levels d = true then _ else _) = _
  rw [if_neg hne, if_pos hfree, hrest]
  rfl

theorem split_cons_project {p : Project} (hp : Project.decode terms d = .ok p)
    (rest : List (Document × Document)) :
    split terms none ((.text "project", d) :: rest) = split terms (some p) rest := by
  show (Project.decode terms d >>= _) = _
  rw [hp]
  rfl

theorem split_of_free (hname : "project" ∉ fields.map (·.1))
    (hfree : ∀ f ∈ fields, f.2.isFree terms.levels = true) (p : Option Project) :
    split terms p (textFields fields) = .ok (p, textFields fields) := by
  induction fields with
  | nil => rfl
  | cons f rest ih =>
    obtain ⟨hne, hrest⟩ := not_or.1 (mt List.mem_cons.2 hname)
    have htail := ih hrest fun g hg => hfree g (List.mem_cons_of_mem f hg)
    exact split_cons_of_ne (Ne.symm hne) (hfree f List.mem_cons_self) htail

/-- **The project is found wherever it stands**, and the other fields keep their order. -/
theorem split_append (hname : "project" ∉ (before ++ after).map (·.1))
    (hfree : ∀ f ∈ before ++ after, f.2.isFree terms.levels = true) {p : Project}
    (hp : Project.decode terms d = .ok p) :
    split terms none (textFields (before ++ ("project", d) :: after)) =
      .ok (some p, textFields (before ++ after)) := by
  induction before with
  | nil =>
    rw [← split_of_free hname hfree]
    exact split_cons_project hp _
  | cons f rest ih =>
    obtain ⟨hne, hrest⟩ := not_or.1 (mt List.mem_cons.2 hname)
    have htail := ih hrest fun g hg => hfree g (List.mem_cons_of_mem f hg)
    exact split_cons_of_ne (Ne.symm hne) (hfree f List.mem_cons_self) htail

/-- What holds for the fields of a descriptor. -/
def fieldTerms : Terms :=
  { jsonTerms with levels := jsonTerms.levels - 1 }

end Config.Descriptor

namespace Received

open Setting Config Descriptor

variable {r : Received} {fields : List (String × Document)}

/-- A text is a descriptor of the event, with a project of the identifier among its fields, which may
stand in any order. Of the project nothing but its identifier matters. -/
def WrittenIn (r : Received) (content : String) : Prop :=
  ∃ before d after p, ofJson? content = some (.object (before ++ ("project", d) :: after)) ∧
    r.SaidBy (before ++ after) ∧ Project.decode fieldTerms d = .ok p ∧ p.id = r.projectId

theorem WrittenIn.decode {content : String} (h : r.WrittenIn content) :
    ∃ p, p.id = r.projectId ∧ Decoder.ofJson Descriptor.decode content = .ok ⟨r.event, p⟩ := by
  obtain ⟨before, d, after, p, hread, hsaid, hp, hid⟩ := h
  have hname : "project" ∉ (before ++ after).map (·.1) := by
    intro hmem
    obtain ⟨f, hf, heq⟩ := List.mem_map.1 hmem
    exact absurd (heq ▸ hsaid.known f hf) (by decide)
  have hlevels : 1 ≤ fieldTerms.levels := by decide
  refine ⟨p, hid, ?_⟩
  rw [Decoder.ofJson, hread]
  show (split fieldTerms none (textFields (before ++ ("project", d) :: after)) >>= _) = _
  rw [split_append hname (hsaid.isFree hlevels) hp]
  show (Event.shape.ofFields fieldTerms (textFields (before ++ after)) >>= _) = _
  rw [hsaid.decode hlevels]
  rfl

/-- **What a descriptor comes to**: there is a configuration if neither of the two identifiers is blank,
and its event is made of the texts as they are. -/
theorem ofDescriptor_of_writtenIn {content : String} (h : r.WrittenIn content) {lookup : Lookup}
    (hsilent : Setting.Silent lookup) (patterns : Text.Pattern.Reader) :
    if Text.isBlankText r.id || Text.isBlankText r.projectId then
      ∃ e, ofDescriptor (.ok content) lookup patterns = .error e
    else ∃ c, ofDescriptor (.ok content) lookup patterns = .ok c ∧ c.projectId = r.projectId ∧
      c.event = r.event := by
  obtain ⟨p, hid, hdecode⟩ := h.decode
  have hparts : ofDescriptor (.ok content) lookup patterns =
      if Text.isBlankText p.id then .error (.missing "project.id")
      else if Text.isBlankText r.id then .error (.missing "id")
      else apply { projectId := p.id, event := r.event, project := some p } patterns lookup := by
    rw [ofDescriptor]
    show ((Decoder.ofJson Descriptor.decode content).mapError ConfigError.descriptor >>= _) = _
    rw [hdecode]
    show (if Text.isBlankText p.id then _ else _ : Except _ _) = _
    split
    · rfl
    · show (if Text.isBlankText r.id then _ else _ : Except _ _) = _
      split <;> rfl
  obtain ⟨c, happly, hproject, hevent⟩ := apply_of_silent hsilent
    { projectId := p.id, event := r.event, project := some p } patterns
  rw [hparts, ← hid]
  cases Text.isBlankText p.id
  case true =>
    rw [Bool.or_true]
    exact ⟨_, rfl⟩
  cases Text.isBlankText r.id
  case true => exact ⟨_, rfl⟩
  exact ⟨c, happly, hproject, hevent⟩

/-! ### The two together -/

/-- Settings that give the texts. -/
def settings (r : Received) : Lookup := fun name =>
  ([(key "EVENT_ID", some r.id), (key "EVENT_SOURCE", some r.source), (key "EVENT_TYPE", some r.type),
    (key "PROJECT_ID", some r.projectId), (key "PAYLOAD", r.payload), (key "COMMIT_ID", r.commit),
    (key "COMMIT_REF", r.gitRef)].lookup name).join

theorem givenBy_settings (r : Received) : r.GivenBy r.settings where
  id := rfl
  source := rfl
  type := rfl
  projectId := rfl
  payload := rfl
  commit := rfl
  gitRef := rfl
  silent := by
    simp only [Silent, unitNames, List.forall_mem_cons]
    exact ⟨rfl, rfl, rfl, rfl, rfl, rfl, rfl, rfl, rfl, fun _ hnil => absurd hnil List.not_mem_nil⟩

/-- What a descriptor says about the event. -/
def eventFields (r : Received) : List (String × Document) :=
  [("id", .text r.id), ("source", .text r.source), ("type", .text r.type),
    ("payload", .textOrNull r.payload), ("revision", (r.revision?.map Revision.toDocument).getD .null)]

theorem saidBy_eventFields (r : Received) : r.SaidBy r.eventFields where
  nodup := by
    show ["id", "source", "type", "payload", "revision"].Nodup
    decide
  known := by simp [eventFields]
  id := by simp [eventFields]
  source := by simp [eventFields]
  type := by simp [eventFields]
  payload := says_textOrNull (by simp [eventFields])
  revision := by
    cases hrevision : r.revision? with
    | none => simp [eventFields, Says, hrevision]
    | some rev => exact ⟨rev.toDocument, by simp [eventFields, hrevision], _, rfl, rev.saidBy_own⟩

theorem plain_eventFields (r : Received) : ∀ f ∈ r.eventFields, Plain f.2 := by
  have hpayload : Spells (optional Decoder.text) 0 (.textOrNull r.payload) r.payload := .textOrNull _
  have hrevision : Plain ((r.revision?.map Revision.toDocument).getD .null) := by
    cases r.revision? with
    | none => exact .null
    | some rev =>
      have hspells : Spells Revision.decode 1 rev.toDocument rev := rev.spells
      exact hspells.plain
  simp only [eventFields, List.forall_mem_cons]
  exact ⟨.text _, .text _, .text _, hpayload.plain, hrevision,
    fun _ hnil => absurd hnil List.not_mem_nil⟩

/-- A project of which only the identifier is known. -/
def project (r : Received) : Project :=
  { id := r.projectId }

/-- A descriptor with the texts. -/
def descriptor (r : Received) : String :=
  (Document.object (r.eventFields ++ [("project", r.project.toDocument)])).toJson

theorem writtenIn_descriptor (r : Received) : r.WrittenIn r.descriptor := by
  have hproject : Spells Project.decode 3 r.project.toDocument r.project := Project.spells (.refl _)
  have hplain : ∀ f ∈ r.eventFields ++ [("project", r.project.toDocument)], Plain f.2 :=
    List.forall_mem_append.2 ⟨r.plain_eventFields, List.forall_mem_singleton.2 hproject.plain⟩
  refine ⟨r.eventFields, r.project.toDocument, [], r.project, ofJson?_toJson (.object hplain), ?_,
    hproject.decode fieldTerms (by decide), rfl⟩
  rw [List.append_nil]
  exact r.saidBy_eventFields

theorem IsNeat.trimmed (h : r.IsNeat) : r.trimmed = r := by
  rw [Received.trimmed, h.id.2, h.source.2, h.type.2, h.projectId.2,
    Text.bind_trimmed?_of_isNeat h.commit, Text.bind_trimmed?_of_isNeat h.gitRef]

/-- **The two ways of receiving an event agree but for blanks at the ends.** The same texts can always be
given as settings and in a descriptor. Of settings there is a configuration exactly if none of the four
texts is blank that have to be there, of a descriptor exactly if neither identifier is; the descriptor's event
is made of the texts as they are, that of the settings of what is left when they are trimmed. So texts with no
blank at an end come to the same project and the same event, the payload among them. -/
theorem config_alike (r : Received) : (∃ lookup, r.GivenBy lookup) ∧ (∃ content, r.WrittenIn content) ∧
    ∀ lookup other content patterns, r.GivenBy lookup → Silent other → r.WrittenIn content →
      ((∃ c, ofSettings lookup patterns = .ok c) ↔
        ∀ s ∈ [r.id, r.source, r.type, r.projectId], Text.isBlankText s = false) ∧
      ((∃ d, ofDescriptor (.ok content) other patterns = .ok d) ↔
        ∀ s ∈ [r.id, r.projectId], Text.isBlankText s = false) ∧
      (∀ c, ofSettings lookup patterns = .ok c → c.projectId = r.trimmed.projectId ∧
        ∃ payload, c.event = { r.trimmed with payload }.event ∧
          ((∀ s ∈ r.payload, Text.IsNeat s) → payload = r.payload)) ∧
      (∀ d, ofDescriptor (.ok content) other patterns = .ok d →
        d.projectId = r.projectId ∧ d.event = r.event) ∧
      (r.IsNeat → ∃ c d, ofSettings lookup patterns = .ok c ∧
        ofDescriptor (.ok content) other patterns = .ok d ∧
        c.projectId = d.projectId ∧ c.event = d.event) := by
  refine ⟨⟨_, r.givenBy_settings⟩, ⟨_, r.writtenIn_descriptor⟩, ?_⟩
  intro lookup other content patterns hgiven hsilent hwritten
  obtain ⟨hset, hsetOk⟩ := Except.exists_ok_iff_of_ite (ofSettings_of_givenBy hgiven patterns)
  obtain ⟨hdesc, hdescOk⟩ :=
    Except.exists_ok_iff_of_ite (ofDescriptor_of_writtenIn hwritten hsilent patterns)
  have hpayload : (∀ s ∈ r.payload, Text.IsNeat s) → r.payload.bind Text.trimmed? = r.payload :=
    Text.bind_trimmed?_of_isNeat
  refine ⟨hset.trans ?_, hdesc.trans ?_, fun c hc => ?_, hdescOk, fun hneat => ?_⟩
  · simp [and_assoc]
  · simp
  · obtain ⟨hproject, hevent⟩ := hsetOk c hc
    exact ⟨hproject, _, hevent, hpayload⟩
  · obtain ⟨c, hc⟩ := hset.2 (by
      simp [hneat.id.not_blank, hneat.source.not_blank, hneat.type.not_blank, hneat.projectId.not_blank])
    obtain ⟨d, hd⟩ := hdesc.2 (by simp [hneat.id.not_blank, hneat.projectId.not_blank])
    obtain ⟨hcproject, hcevent⟩ := hsetOk c hc
    obtain ⟨hdproject, hdevent⟩ := hdescOk d hd
    refine ⟨c, d, hc, hd, ?_, ?_⟩
    · rw [hcproject, hdproject, hneat.trimmed]
    · rw [hcevent, hdevent, hneat.trimmed, hpayload hneat.payload]

/-- A push with a payload of two lines. -/
def neat : Received where
  id := "run1"
  source := "github"
  type := "push"
  projectId := "p1"
  payload := some "one line\nand another"
  commit := some "c0ffee"

theorem isNeat_neat : neat.IsNeat := by
  have hneat : ∀ s ∈ ["run1", "github", "push", "p1", "one line\nand another", "c0ffee"], Text.IsNeat s := by
    simp only [List.forall_mem_cons]
    refine ⟨?_, ?_, ?_, ?_, ?_, ?_, fun _ hnil => absurd hnil List.not_mem_nil⟩ <;>
      exact ⟨by decide, by decide⟩
  exact {
    id := hneat _ (by decide)
    source := hneat _ (by decide)
    type := hneat _ (by decide)
    projectId := hneat _ (by decide)
    payload := fun s hs => hneat s (by obtain rfl := Option.some.inj hs; decide)
    commit := fun s hs => hneat s (by obtain rfl := Option.some.inj hs; decide)
    gitRef := fun s hs => by cases hs }

theorem config_alike_neat : neat.GivenBy neat.settings ∧ neat.WrittenIn neat.descriptor ∧
    ∃ c d, ofSettings neat.settings = .ok c ∧ ofDescriptor (.ok neat.descriptor) (fun _ => none) = .ok d ∧
      c.projectId = d.projectId ∧ c.event = d.event := by
  have hsilent : Silent fun _ => none := fun _ _ => rfl
  obtain ⟨-, -, halike⟩ := config_alike neat
  obtain ⟨-, -, -, -, hneat⟩ := halike neat.settings (fun _ => none) neat.descriptor
    Text.Pattern.ofText? neat.givenBy_settings hsilent neat.writtenIn_descriptor
  exact ⟨neat.givenBy_settings, neat.writtenIn_descriptor, hneat isNeat_neat⟩

/-- The same but for a blank after the type. -/
def padded : Received :=
  { neat with type := "push " }

/-- Both ways succeed with it, and differ. -/
theorem config_differs_padded : padded.GivenBy padded.settings ∧ padded.WrittenIn padded.descriptor ∧
    ∃ c d, ofSettings padded.settings = .ok c ∧
      ofDescriptor (.ok padded.descriptor) (fun _ => none) = .ok d ∧
      c.event.type = "push" ∧ d.event.type = "push " ∧ c.event ≠ d.event := by
  have hsilent : Silent fun _ => none := fun _ _ => rfl
  have hset := ofSettings_of_givenBy padded.givenBy_settings Text.Pattern.ofText?
  have hdesc := ofDescriptor_of_writtenIn padded.writtenIn_descriptor hsilent Text.Pattern.ofText?
  rw [if_neg (by decide)] at hset hdesc
  obtain ⟨c, hc, -, hcevent⟩ := hset
  obtain ⟨d, hd, -, hdevent⟩ := hdesc
  have hctype : c.event.type = "push" := by
    rw [hcevent]
    decide
  have hdtype : d.event.type = "push " := by
    rw [hdevent]
    decide
  refine ⟨padded.givenBy_settings, padded.writtenIn_descriptor, c, d, hc, hd, hctype, hdtype, fun heq => ?_⟩
  rw [heq, hdtype] at hctype
  exact absurd hctype (by decide)

end Received

end EventWorker
