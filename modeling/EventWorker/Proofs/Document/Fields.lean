import EventWorker.Document.Decode
import EventWorker.Proofs.Checks
import Mathlib.Data.List.Forall2
import Mathlib.Data.List.Nodup

/-!
# What documents have to be

What a document has to be for something to be decoded from it, where a list does not stand for a
record. For a value it has to be the value's own kind of document; for a list, items one level further
down; for a model with named fields, a record whose keys are in order (`Keyed`).

Where every field of a model is set on its own (`Laid`), the order in which a record gives them makes
no difference. A model comes of a record if each of its fields is what the value of its key is
decoded as, or has been left at its default where there is no such key (`Column.Reads`).

* `listOf_eq_ok_iff`, `optional_eq_ok_iff`: lists, and values that may be absent.
* `Laid.decode_eq_ok_iff`: models with named fields.
-/

namespace EventWorker

open Document

variable {α σ : Type} {terms : Terms} {d : Document}

/-! ### Levels -/

/-- The terms one level further down. -/
structure Terms.Below (inner terms : Terms) : Prop where
  levels : terms.levels = inner.levels + 1
  lists : inner.lists = terms.lists

namespace Decoder

theorem enter_eq_ok_iff {body : Terms → Except DecodeError α} {a : α} :
    enter terms body = .ok a ↔ ∃ inner, inner.Below terms ∧ body inner = .ok a := by
  rcases terms with ⟨_ | n, lists⟩
  · constructor
    · intro h
      cases h
    · rintro ⟨inner, hin, -⟩
      exact absurd hin.levels.symm (Nat.succ_ne_zero _)
  · constructor
    · exact fun h => ⟨⟨n, lists⟩, ⟨rfl, rfl⟩, h⟩
    · rintro ⟨⟨m, lists⟩, ⟨hm, rfl⟩, h⟩
      obtain rfl : n = m := Nat.succ.inj hm
      exact h

end Decoder

/-! ### Lists -/

/-- The items of a document, and the terms that they are on. A plain scalar with nothing in it has
none. -/
inductive Document.HasItems (terms : Terms) (d : Document) : Terms → List Document → Prop
  | list {inner : Terms} {items : List Document} (hd : d.untagged = .list items)
    (hin : inner.Below terms) : HasItems terms d inner items
  | nothing (hd : d.untagged = .plain "") : HasItems terms d terms []

theorem Document.HasItems.lists {inner : Terms} {items : List Document}
    (h : HasItems terms d inner items) : inner.lists = terms.lists := by
  cases h with
  | list _ hin => exact hin.lists
  | nothing _ => rfl

namespace Decoder

variable {decoder : Decoder α}

theorem each_eq_ok_iff {items : List Document} {as : List α} : each decoder terms items = .ok as ↔
    List.Forall₂ (fun d a => decoder terms d = .ok a) items as := by
  induction items generalizing as with
  | nil => exact ⟨fun h => by cases h; exact .nil, fun h => by cases h; rfl⟩
  | cons d ds ih =>
    rw [each, Except.bind_eq_ok_iff]
    constructor
    · rintro ⟨a, ha, h⟩
      obtain ⟨rest, hrest, h⟩ := Except.bind_eq_ok_iff.1 h
      obtain rfl := Except.ok.inj h
      exact .cons ha (ih.1 hrest)
    · rintro (_ | ⟨ha, hrest⟩)
      exact ⟨_, ha, Except.bind_eq_ok_iff.2 ⟨_, ih.2 hrest, rfl⟩⟩

/-- A list is decoded item by item. -/
theorem listOf_eq_ok_iff {as : List α} : listOf decoder terms d = .ok as ↔
    ∃ inner items, HasItems terms d inner items ∧
      List.Forall₂ (fun d a => decoder inner d = .ok a) items as := by
  constructor
  · intro h
    unfold listOf at h
    split at h
    · next items hd =>
      obtain ⟨inner, hin, h⟩ := enter_eq_ok_iff.1 h
      exact ⟨inner, items, .list hd hin, each_eq_ok_iff.1 h⟩
    · next s hd =>
      split at h
      · next hs =>
        obtain rfl := Except.ok.inj h
        obtain rfl : s = "" := by simpa using hs
        exact ⟨terms, [], .nothing hd, .nil⟩
      · cases h
    · cases h
  · rintro ⟨inner, items, hd | hd, h⟩
    · next hin =>
      rw [listOf, hd]
      exact enter_eq_ok_iff.2 ⟨inner, hin, each_eq_ok_iff.2 h⟩
    · cases h
      rw [listOf, hd]
      rfl

end Decoder

/-! ### Values that may be absent -/

namespace Document

/-- No value, in one of its spellings. -/
inductive IsNull : Document → Prop
  | null : IsNull .null
  | plain {s : String} (h : s.isEmpty ∨ isNullWord s) : IsNull (.plain s)
  | tagged {s : String} (h : isNullWord s) : IsNull (.tagged Decoder.nullTag (.plain s))

/-- A value. What is tagged as null without being spelled as null is neither a value nor none. -/
def IsGiven (d : Document) : Prop :=
  ¬ d.IsNull ∧ ∀ s, d ≠ .tagged Decoder.nullTag (.plain s)

end Document

namespace Decoder

variable {decoder : Decoder α}

theorem map_some_eq_ok_iff {x : Except DecodeError α} {o : Option α} :
    some <$> x = .ok o ↔ ∃ a, x = .ok a ∧ o = some a := by
  rw [map_eq_pure_bind, Except.bind_eq_ok_iff]
  exact ⟨fun ⟨a, ha, h⟩ => ⟨a, ha, (Except.ok.inj h).symm⟩, fun ⟨a, ha, h⟩ => ⟨a, ha, h ▸ rfl⟩⟩

theorem optional_eq_ok_iff {o : Option α} : optional decoder terms d = .ok o ↔
    d.IsNull ∧ o = none ∨ d.IsGiven ∧ ∃ a, decoder terms d = .ok a ∧ o = some a := by
  have hnone : (.ok none : Except DecodeError (Option α)) = .ok o ↔ o = none :=
    ⟨fun h => (Except.ok.inj h).symm, fun h => h ▸ rfl⟩
  have hnull : d.IsNull → ((.ok none : Except DecodeError (Option α)) = .ok o ↔
      d.IsNull ∧ o = none ∨ d.IsGiven ∧ ∃ a, decoder terms d = .ok a ∧ o = some a) := fun hd =>
    hnone.trans ⟨fun ho => .inl ⟨hd, ho⟩, fun h => h.elim And.right fun h => absurd hd h.1.1⟩
  have hgiven : d.IsGiven → (some <$> decoder terms d = .ok o ↔
      d.IsNull ∧ o = none ∨ d.IsGiven ∧ ∃ a, decoder terms d = .ok a ∧ o = some a) := fun hd =>
    map_some_eq_ok_iff.trans ⟨fun h => .inr ⟨hd, h⟩, fun h => h.elim (absurd ·.1 hd.1) And.right⟩
  unfold optional
  split
  · exact hnull .null
  · next s =>
    by_cases hs : (s.isEmpty || isNullWord s) = true
    · rw [if_pos hs]
      exact hnull (.plain (Bool.or_eq_true _ _ ▸ hs))
    · rw [if_neg hs]
      refine hgiven ⟨?_, fun _ h => by cases h⟩
      rintro ⟨⟩
      simp_all
  · next tag s =>
    by_cases htag : tag = nullTag
    · subst htag
      rw [if_pos rfl]
      by_cases hs : isNullWord s = true
      · rw [if_pos hs]
        exact hnull (.tagged hs)
      · rw [if_neg hs]
        refine iff_of_false (fun h => by cases h) ?_
        rintro (⟨⟨⟩, -⟩ | ⟨hd, -⟩)
        · contradiction
        · exact hd.2 s rfl
    · rw [if_neg htag]
      refine hgiven ⟨?_, fun _ h => htag (Document.tagged.inj h).1⟩
      rintro ⟨⟩
      exact htag rfl
  · next hn hp ht =>
    refine hgiven ⟨?_, fun s h => ht _ s h⟩
    rintro (_ | _ | _)
    · exact hn rfl
    · exact hp _ rfl
    · exact ht _ _ rfl

/-- A value that may be absent is decoded as one if it is there. -/
theorem optional_eq_some_iff {a : α} : optional decoder terms d = .ok (some a) ↔
    d.IsGiven ∧ decoder terms d = .ok a := by
  simp [optional_eq_ok_iff]

theorem optional_eq_none_iff : optional decoder terms d = .ok none ↔ d.IsNull := by
  simp [optional_eq_ok_iff]

theorem text_eq_ok_iff {s : String} : text terms d = .ok s ↔ scalarText? d = some s := by
  unfold text
  cases scalarText? d with
  | none => simp
  | some t => simp

end Decoder

/-! ### Records -/

open Decoder

/-- The fields of a document, and the terms that their values are on. A plain scalar with nothing in it
has none. -/
inductive Document.HasFields (terms : Terms) (d : Document) :
    Terms → List (Document × Document) → Prop
  | record {inner : Terms} {fields : List (Document × Document)} (hd : d.untagged = .record fields)
    (hin : inner.Below terms) : HasFields terms d inner fields
  | nothing (hd : d.untagged = .plain "") : HasFields terms d terms []

theorem Document.HasFields.lists {inner : Terms} {fields : List (Document × Document)}
    (h : HasFields terms d inner fields) : inner.lists = terms.lists := by
  cases h with
  | record _ hin => exact hin.lists
  | nothing _ => rfl

/-- The value that a record gives for a key. -/
def valueOf? (key : String) (fields : List (Document × Document)) : Option Document :=
  (fields.find? fun f => scalarText? f.1 == some key).map (·.2)

/-- The keys of a record are in order: all of them are texts, no known one is given twice, and others
stand only in a record that is not closed, for values that can be passed over. -/
structure Keyed (known : List String) (closed : Bool) (fields : List (Document × Document)) :
    Prop where
  texts : ∀ f ∈ fields, ∃ key, scalarText? f.1 = some key
  once : fields.Pairwise fun f g => ∀ key ∈ known, scalarText? f.1 = some key →
    scalarText? g.1 ≠ some key
  others : ∀ f ∈ fields, ∀ key, scalarText? f.1 = some key → key ∉ known →
    closed = false ∧ f.2.isWhole = true

section Keys

variable {known : List String} {closed : Bool} {key other : String} {k v : Document}
  {rest : List (Document × Document)}

theorem valueOf?_cons_self (hk : scalarText? k = some key) :
    valueOf? key ((k, v) :: rest) = some v := by
  simp [valueOf?, hk]

theorem valueOf?_cons_of_ne (hk : scalarText? k = some key) (hne : other ≠ key) :
    valueOf? other ((k, v) :: rest) = valueOf? other rest := by
  simp [valueOf?, hk, Ne.symm hne]

theorem valueOf?_eq_none_iff :
    valueOf? key rest = none ↔ ∀ f ∈ rest, scalarText? f.1 ≠ some key := by
  simp [valueOf?]

theorem Keyed.nil : Keyed known closed [] :=
  ⟨fun _ hf => absurd hf List.not_mem_nil, .nil, fun _ hf => absurd hf List.not_mem_nil⟩

theorem keyed_cons_iff_of_mem (hk : scalarText? k = some key) (hmem : key ∈ known) :
    Keyed known closed ((k, v) :: rest) ↔ Keyed known closed rest ∧ valueOf? key rest = none := by
  rw [valueOf?_eq_none_iff]
  constructor
  · rintro ⟨htexts, honce, hothers⟩
    obtain ⟨hfirst, honce⟩ := List.pairwise_cons.1 honce
    exact ⟨⟨fun f hf => htexts f (List.mem_cons_of_mem _ hf), honce,
      fun f hf => hothers f (List.mem_cons_of_mem _ hf)⟩, fun f hf => hfirst f hf key hmem hk⟩
  · rintro ⟨⟨htexts, honce, hothers⟩, hfresh⟩
    refine ⟨List.forall_mem_cons.2 ⟨⟨key, hk⟩, htexts⟩, List.pairwise_cons.2 ⟨?_, honce⟩,
      List.forall_mem_cons.2 ⟨?_, hothers⟩⟩
    · intro f hf key' _ hk'
      obtain rfl := Option.some.inj (hk.symm.trans hk')
      exact hfresh f hf
    · intro key' hk' hnot
      obtain rfl := Option.some.inj (hk.symm.trans hk')
      exact absurd hmem hnot

theorem keyed_cons_iff_of_not_mem (hk : scalarText? k = some key) (hnot : key ∉ known) :
    Keyed known closed ((k, v) :: rest) ↔
      (closed = false ∧ v.isWhole = true) ∧ Keyed known closed rest := by
  constructor
  · rintro ⟨htexts, honce, hothers⟩
    exact ⟨hothers _ List.mem_cons_self key hk hnot,
      fun f hf => htexts f (List.mem_cons_of_mem _ hf), (List.pairwise_cons.1 honce).2,
      fun f hf => hothers f (List.mem_cons_of_mem _ hf)⟩
  · rintro ⟨hv, htexts, honce, hothers⟩
    refine ⟨List.forall_mem_cons.2 ⟨⟨key, hk⟩, htexts⟩, List.pairwise_cons.2 ⟨?_, honce⟩,
      List.forall_mem_cons.2 ⟨fun _ _ _ => hv, hothers⟩⟩
    intro f hf key' hmem hk'
    obtain rfl := Option.some.inj (hk.symm.trans hk')
    exact absurd hmem hnot

end Keys

/-! ### Models -/

namespace Shape

variable {shape : Shape σ} {fields : List (Document × Document)} {s t : σ} {seen : List String}

section Cons

variable {key : String} {k v : Document} {rest : List (Document × Document)}
  (hk : scalarText? k = some key)

include hk

theorem setFields_cons_of_mem (hmem : key ∈ shape.fields) (hnew : key ∉ seen) :
    shape.setFields terms seen ((k, v) :: rest) s =
      shape.set terms key v s >>= shape.setFields terms (key :: seen) rest := by
  rw [setFields, Decoder.text, hk]
  show (if shape.fields.contains key = true then _ else _) = _
  rw [if_pos (by simpa using hmem), if_neg (by simp [hnew])]

theorem setFields_cons_of_mem_seen (hrepeats : shape.repeats = false) (hmem : key ∈ shape.fields)
    (hold : key ∈ seen) :
    shape.setFields terms seen ((k, v) :: rest) s = .error (.repeated key) := by
  rw [setFields, Decoder.text, hk]
  show (if shape.fields.contains key = true then _ else _) = _
  rw [if_pos (by simpa using hmem), if_pos (by simp [hold, hrepeats])]

theorem setFields_cons_of_not_mem (hnot : key ∉ shape.fields) :
    shape.setFields terms seen ((k, v) :: rest) s =
      if shape.closed then .error (.unknown key)
      else ignored v >>= fun _ => shape.setFields terms seen rest s := by
  rw [setFields, Decoder.text, hk]
  show (if shape.fields.contains key = true then _ else _) = _
  rw [if_neg (by simpa using hnot)]

end Cons

/-- The fields that have been set are those that the record gives. -/
theorem mem_seen_iff {r : List String × σ} (hrepeats : shape.repeats = false)
    (hr : shape.setFields terms seen fields s = .ok r) (key : String) : key ∈ r.1 ↔
      key ∈ seen ∨ key ∈ shape.fields ∧ (valueOf? key fields).isSome = true := by
  induction fields generalizing seen s with
  | nil =>
    obtain rfl := Except.ok.inj hr
    simp [valueOf?]
  | cons f rest ih =>
    obtain ⟨k, v⟩ := f
    obtain ⟨name, hk, -⟩ := Except.bind_eq_ok_iff.1 hr
    rw [text_eq_ok_iff] at hk
    by_cases hmem : name ∈ shape.fields
    · by_cases hold : name ∈ seen
      · rw [setFields_cons_of_mem_seen hk hrepeats hmem hold] at hr
        cases hr
      · rw [setFields_cons_of_mem hk hmem hold] at hr
        obtain ⟨s', -, hr⟩ := Except.bind_eq_ok_iff.1 hr
        rw [ih hr, List.mem_cons]
        by_cases hsame : key = name
        · subst hsame
          simp [valueOf?_cons_self hk, hmem]
        · simp [valueOf?_cons_of_ne hk hsame, hsame]
    · rw [setFields_cons_of_not_mem hk hmem] at hr
      split at hr
      · cases hr
      · obtain ⟨-, -, hr⟩ := Except.bind_eq_ok_iff.1 hr
        rw [ih hr]
        by_cases hsame : key = name
        · simp [hsame, hmem]
        · simp [valueOf?_cons_of_ne hk hsame]

end Shape

/-- A field of a model. -/
structure Column (σ : Type) where
  name : String
  Value : Type
  read : Decoder Value
  get : σ → Value
  put : Value → σ → σ

/-- The field is what a document is decoded as, or that of the model at first where there is none. -/
def Column.Reads (c : Column σ) (terms : Terms) (first : σ) (s : σ) : Option Document → Prop
  | none => c.get s = c.get first
  | some d => c.read terms d = .ok (c.get s)

theorem Column.reads_iff {c : Column σ} {first s : σ} {value : Option Document} :
    c.Reads terms first s value ↔ (value = none → c.get s = c.get first) ∧
      ∀ v, value = some v → c.read terms v = .ok (c.get s) := by
  cases value with
  | none => simp [Reads]
  | some v => simp [Reads]

/-- A field that may be absent. -/
def Column.ofOptional (name : String) (read : Decoder α) (get : σ → Option α)
    (put : Option α → σ → σ) : Column σ :=
  ⟨name, Option α, optional read, get, put⟩

namespace Column

variable {name : String} {read : Decoder α} {get : σ → Option α} {put : Option α → σ → σ}
  {first s : σ} {value : Option Document}

@[simp]
theorem name_ofOptional : (ofOptional name read get put).name = name :=
  rfl

/-- There is nothing in a field whose value is absent or none. -/
@[simp]
theorem reads_ofOptional_of_none (hfirst : get first = none) (hs : get s = none) :
    (ofOptional name read get put).Reads terms first s value ↔
      ∀ v, value = some v → v.IsNull := by
  cases value with
  | none => exact iff_of_true (hs.trans hfirst.symm) fun v hv => by cases hv
  | some v =>
    show optional read terms v = .ok (get s) ↔ _
    rw [hs, optional_eq_none_iff]
    simp

/-- There is something in a field that is given a value. -/
@[simp]
theorem reads_ofOptional_of_some (hfirst : get first = none) {a : α} (hs : get s = some a) :
    (ofOptional name read get put).Reads terms first s value ↔
      ∃ v, value = some v ∧ v.IsGiven ∧ read terms v = .ok a := by
  cases value with
  | none =>
    refine iff_of_false (fun heq => ?_) fun ⟨v, hv, _⟩ => by cases hv
    cases hs.symm.trans (Eq.trans heq hfirst)
  | some v =>
    show optional read terms v = .ok (get s) ↔ _
    rw [hs, optional_eq_some_iff]
    simp

end Column

/-- Each field of a model is set on its own. -/
structure Laid (shape : Shape σ) (columns : List (Column σ)) : Prop where
  fields : shape.fields = columns.map (·.name)
  nodup : shape.fields.Nodup
  required : ∀ f ∈ shape.required, f ∈ shape.fields
  repeats : shape.repeats = false
  set : ∀ c ∈ columns, ∀ terms d s, shape.set terms c.name d s = (c.put · s) <$> c.read terms d
  get_put : ∀ c ∈ columns, ∀ v s, c.get (c.put v s) = v
  get_put_of_ne : ∀ c ∈ columns, ∀ c' ∈ columns, c'.name ≠ c.name → ∀ v s,
    c'.get (c.put v s) = c'.get s
  ext : ∀ s t, (∀ c ∈ columns, c.get s = c.get t) → s = t

/-- The rest of a record makes `t` of `s`, where some fields have been set before. -/
structure Completes (shape : Shape σ) (columns : List (Column σ)) (terms : Terms) (seen : List String)
    (fields : List (Document × Document)) (s t : σ) : Prop where
  keyed : Keyed shape.fields shape.closed fields
  fresh : ∀ key ∈ seen, key ∈ shape.fields → valueOf? key fields = none
  reads : ∀ c ∈ columns, c.Reads terms s t (valueOf? c.name fields)

namespace Laid

variable {shape : Shape σ} {columns : List (Column σ)} (h : Laid shape columns)
  {fields rest : List (Document × Document)} {seen : List String} {s t : σ} {c c' : Column σ}
  {k v : Document}

include h

theorem mem_fields_iff {key : String} : key ∈ shape.fields ↔ ∃ c ∈ columns, c.name = key := by
  rw [h.fields, List.mem_map]

theorem eq_of_name_eq (hc : c ∈ columns) (hc' : c' ∈ columns) (hname : c.name = c'.name) :
    c = c' :=
  List.inj_on_of_nodup_map (h.fields ▸ h.nodup) hc hc' hname

theorem set_eq_ok_iff (hc : c ∈ columns) : shape.set terms c.name v s = .ok t ↔
    ∃ a, c.read terms v = .ok a ∧ t = c.put a s := by
  rw [h.set c hc, map_eq_pure_bind, Except.bind_eq_ok_iff]
  exact ⟨fun ⟨a, ha, h⟩ => ⟨a, ha, (Except.ok.inj h).symm⟩, fun ⟨a, ha, h⟩ => ⟨a, ha, h ▸ rfl⟩⟩

/-- Setting one field and reading the others later comes to reading all of them. -/
theorem forall_reads_cons_iff (hc : c ∈ columns) (hk : scalarText? k = some c.name)
    (hfresh : valueOf? c.name rest = none) {a : c.Value} (ha : c.read terms v = .ok a) :
    (∀ c' ∈ columns, c'.Reads terms (c.put a s) t (valueOf? c'.name rest)) ↔
      ∀ c' ∈ columns, c'.Reads terms s t (valueOf? c'.name ((k, v) :: rest)) := by
  refine forall₂_congr fun c' hc' => ?_
  by_cases hname : c'.name = c.name
  · obtain rfl := h.eq_of_name_eq hc' hc hname
    rw [hfresh, valueOf?_cons_self hk]
    simp only [Column.Reads, h.get_put c' hc, ha, Except.ok.injEq, eq_comm]
  · rw [valueOf?_cons_of_ne hk hname]
    cases valueOf? c'.name rest with
    | none => simp only [Column.Reads, h.get_put_of_ne c hc c' hc' hname]
    | some w => rfl

/-- Setting a field that is known comes to a model if it has not been set before, and the rest of the
record completes what it is set to. -/
theorem completes_cons_iff_of_mem (hc : c ∈ columns) (hk : scalarText? k = some c.name) :
    Completes shape columns terms seen ((k, v) :: rest) s t ↔ c.name ∉ seen ∧
      ∃ a, c.read terms v = .ok a ∧
        Completes shape columns terms (c.name :: seen) rest (c.put a s) t := by
  have hmem : c.name ∈ shape.fields := h.mem_fields_iff.2 ⟨c, hc, rfl⟩
  constructor
  · rintro ⟨hkeyed, hnew, hreads⟩
    have hunseen : c.name ∉ seen := fun hold =>
      Option.some_ne_none v ((valueOf?_cons_self hk).symm.trans (hnew c.name hold hmem))
    have ha : c.read terms v = .ok (c.get t) := by
      have hread := hreads c hc
      rwa [valueOf?_cons_self hk] at hread
    obtain ⟨hkeyed, hfresh⟩ := (keyed_cons_iff_of_mem hk hmem).1 hkeyed
    refine ⟨hunseen, _, ha, hkeyed, List.forall_mem_cons.2 ⟨fun _ => hfresh, fun key hkey hin => ?_⟩,
      (h.forall_reads_cons_iff hc hk hfresh ha).2 hreads⟩
    rw [← hnew key hkey hin, valueOf?_cons_of_ne hk fun heq => hunseen (heq ▸ hkey)]
  · rintro ⟨hunseen, a, ha, hkeyed, hnew, hreads⟩
    obtain ⟨hfresh, hnew⟩ := List.forall_mem_cons.1 hnew
    have hfresh := hfresh hmem
    refine ⟨(keyed_cons_iff_of_mem hk hmem).2 ⟨hkeyed, hfresh⟩, fun key hkey hin => ?_,
      (h.forall_reads_cons_iff hc hk hfresh ha).1 hreads⟩
    rw [valueOf?_cons_of_ne hk fun heq => hunseen (heq ▸ hkey)]
    exact hnew key hkey hin

/-- A field that is not known is passed over, where it may be there at all. -/
theorem completes_cons_iff_of_not_mem {key : String} (hk : scalarText? k = some key)
    (hnot : key ∉ shape.fields) :
    Completes shape columns terms seen ((k, v) :: rest) s t ↔
      (shape.closed = false ∧ v.isWhole = true) ∧ Completes shape columns terms seen rest s t := by
  have hother : ∀ other ∈ shape.fields, valueOf? other ((k, v) :: rest) = valueOf? other rest :=
    fun other hin => valueOf?_cons_of_ne hk fun heq => hnot (heq ▸ hin)
  have hcolumn : ∀ c ∈ columns, valueOf? c.name ((k, v) :: rest) = valueOf? c.name rest :=
    fun c hc => hother _ (h.mem_fields_iff.2 ⟨c, hc, rfl⟩)
  constructor
  · rintro ⟨hkeyed, hnew, hreads⟩
    obtain ⟨hv, hkeyed⟩ := (keyed_cons_iff_of_not_mem hk hnot).1 hkeyed
    exact ⟨hv, hkeyed, fun key hkey hin => hother key hin ▸ hnew key hkey hin,
      fun c hc => hcolumn c hc ▸ hreads c hc⟩
  · rintro ⟨hv, hkeyed, hnew, hreads⟩
    exact ⟨(keyed_cons_iff_of_not_mem hk hnot).2 ⟨hv, hkeyed⟩,
      fun key hkey hin => (hother key hin).symm ▸ hnew key hkey hin,
      fun c hc => (hcolumn c hc).symm ▸ hreads c hc⟩

theorem setFields_eq_ok_iff : (∃ seen', shape.setFields terms seen fields s = .ok (seen', t)) ↔
    Completes shape columns terms seen fields s t := by
  induction fields generalizing seen s with
  | nil =>
    constructor
    · rintro ⟨seen', heq⟩
      obtain ⟨-, rfl⟩ := Prod.mk.inj (Except.ok.inj heq)
      exact ⟨.nil, fun _ _ _ => rfl, fun _ _ => rfl⟩
    · rintro ⟨-, -, hsame⟩
      obtain rfl := h.ext t s hsame
      exact ⟨seen, rfl⟩
  | cons f rest ih =>
    obtain ⟨k, v⟩ := f
    cases hk : scalarText? k with
    | none =>
      refine iff_of_false (fun ⟨_, heq⟩ => ?_) fun hall => ?_
      · obtain ⟨key, hkey, -⟩ := Except.bind_eq_ok_iff.1 heq
        cases hk.symm.trans (text_eq_ok_iff.1 hkey)
      · obtain ⟨key, hkey⟩ := hall.keyed.texts _ List.mem_cons_self
        cases hk.symm.trans hkey
    | some key =>
      by_cases hmem : key ∈ shape.fields
      · obtain ⟨c, hc, rfl⟩ := h.mem_fields_iff.1 hmem
        rw [h.completes_cons_iff_of_mem hc hk]
        by_cases hold : c.name ∈ seen
        · rw [Shape.setFields_cons_of_mem_seen hk h.repeats hmem hold]
          exact iff_of_false (fun ⟨_, heq⟩ => by cases heq) fun hall => hall.1 hold
        · rw [Shape.setFields_cons_of_mem hk hmem hold]
          simp only [Except.bind_eq_ok_iff, h.set_eq_ok_iff hc, ← ih]
          constructor
          · rintro ⟨seen', _, ⟨a, ha, rfl⟩, heq⟩
            exact ⟨hold, a, ha, seen', heq⟩
          · rintro ⟨-, a, ha, seen', heq⟩
            exact ⟨seen', _, ⟨a, ha, rfl⟩, heq⟩
      · rw [Shape.setFields_cons_of_not_mem hk hmem, h.completes_cons_iff_of_not_mem hk hmem, ← ih]
        by_cases hopen : shape.closed = false
        · rw [if_neg (by simpa using hopen), ignored]
          by_cases hv : v.isWhole = true
          · rw [if_pos hv, and_iff_right ⟨hopen, hv⟩]
            rfl
          · rw [if_neg hv]
            exact iff_of_false (fun ⟨_, heq⟩ => by cases heq) fun hall => hv hall.1.2
        · rw [if_pos (by simpa using hopen)]
          exact iff_of_false (fun ⟨_, heq⟩ => by cases heq) fun hall => hopen hall.1.1

/-- A model comes of a record whose keys are in order and that gives what it has to. -/
theorem ofFields_eq_ok_iff : shape.ofFields terms fields = .ok t ↔
    Keyed shape.fields shape.closed fields ∧
      (∀ key ∈ shape.required, (valueOf? key fields).isSome = true) ∧
        ∀ c ∈ columns, c.Reads terms shape.initial t (valueOf? c.name fields) := by
  rw [Shape.ofFields, Except.bind_eq_ok_iff]
  constructor
  · rintro ⟨⟨seen, s⟩, hr, hok⟩
    dsimp only at hok
    split at hok
    · cases hok
    · next hnone =>
      obtain rfl := Except.ok.inj hok
      obtain ⟨hkeyed, -, hreads⟩ := h.setFields_eq_ok_iff.1 ⟨seen, hr⟩
      refine ⟨hkeyed, fun key hkey => ?_, hreads⟩
      have hin : key ∈ seen := by simpa using List.find?_eq_none.1 hnone key hkey
      rcases (Shape.mem_seen_iff h.repeats hr key).1 hin with hnil | ⟨-, hgiven⟩
      · cases hnil
      · exact hgiven
  · rintro ⟨hkeyed, hrequired, hreads⟩
    obtain ⟨seen, hr⟩ := h.setFields_eq_ok_iff.2
      ⟨hkeyed, fun key hkey => absurd hkey (List.not_mem_nil (a := key)), hreads⟩
    have hnone : shape.required.find? (fun f => !seen.contains f) = none := by
      refine List.find?_eq_none.2 fun key hkey => ?_
      have hin := (Shape.mem_seen_iff h.repeats hr key).2
        (.inr ⟨h.required key hkey, hrequired key hkey⟩)
      simpa using hin
    refine ⟨(seen, t), hr, ?_⟩
    dsimp only
    rw [hnone]

/-- **What a model is decoded from**, where lists do not stand for records: a record whose keys are in
order, that gives every field that it has to, and whose values the fields of the model are. -/
theorem decode_eq_ok_iff (hlists : terms.lists = false) : shape.decode terms d = .ok t ↔
    ∃ inner fields, HasFields terms d inner fields ∧ Keyed shape.fields shape.closed fields ∧
      (∀ key ∈ shape.required, (valueOf? key fields).isSome = true) ∧
        ∀ c ∈ columns, c.Reads inner shape.initial t (valueOf? c.name fields) := by
  constructor
  · intro hok
    unfold Shape.decode at hok
    split at hok
    · next fields hd =>
      obtain ⟨inner, hin, hok⟩ := enter_eq_ok_iff.1 hok
      exact ⟨inner, fields, .record hd hin, h.ofFields_eq_ok_iff.1 hok⟩
    · rw [hlists, Bool.and_false] at hok
      cases hok
    · next s hd =>
      split at hok
      · next hs =>
        obtain rfl : s = "" := by simpa using hs
        exact ⟨terms, [], .nothing hd, h.ofFields_eq_ok_iff.1 hok⟩
      · cases hok
    · cases hok
  · rintro ⟨inner, fields, hd | hd, hok⟩
    · next hin =>
      rw [Shape.decode, hd]
      exact enter_eq_ok_iff.2 ⟨inner, hin, h.ofFields_eq_ok_iff.2 hok⟩
    · rw [Shape.decode, hd]
      exact h.ofFields_eq_ok_iff.2 hok

/-- A model with no defaults comes of a record that gives all of its fields. -/
theorem decode_eq_ok_iff_of_required (hrequired : shape.required = shape.fields)
    (hlists : terms.lists = false) : shape.decode terms d = .ok t ↔
      ∃ inner fields, HasFields terms d inner fields ∧ Keyed shape.fields shape.closed fields ∧
        ∀ c ∈ columns, ∃ v, valueOf? c.name fields = some v ∧ c.read inner v = .ok (c.get t) := by
  rw [h.decode_eq_ok_iff hlists]
  refine exists_congr fun inner => exists_congr fun fields => and_congr_right fun _ =>
    and_congr_right fun _ => ?_
  rw [hrequired, h.fields, List.forall_mem_map, ← forall₂_and]
  refine forall₂_congr fun c _ => ?_
  cases valueOf? c.name fields with
  | none => simp
  | some v => simp [Column.Reads]

end Laid

end EventWorker
