import EventWorker.Document.Format
import EventWorker.Document.Free
import EventWorker.Proofs.Document.JsonText
import EventWorker.Proofs.Table
import EventWorker.Resource.Metadata

/-!
# Documents that spell a value

A plain document spells a value for a decoder if it is decoded as that value wherever enough levels are
left (`Spells`). Texts, truth values and integers spell themselves; lists and tables are spelled by what
spells their items. A model is spelled by a record that names its fields in their order, each with a
document that spells its value, if setting them one after another comes to the model (`Sets`). Fields
with no value may be left out.

Main statement: `Spells.ofJson`, by which such a document can be written as JSON and decoded from there.
-/

namespace EventWorker

open Document Decoder

variable {α σ : Type}

/-- A plain document that is decoded as a value where there are as many levels left. -/
structure Spells (inner : Decoder α) (levels : Nat) (d : Document) (a : α) : Prop where
  plain : Plain d
  decode : ∀ terms : Terms, levels ≤ terms.levels → inner terms d = .ok a

/-- Whatever is written of a model spells it, where there are as many levels left. -/
def Codec.Faithful (c : Codec α) (levels : Nat) : Prop :=
  ∀ a, Spells c.decode levels (c.toDocument a) a

/-! ### Integers -/

namespace Document

theorem digitIn?_digitChar {n : Nat} (h : n < 10) : digitIn? 10 (Nat.digitChar n) = some n := by
  interval_cases n <;> rfl

/-- The digits of a number say the number. -/
theorem digitsIn?_toDigits (n : Nat) : digitsIn? 10 (Nat.toDigits 10 n) = some n := by
  have hfold : ∀ cs : List Char, cs ≠ [] →
      digitsIn? 10 cs = cs.foldlM (fun n c => (digitIn? 10 c).map (n * 10 + ·)) 0 := by
    intro cs hcs
    cases cs with
    | nil => exact absurd rfl hcs
    | cons c cs => rfl
  induction n using Nat.strongRecOn with
  | ind n ih =>
    rw [hfold _ Nat.toDigits_ne_nil, Nat.toDigits_eq_if (by decide)]
    split
    · next hlt =>
      rw [List.foldlM_cons, digitIn?_digitChar hlt]
      simp
    · next hge =>
      have hquot := ih (n / 10) (by omega)
      rw [hfold _ Nat.toDigits_ne_nil] at hquot
      have hlast : digitIn? 10 (Nat.digitChar (n % 10)) = some (n % 10) :=
        digitIn?_digitChar (Nat.mod_lt n (by decide))
      rw [List.foldlM_append, hquot, Option.bind_eq_bind, Option.bind_some, List.foldlM_cons, hlast]
      simp only [Option.map_some, Option.bind_eq_bind, Option.bind_some, List.foldlM_nil]
      exact congrArg some (by omega)

/-- An integer as it is written keeps its sign and its size. -/
theorem wholeDigits?_toString (n : Int) :
    wholeDigits? (toString n) = some (decide (n < 0), n.natAbs) := by
  rw [wholeDigits?, Json.toList_toString_int]
  split
  · next cs hcs =>
    split at hcs
    · next hneg =>
      have htail : Nat.toDigits 10 n.natAbs = cs := (List.cons.inj hcs).2
      rw [← htail, digitsIn?_toDigits, decide_eq_true hneg]
      rfl
    · rw [List.nil_append] at hcs
      have hdigit : '-'.isDigit := Nat.isDigit_of_mem_toDigits (by decide) (by decide)
        (hcs ▸ List.mem_cons_self)
      exact absurd hdigit (by decide)
  · next cs hne =>
    split at hne
    · exact absurd rfl (hne _)
    · next hneg =>
      rw [if_neg hneg, List.nil_append, digitsIn?_toDigits, decide_eq_false hneg]
      rfl

end Document

/-! ### Single values -/

namespace Spells

variable {inner : Decoder α} {levels : Nat} {d : Document} {a : α}

theorem text (s : String) : Spells Decoder.text levels (.text s) s :=
  ⟨.text s, fun _ _ => rfl⟩

theorem flag (b : Bool) : Spells Decoder.flag levels (.bool b) b :=
  ⟨.bool b, fun _ _ => rfl⟩

theorem signed_int (terms : Terms) (n : Int) :
    Decoder.signed terms (.int n) = .ok (decide (n < 0), n.natAbs) := by
  simp only [Decoder.signed, Document.int, untagged, wholeDigits?_toString]
  have hzero : (decide (n < 0) && n.natAbs == 0) = false := by
    simp only [Bool.and_eq_false_iff, decide_eq_false_iff_not, beq_eq_false_iff_ne]
    omega
  simp only [hzero]
  rfl

theorem natBelow {bound n : Nat} (h : n < bound) : Spells (Decoder.natBelow bound) levels (.nat n) n where
  plain := .int n
  decode terms _ := by
    have hsigned : Decoder.signed terms (.nat n) = .ok (false, n) := by
      have hn : decide ((n : Int) < 0) = false := decide_eq_false (by omega)
      have hint := signed_int terms n
      rw [hn] at hint
      exact hint
    rw [Decoder.natBelow, hsigned]
    exact if_neg (by simpa using h)

theorem int32 (n : Int32) : Spells Decoder.int32 levels (.int n.toInt) n where
  plain := .int n.toInt
  decode terms _ := by
    have hlow : -2 ^ 31 ≤ n.toInt := n.le_toInt
    have hhigh : n.toInt < 2 ^ 31 := n.toInt_lt
    have hpow : Nat.pow 2 31 = 2147483648 := rfl
    have hsame : Int32.ofInt n.toInt = n := n.ofInt_toInt
    rw [Decoder.int32, signed_int]
    show (if decide (n.toInt < 0) then
        if n.toInt.natAbs ≤ Nat.pow 2 31 then .ok (.ofInt (-(n.toInt.natAbs : Int))) else .error .mismatch
      else if n.toInt.natAbs < Nat.pow 2 31 then .ok (.ofInt n.toInt.natAbs) else .error .mismatch) =
        (.ok n : Except DecodeError Int32)
    by_cases hn : n.toInt < 0
    · have habs : -(n.toInt.natAbs : Int) = n.toInt := by omega
      rw [if_pos (decide_eq_true hn), if_pos (by omega), habs, hsame]
    · have habs : (n.toInt.natAbs : Int) = n.toInt := by omega
      rw [if_neg (by simpa using hn), if_pos (by omega), habs, hsame]

theorem oneOf {names : String → Option α} {s : String} (h : names s = some a) :
    Spells (Decoder.oneOf names) levels (.text s) a where
  plain := .text s
  decode terms _ := by
    simp only [Decoder.oneOf, h]

/-! ### Values that may be absent -/

theorem absent : Spells (optional inner) levels .null none :=
  ⟨.null, fun _ _ => rfl⟩

theorem decode_optional (h : Spells inner levels d a) (hd : d ≠ .null) {terms : Terms}
    (hterms : levels ≤ terms.levels) : optional inner terms d = .ok (some a) := by
  have hinner := h.decode terms hterms
  have hsome : optional inner terms d = some <$> inner terms d := by
    cases h.plain with
    | null => exact absurd rfl hd
    | _ => rfl
  rw [hsome, hinner]
  rfl

theorem given (h : Spells inner levels d a) (hd : d ≠ .null) :
    Spells (optional inner) levels d (some a) :=
  ⟨h.plain, fun _ hterms => h.decode_optional hd hterms⟩

theorem textOrNull (s : Option String) : Spells (optional Decoder.text) levels (.textOrNull s) s := by
  cases s with
  | none => exact .absent
  | some s => exact .given (.text s) fun h => by cases h

theorem orEmpty [Inhabited α] (h : Spells inner levels d a) (hd : d ≠ .null) :
    Spells (Decoder.orEmpty inner) levels d a where
  plain := h.plain
  decode terms hterms := by
    rw [Decoder.orEmpty, h.decode_optional hd hterms]
    rfl

/-! ### Lists and tables -/

theorem decode_enter {β : Type} {body : Terms → Except DecodeError β} {b : β} {terms : Terms}
    (hbody : ∀ terms : Terms, levels ≤ terms.levels → body terms = .ok b)
    (hterms : levels + 1 ≤ terms.levels) : enter terms body = .ok b := by
  obtain ⟨n, hn⟩ := Nat.exists_eq_add_of_le' hterms
  have hlevels : terms.levels = n + levels + 1 := hn
  simp only [enter, hlevels]
  exact hbody _ (Nat.le_add_left levels n)

theorem listOf {f : α → Document} {as : List α} (h : ∀ a ∈ as, Spells inner levels (f a) a) :
    Spells (Decoder.listOf inner) (levels + 1) (.list (as.map f)) as where
  plain := .list fun d hd => by
    obtain ⟨a, ha, rfl⟩ := List.mem_map.1 hd
    exact (h a ha).plain
  decode terms hterms := by
    have heach : ∀ terms : Terms, levels ≤ terms.levels → each inner terms (as.map f) = .ok as := by
      intro terms hterms
      induction as with
      | nil => rfl
      | cons a as ih =>
        have hrest := ih fun a ha => h a (List.mem_cons_of_mem _ ha)
        rw [List.map_cons, each, (h a List.mem_cons_self).decode terms hterms]
        simp only [bind, Except.bind, hrest]
    exact decode_enter heach hterms

theorem texts (values : List String) :
    Spells (Decoder.listOf Decoder.text) (levels + 1) (.texts values) values :=
  listOf fun s _ => .text s

/-- The entries of a table may stand in any order. -/
theorem tableOf {f : α → Document} {t : Table α} {entries : List (String × α)}
    (horder : entries.Perm t.entries) (h : ∀ e ∈ entries, Spells inner levels (f e.2) e.2) :
    Spells (Decoder.tableOf inner) (levels + 1) (.object (entries.map fun e => (e.1, f e.2))) t where
  plain := .object fun d hd => by
    obtain ⟨e, he, rfl⟩ := List.mem_map.1 hd
    exact (h e he).plain
  decode terms hterms := by
    have hentries : ∀ terms : Terms, levels ≤ terms.levels →
        Decoder.entries inner terms ((entries.map fun e => (e.1, f e.2)).map fun e =>
          (Document.text e.1, e.2)) = .ok entries := by
      intro terms hterms
      clear horder
      induction entries with
      | nil => rfl
      | cons e entries ih =>
        have hrest := ih fun e he => h e (List.mem_cons_of_mem _ he)
        rw [List.map_cons, List.map_cons, Decoder.entries]
        simp only [(text e.1).decode terms hterms,
          (h e List.mem_cons_self).decode terms hterms, hrest, bind, Except.bind]
    have htable : ∀ terms : Terms, levels ≤ terms.levels →
        Table.ofList <$> Decoder.entries inner terms ((entries.map fun e => (e.1, f e.2)).map fun e =>
          (Document.text e.1, e.2)) = .ok t := by
      intro terms hterms
      rw [hentries terms hterms, ← Table.ofList_of_perm horder]
      rfl
    exact decode_enter htable hterms

end Spells

/-! ### Models -/

/-- Setting the fields that have a value turns one state into another, given as many levels. -/
inductive Sets (shape : Shape σ) (levels : Nat) : List (String × Option Document) → σ → σ → Prop where
  | nil (s : σ) : Sets shape levels [] s s
  | skip {field : String} {rest : List (String × Option Document)} {s t : σ}
      (h : Sets shape levels rest s t) : Sets shape levels ((field, none) :: rest) s t
  | set {field : String} {d : Document} {rest : List (String × Option Document)} {s t u : σ}
      (hplain : Plain d)
      (hset : ∀ terms : Terms, levels ≤ terms.levels → shape.set terms field d s = .ok t)
      (h : Sets shape levels rest t u) : Sets shape levels ((field, some d) :: rest) s u

namespace Sets

variable {shape : Shape σ} {levels : Nat} {fields rest : List (String × Option Document)} {s t u : σ}

theorem plain (h : Sets shape levels fields s t) : Plain (.present fields) := by
  refine .object fun f hf => ?_
  induction h with
  | nil s => cases hf
  | skip h ih => exact ih hf
  | set hplain hset h ih =>
    rcases List.mem_cons.1 hf with rfl | hf
    · exact hplain
    · exact ih hf

theorem setFields (h : Sets shape levels fields s t) (hnodup : (fields.map (·.1)).Nodup)
    (hknown : ∀ f ∈ fields, f.1 ∈ shape.fields) {terms : Terms} (hterms : levels ≤ terms.levels) :
    ∀ seen : List String, (∀ f ∈ fields, f.1 ∉ seen) → ∃ seen',
      shape.setFields terms seen ((fields.filterMap fun f => f.2.map (f.1, ·)).map fun f =>
        (Document.text f.1, f.2)) s = .ok (seen', t) ∧
      (∀ f ∈ seen, f ∈ seen') ∧ ∀ f ∈ fields, f.2.isSome → f.1 ∈ seen' := by
  induction h with
  | nil s => exact fun seen _ => ⟨seen, rfl, fun _ h => h, fun f hf => by cases hf⟩
  | @skip field rest s t h ih =>
    intro seen hseen
    obtain ⟨-, hnodup⟩ := List.nodup_cons.1 hnodup
    obtain ⟨seen', hrun, hold, hnew⟩ := ih hnodup (fun f hf => hknown f (List.mem_cons_of_mem _ hf))
      seen fun f hf => hseen f (List.mem_cons_of_mem _ hf)
    refine ⟨seen', hrun, hold, fun f hf hsome => ?_⟩
    rcases List.mem_cons.1 hf with rfl | hf
    · cases hsome
    · exact hnew f hf hsome
  | @set field d rest s t u hplain hset h ih =>
    intro seen hseen
    obtain ⟨hfresh, hnodup⟩ := List.nodup_cons.1 hnodup
    obtain ⟨seen', hrun, hold, hnew⟩ := ih hnodup (fun f hf => hknown f (List.mem_cons_of_mem _ hf))
      (field :: seen) fun f hf hmem => by
        rcases List.mem_cons.1 hmem with heq | hmem
        · exact hfresh (List.mem_map.2 ⟨f, hf, heq⟩)
        · exact hseen f (List.mem_cons_of_mem _ hf) hmem
    refine ⟨seen', ?_, fun f hf => hold f (List.mem_cons_of_mem _ hf), fun f hf hsome => ?_⟩
    · have hfield : shape.fields.contains field = true :=
        List.contains_iff_mem.2 (hknown _ List.mem_cons_self)
      have hnew : seen.contains field = false := by
        simpa using hseen _ List.mem_cons_self
      show shape.setFields terms seen ((Document.text field, d) :: _) s = _
      rw [Shape.setFields]
      simp only [Decoder.text, scalarText?, untagged, hfield, hnew, hset terms hterms, bind, Except.bind]
      exact hrun
    · rcases List.mem_cons.1 hf with rfl | hf
      · exact hold field List.mem_cons_self
      · exact hnew f hf hsome

/-- A field that is decoded and kept. -/
theorem field {inner : Decoder α} {name : String} {d : Document} {a : α} (update : α → σ)
    (h : Spells inner levels d a)
    (hset : ∀ terms, shape.set terms name d s = inner terms d >>= fun a => pure (update a))
    (hrest : Sets shape levels rest (update a) u) :
    Sets shape levels ((name, some d) :: rest) s u := by
  refine .set h.plain (fun terms hterms => ?_) hrest
  rw [hset, h.decode terms hterms]
  rfl

/-- A field that is left out where it has no value. -/
theorem maybe {inner : Decoder α} {name : String} {f : α → Document} {value : Option α}
    (update : Option α → σ) (h : ∀ a ∈ value, Spells inner levels (f a) a ∧ f a ≠ .null)
    (hset : ∀ terms d, shape.set terms name d s =
      Decoder.optional inner terms d >>= fun v => pure (update v))
    (hnone : update none = s) (hrest : Sets shape levels rest (update value) u) :
    Sets shape levels ((name, value.map f) :: rest) s u := by
  cases value with
  | none =>
    rw [hnone] at hrest
    exact .skip hrest
  | some a =>
    obtain ⟨ha, hne⟩ := h a rfl
    exact .field update (.given ha hne) (fun terms => hset terms (f a)) hrest

end Sets

/-- No field is declared twice, and those that have to be there are declared. -/
structure Shape.Proper (shape : Shape σ) : Prop where
  nodup : shape.fields.Nodup
  required : ∀ name ∈ shape.required, name ∈ shape.fields

namespace Spells

variable {shape : Shape σ} {levels : Nat} {s : σ}

/-- **A record of its fields spells a model.** -/
theorem present {fields : List (String × Option Document)} (hshape : shape.Proper)
    (hnames : fields.map (·.1) = shape.fields)
    (hrequired : ∀ f ∈ fields, f.1 ∈ shape.required → f.2.isSome)
    (h : Sets shape levels fields shape.initial s) :
    Spells shape.decode (levels + 1) (.present fields) s where
  plain := h.plain
  decode terms hterms := by
    have hnodup : (fields.map (·.1)).Nodup := hnames ▸ hshape.nodup
    have hknown : ∀ f ∈ fields, f.1 ∈ shape.fields := fun f hf =>
      hnames ▸ List.mem_map_of_mem hf
    have hfields : ∀ terms : Terms, levels ≤ terms.levels → shape.ofFields terms
        ((fields.filterMap fun f => f.2.map (f.1, ·)).map fun f => (Document.text f.1, f.2)) =
          .ok s := by
      intro terms hterms
      obtain ⟨seen, hrun, -, hseen⟩ :=
        h.setFields hnodup hknown hterms [] fun _ _ => List.not_mem_nil
      have hnone : shape.required.find? (fun f => !seen.contains f) = none := by
        rw [List.find?_eq_none]
        intro name hname
        have hdeclared := hshape.required name hname
        rw [← hnames] at hdeclared
        obtain ⟨f, hf, rfl⟩ := List.mem_map.1 hdeclared
        simpa using hseen f hf (hrequired f hf hname)
      rw [Shape.ofFields, hrun]
      simp only [bind, Except.bind, hnone]
    exact decode_enter hfields hterms

/-- The same where every field has a value. -/
theorem object {fields : List (String × Document)} (hshape : shape.Proper)
    (hnames : fields.map (·.1) = shape.fields)
    (h : Sets shape levels (fields.map fun f => (f.1, some f.2)) shape.initial s) :
    Spells shape.decode (levels + 1) (.object fields) s := by
  have hpresent := present hshape (by rw [List.map_map]; exact hnames)
    (fun f hf _ => by
      obtain ⟨f, -, rfl⟩ := List.mem_map.1 hf
      rfl) h
  have hsame : Document.present (fields.map fun f => (f.1, some f.2)) = .object fields := by
    rw [Document.present, List.filterMap_map]
    exact congrArg Document.object List.filterMap_some
  rw [hsame] at hpresent
  exact hpresent

/-- **What is spelled can be written as JSON and read again.** -/
theorem ofJson {inner : Decoder α} {d : Document} {a : α} (h : Spells inner jsonTerms.levels d a) :
    Decoder.ofJson inner d.toJson = .ok a := by
  rw [Decoder.ofJson, ofJson?_toJson h.plain]
  exact h.decode jsonTerms (Nat.le_refl _)

end Spells

end EventWorker
