import EventWorker.Proofs.Document.Fields
import EventWorker.Proofs.Document.JsonReaders

/-!
# Values that say their type

A JSON text stands for a document in which every value says what it is (`Typed`): it has no plain scalars,
which are one thing to one reader and another to the next, and no tags, and reading does not stop inside it.
So nothing but a string is a text to whoever asks for one, and a table of texts is an object of strings.

* `typed_of_ofJson?`: every value of a JSON text says its type.
* `Typed.tableOf_text_eq_ok_iff`: what a table of texts is decoded from.
-/

namespace EventWorker.Document

/-- No value is plain, tagged or only partly there. -/
inductive Typed : Document → Prop where
  | null : Typed .null
  | bool (b : Bool) : Typed (.bool b)
  | number (digits : String) : Typed (.number digits)
  | text (s : String) : Typed (.text s)
  | halfPair : Typed .halfPair
  | list {ds : List Document} (h : ∀ d ∈ ds, Typed d) : Typed (.list ds)
  | record {fs : List (Document × Document)} (hkeys : ∀ f ∈ fs, Typed f.1)
      (hvalues : ∀ f ∈ fs, Typed f.2) : Typed (.record fs)

namespace Json

variable {α β : Type} {P : α → Prop} {Q : β → Prop} {x : Except Fault (α × List Char)}

/-! ### What readers give -/

/-- Whatever is read has the property. -/
def Gives (P : α → Prop) (x : Except Fault (α × List Char)) : Prop :=
  ∀ a rest, x = .ok (a, rest) → P a

theorem Gives.fault (e : Fault) : Gives P (.error e) := by
  intro a rest h
  cases h

theorem Gives.ok {a : α} (h : P a) (rest : List Char) : Gives P (.ok (a, rest)) := by
  intro a' rest' heq
  cases heq
  exact h

theorem Gives.bind {f : α × List Char → Except Fault (β × List Char)} (h : Gives P x)
    (hf : ∀ a rest, P a → Gives Q (f (a, rest))) : Gives Q (x >>= f) := by
  cases x with
  | error e => exact .fault e
  | ok r => exact hf r.1 r.2 (h r.1 r.2 rfl)

theorem gives_true (x : Except Fault (α × List Char)) : Gives (fun _ => True) x :=
  fun _ _ _ => trivial

theorem gives_expect {c : Char} {next : List Char → Except Fault (α × List Char)}
    (h : ∀ rest, Gives P (next rest)) (cs : List Char) : Gives P (expect c next cs) := by
  rcases cs with _ | ⟨d, rest⟩
  · exact .fault _
  · rw [expect]
    split
    · exact h rest
    · exact .fault _

theorem gives_behind {close : Char} {a : α} {more : List Char → Except Fault (List α × List Char)} (ha : P a)
    (h : ∀ rest, Gives (fun as => ∀ a ∈ as, P a) (more rest)) (cs : List Char) :
    Gives (fun as => ∀ a ∈ as, P a) (behind close a more cs) := by
  rcases cs with _ | ⟨c, rest⟩
  · exact .fault _
  · rw [behind]
    split
    · refine (h rest).bind fun as left has => .ok ?_ left
      exact List.forall_mem_cons.2 ⟨ha, has⟩
    split
    · exact .ok (List.forall_mem_singleton.2 ha) rest
    · exact .fault _

theorem gives_enclosed {close : Char} {empty : α} {read : List Char → Except Fault (α × List Char)}
    (hempty : P empty) (h : ∀ cs, Gives P (read cs)) (cs : List Char) :
    Gives P (enclosed close empty read cs) := by
  rcases cs with _ | ⟨c, rest⟩
  · exact h []
  · rw [enclosed]
    split
    · exact .ok hempty rest
    · exact h _

/-! ### What a value may be -/

theorem typed_stringOf (ps : List Piece) : Typed (stringOf ps) := by
  rw [stringOf]
  split
  · exact .text _
  · exact .halfPair

theorem gives_number (cs : List Char) : Gives Typed (number cs) := by
  unfold number
  split
  dsimp only
  refine (gives_true _).bind fun whole cs _ => ?_
  refine (gives_true _).bind fun fraction cs _ => ?_
  refine (gives_true _).bind fun exponent cs _ => ?_
  exact .ok (.number _) cs

theorem gives_word (name : String) {d : Document} (h : Typed d) (cs : List Char) :
    Gives Typed (word name d cs) := by
  rw [word]
  split
  · exact .ok h _
  · exact .fault _

variable {depth : Nat}

theorem gives_value (hitems : ∀ cs, Gives (fun ds => ∀ d ∈ ds, Typed d) (items depth cs))
    (hfields : ∀ cs, Gives (fun fs => ∀ f ∈ fs, Typed f.1 ∧ Typed f.2) (fields depth cs)) (cs : List Char) :
    Gives Typed (value (depth + 1) cs) := by
  cases hskip : skipSpace cs with
  | nil =>
    rw [value, hskip]
    exact gives_number []
  | cons c rest =>
    by_cases hc : BeginsNumber c
    · rw [value_of_beginsNumber depth hc hskip]
      exact gives_number _
    rcases cases_of_not_beginsNumber hc with rfl | rfl | rfl | rfl | rfl | rfl
    · rw [value, hskip]
      exact (gives_true _).bind fun ps rest _ => .ok (typed_stringOf ps) rest
    · rw [value, hskip]
      exact gives_word "null" .null _
    · rw [value, hskip]
      exact gives_word "true" (.bool true) _
    · rw [value, hskip]
      exact gives_word "false" (.bool false) _
    · rw [value_list_of_skipSpace depth hskip]
      refine gives_enclosed (.list (by simp)) (fun inner => ?_) _
      exact (hitems inner).bind fun ds rest hds => .ok (.list hds) rest
    · rw [value_record_of_skipSpace depth hskip]
      refine gives_enclosed (.record (by simp) (by simp)) (fun inner => ?_) _
      refine (hfields inner).bind fun fs rest hfs => .ok (.record ?_ ?_) rest
      · exact fun f hf => (hfs f hf).1
      · exact fun f hf => (hfs f hf).2

theorem gives_items (hvalue : ∀ cs, Gives Typed (value depth cs))
    (hitems : ∀ cs, Gives (fun ds => ∀ d ∈ ds, Typed d) (items depth cs)) (cs : List Char) :
    Gives (fun ds => ∀ d ∈ ds, Typed d) (items (depth + 1) cs) := by
  rw [items_succ]
  exact (hvalue cs).bind fun d rest hd => gives_behind hd hitems (skipSpace rest)

theorem gives_fields (hvalue : ∀ cs, Gives Typed (value depth cs))
    (hfields : ∀ cs, Gives (fun fs => ∀ f ∈ fs, Typed f.1 ∧ Typed f.2) (fields depth cs)) (cs : List Char) :
    Gives (fun fs => ∀ f ∈ fs, Typed f.1 ∧ Typed f.2) (fields (depth + 1) cs) := by
  rw [fields_succ]
  refine gives_expect (fun inner => ?_) _
  refine (gives_true _).bind fun key rest _ => ?_
  refine gives_expect (fun field => ?_) _
  refine (hvalue field).bind fun d left hd => ?_
  exact gives_behind ⟨typed_stringOf key, hd⟩ hfields _

/-- By induction on the bound, for values, items and fields at once. -/
theorem gives_typed (depth : Nat) : (∀ cs, Gives Typed (value depth cs)) ∧
    (∀ cs, Gives (fun ds => ∀ d ∈ ds, Typed d) (items depth cs)) ∧
    ∀ cs, Gives (fun fs => ∀ f ∈ fs, Typed f.1 ∧ Typed f.2) (fields depth cs) := by
  induction depth with
  | zero => exact ⟨fun _ => .fault _, fun _ => .fault _, fun _ => .fault _⟩
  | succ depth ih =>
    obtain ⟨hvalue, hitems, hfields⟩ := ih
    exact ⟨gives_value hitems hfields, gives_items hvalue hitems, gives_fields hvalue hfields⟩

end Json

/-- **Every value of a JSON text says its type.** -/
theorem typed_of_ofJson? {s : String} {d : Document} (h : ofJson? s = some d) : Typed d := by
  have hread : Json.read s = .ok d := Except.toOption_eq_some_iff.1 h
  rw [Json.read] at hread
  dsimp only at hread
  obtain ⟨⟨d', rest⟩, hvalue, hd⟩ := Except.bind_eq_ok_iff.1 hread
  dsimp only at hd
  split at hd
  · cases hd
    exact (Json.gives_typed _).1 _ _ _ hvalue
  · cases hd

/-! ### Decoding texts -/

namespace Typed

variable {d : Document} {terms : Terms}

theorem text_eq_ok_iff (h : Typed d) {s : String} : Decoder.text terms d = .ok s ↔ d = .text s := by
  rw [Decoder.text_eq_ok_iff]
  cases h <;> simp [Decoder.scalarText?, Document.untagged]

theorem entries_text_eq_ok_iff {fields : List (Document × Document)}
    (h : ∀ f ∈ fields, Typed f.1 ∧ Typed f.2) {es : List (String × String)} :
    Decoder.entries Decoder.text terms fields = .ok es ↔
      fields = es.map fun e => (.text e.1, .text e.2) := by
  induction fields generalizing es with
  | nil =>
    rw [Decoder.entries, Except.ok.injEq, eq_comm, eq_comm (a := []), List.map_eq_nil_iff]
  | cons f fields ih =>
    obtain ⟨k, v⟩ := f
    obtain ⟨⟨hk, hv⟩, hfields⟩ := List.forall_mem_cons.1 h
    simp only [Decoder.entries, Except.bind_eq_ok_iff, hk.text_eq_ok_iff, hv.text_eq_ok_iff, ih hfields]
    constructor
    · rintro ⟨key, rfl, value, rfl, others, rfl, hes⟩
      cases hes
      rfl
    · intro hes
      cases es with
      | nil => cases hes
      | cons e es =>
        obtain ⟨hf, hrest⟩ := List.cons.inj hes
        obtain ⟨rfl, rfl⟩ := Prod.mk.inj hf
        exact ⟨e.1, rfl, e.2, rfl, es, hrest, rfl⟩

/-- A table of texts is decoded from an object of texts, and from nothing else. -/
theorem tableOf_text_eq_ok_iff (h : Typed d) (hlevels : terms.levels ≠ 0) {t : Table String} :
    Decoder.tableOf Decoder.text terms d = .ok t ↔ ∃ fields : List (String × String),
      d = .object (fields.map fun f => (f.1, .text f.2)) ∧ Table.ofList fields = t := by
  obtain ⟨levels, lists⟩ := terms
  obtain ⟨n, rfl⟩ := Nat.exists_eq_succ_of_ne_zero hlevels
  have hobject : ∀ es : List (String × String), Document.object (es.map fun e => (e.1, Document.text e.2)) =
      .record (es.map fun e => (.text e.1, .text e.2)) := by
    intro es
    simp [object]
  simp only [hobject]
  cases h with
  | @record fields hkeys hvalues =>
    have hentries : ∀ es : List (String × String), Decoder.entries Decoder.text ⟨n, lists⟩ fields = .ok es ↔
        fields = es.map fun e => (.text e.1, .text e.2) := fun es =>
      entries_text_eq_ok_iff fun f hf => ⟨hkeys f hf, hvalues f hf⟩
    show Table.ofList <$> Decoder.entries Decoder.text ⟨n, lists⟩ fields = _ ↔ _
    simp only [record.injEq, ← hentries]
    cases Decoder.entries Decoder.text ⟨n, lists⟩ fields <;> simp [Functor.map, Except.map]
  | _ => simp [Decoder.tableOf, Document.untagged]

end Typed

end EventWorker.Document
