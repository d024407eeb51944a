import EventWorker.Document.Json
import EventWorker.Document.JsonText
import EventWorker.Document.Scalar
import EventWorker.Proofs.Document.JsonReaders
import Mathlib.Tactic.IntervalCases

/-!
# Reading back what has been written

A JSON text that has been written from a document is read as the same document, if all numbers in it
are integers and all keys are texts (`Plain`). Numbers are the one thing that does not say where it
ends, so a value is read back from in front of anything that a number does not go on with (`Closes`).

Main statement: `ofJson?_toJson`.
-/

namespace EventWorker.Document

/-- A document of nulls, truth values, integers and texts. -/
inductive Plain : Document → Prop where
  | null : Plain .null
  | bool (b : Bool) : Plain (.bool b)
  | int (n : Int) : Plain (.int n)
  | text (s : String) : Plain (.text s)
  | list {ds : List Document} (h : ∀ d ∈ ds, Plain d) : Plain (.list ds)
  | object {fs : List (String × Document)} (h : ∀ f ∈ fs, Plain f.2) : Plain (.object fs)

namespace Json

/-! ### Strings -/

/-- A control that is written by its number, having no letter of its own. -/
def isNumbered (c : Char) : Bool :=
  c.toNat < 0x20 && !List.contains ['\n', '\r', '\t', Char.ofNat 8, Char.ofNat 12] c

/-- The piece that a character is read as once it has been written. -/
def pieceOf (c : Char) : Piece :=
  if isNumbered c then .unit c.toNat else .char c

theorem pieces_escape_control (rest : List Char) : ∀ n < 0x20,
    pieces (escape (Char.ofNat n) ++ rest) = (do
      let (ps, rest) ← pieces rest
      return (pieceOf (Char.ofNat n) :: ps, rest)) := by
  intro n hn
  interval_cases n <;> rfl

/-- A character that neither ends the string nor begins an escape stands for itself. -/
theorem pieces_cons {c : Char} (hquote : c ≠ '"') (hback : c ≠ '\\') (rest : List Char) :
    pieces (c :: rest) = if c.toNat < 0x20 then .error .misplaced else do
      let (ps, rest) ← pieces rest
      return (.char c :: ps, rest) := by
  rw [pieces] <;> simp [hquote, hback]

/-- A character is read back whatever stands after it. -/
theorem pieces_escape (c : Char) (rest : List Char) :
    pieces (escape c ++ rest) = (do
      let (ps, rest) ← pieces rest
      return (pieceOf c :: ps, rest)) := by
  by_cases hcontrol : c.toNat < 0x20
  · have h := pieces_escape_control rest c.toNat hcontrol
    rwa [Char.ofNat_toNat] at h
  · have hchar : pieceOf c = .char c := by simp [pieceOf, isNumbered, hcontrol]
    rw [hchar]
    by_cases hquote : c = '"'
    · subst hquote
      rfl
    · by_cases hback : c = '\\'
      · subst hback
        rfl
      · have hne : ∀ x : Char, x.toNat < 0x20 → c ≠ x := by
          rintro x hx rfl
          exact hcontrol hx
        have hescape : escape c = [c] := by
          rw [escape, if_neg hquote, if_neg hback, if_neg (hne _ (by decide)),
            if_neg (hne _ (by decide)), if_neg (hne _ (by decide)), if_neg (by omega),
            if_neg (by omega), if_neg hcontrol]
        rw [hescape, List.singleton_append, pieces_cons hquote hback, if_neg hcontrol]

theorem pieces_quoted (cs rest : List Char) :
    pieces (cs.flatMap escape ++ '"' :: rest) = .ok (cs.map pieceOf, rest) := by
  induction cs with
  | nil => rfl
  | cons c cs ih =>
    rw [List.flatMap_cons, List.append_assoc, pieces_escape, ih]
    rfl

/-- Half of a pair is never written by its number. -/
theorem join?_unit_cons {n : Nat} (hn : n < 0x20) (ps : List Piece) :
    join? (.unit n :: ps) = (join? ps).map (Char.ofNat n :: ·) := by
  have hhigh : isHighHalf n = false := by
    simp [isHighHalf]
    omega
  have hlow : isLowHalf n = false := by
    simp [isLowHalf]
    omega
  cases ps with
  | nil => simp [join?, hhigh, hlow]
  | cons p ps =>
    cases p with
    | char c => simp [join?, hhigh, hlow]
    | unit m => simp [join?, hhigh, hlow]

theorem join?_map_pieceOf (cs : List Char) : join? (cs.map pieceOf) = some cs := by
  induction cs with
  | nil => rfl
  | cons c cs ih =>
    rw [List.map_cons, pieceOf]
    split
    · next hnumbered =>
      have hc : c.toNat < 0x20 := by
        rw [isNumbered, Bool.and_eq_true, decide_eq_true_eq] at hnumbered
        exact hnumbered.1
      rw [join?_unit_cons hc, ih, Char.ofNat_toNat]
      rfl
    · rw [join?, ih]
      rfl

theorem stringOf_map_pieceOf (s : String) : stringOf (s.toList.map pieceOf) = .text s := by
  rw [stringOf, join?_map_pieceOf]
  exact congrArg Document.text String.ofList_toList

/-! ### Numbers -/

/-- Nothing that a number could go on with. -/
def Closes (rest : List Char) : Prop :=
  ∀ c ∈ rest.head?, c.isDigit = false ∧ c ≠ '.' ∧ c ≠ 'e' ∧ c ≠ 'E'

theorem Closes.nil : Closes [] :=
  fun _ h => by cases h

theorem Closes.head {rest : List Char} {c : Char} {cs : List Char} (h : Closes rest)
    (hrest : rest = c :: cs) : c.isDigit = false ∧ c ≠ '.' ∧ c ≠ 'e' ∧ c ≠ 'E' :=
  h c (by rw [hrest]; rfl)

/-- No digits are written before the first that counts. -/
theorem head?_toDigits {n : Nat} (hn : n ≠ 0) : (Nat.toDigits 10 n).head? ≠ some '0' := by
  induction n using Nat.strongRecOn with
  | ind n ih =>
    rw [Nat.toDigits_eq_if (by decide)]
    split
    · next hlt =>
      intro h
      interval_cases n
      · exact hn rfl
      all_goals simp [Nat.digitChar] at h
    · next hge =>
      have hquot := ih (n / 10) (by omega) (by omega)
      rcases hdigits : Nat.toDigits 10 (n / 10) with _ | ⟨c, cs⟩
      · exact absurd hdigits Nat.toDigits_ne_nil
      · rw [hdigits] at hquot
        exact hquot

theorem toList_toString_int (n : Int) :
    (toString n).toList = (if n < 0 then ['-'] else []) ++ Nat.toDigits 10 n.natAbs := by
  cases n with
  | ofNat m =>
    show (toString m).toList = _
    rw [Nat.toString_eq_ofList_toDigits, String.toList_ofList]
    rfl
  | negSucc m =>
    show ("-" ++ toString (m + 1)).toList = _
    rw [String.toList_append, Nat.toString_eq_ofList_toDigits, if_pos (Int.negSucc_lt_zero m)]
    exact congrArg (['-'] ++ ·) String.toList_ofList

theorem digits_append {ds rest : List Char} (hne : ds ≠ []) (hds : ∀ c ∈ ds, c.isDigit)
    (hrest : Closes rest) : digits (ds ++ rest) = .ok (ds, rest) := by
  have hstop : rest.takeWhile Char.isDigit = [] ∧ rest.dropWhile Char.isDigit = rest := by
    rcases hcases : rest with _ | ⟨c, cs⟩
    · exact ⟨rfl, rfl⟩
    · have hc := (hrest.head hcases).1
      rw [List.takeWhile_cons_of_neg (by simp [hc]), List.dropWhile_cons_of_neg (by simp [hc])]
      exact ⟨rfl, rfl⟩
  have htake : (ds ++ rest).takeWhile Char.isDigit = ds := by
    rw [List.takeWhile_append_of_pos hds, hstop.1, List.append_nil]
  have hdrop : (ds ++ rest).dropWhile Char.isDigit = rest := by
    rw [List.dropWhile_append_of_pos hds, hstop.2]
  unfold digits
  rw [htake, hdrop]
  cases ds with
  | nil => exact absurd rfl hne
  | cons d ds => rfl

theorem wholePart_toDigits (n : Nat) {rest : List Char} (hrest : Closes rest) :
    wholePart (Nat.toDigits 10 n ++ rest) = .ok (Nat.toDigits 10 n, rest) := by
  have hdigit : ∀ c ∈ Nat.toDigits 10 n, c.isDigit := fun c hc =>
    Nat.isDigit_of_mem_toDigits (by decide) (by decide) hc
  by_cases hn : n = 0
  · subst hn
    rw [Nat.toDigits_zero]
    rcases hcases : rest with _ | ⟨c, cs⟩
    · rfl
    · show (if c.isDigit then _ else _) = _
      rw [(hrest.head hcases).1]
      rfl
  · rcases hdigits : Nat.toDigits 10 n with _ | ⟨d, ds⟩
    · exact absurd hdigits Nat.toDigits_ne_nil
    · have hd : d ≠ '0' := by
        have hhead := head?_toDigits hn
        rw [hdigits] at hhead
        exact fun h => hhead (congrArg some h)
      rw [hdigits] at hdigit
      rw [List.cons_append, wholePart]
      · exact digits_append (List.cons_ne_nil d ds) hdigit hrest
      · exact fun _ h => hd (List.cons.inj h).1

theorem fractionPart_of_closes {rest : List Char} (h : Closes rest) :
    fractionPart rest = .ok ([], rest) := by
  unfold fractionPart
  split
  · exact absurd rfl (h.head rfl).2.1
  · rfl

theorem exponentPart_of_closes {rest : List Char} (h : Closes rest) :
    exponentPart rest = .ok ([], rest) := by
  cases rest with
  | nil => rfl
  | cons c cs =>
    obtain ⟨-, -, he, hE⟩ := h.head rfl
    exact if_neg (not_or.2 ⟨he, hE⟩)

/-- **An integer is read back**, given that it is over. -/
theorem number_int (n : Int) {rest : List Char} (hrest : Closes rest) :
    number ((toString n).toList ++ rest) = .ok (.int n, rest) := by
  have hspelled : Document.int n = .number (String.ofList (toString n).toList) := by
    rw [String.ofList_toList]
    rfl
  have hwhole := wholePart_toDigits n.natAbs hrest
  rw [hspelled, toList_toString_int]
  split
  · simp only [number, List.cons_append, List.nil_append, hwhole, bind, Except.bind,
      fractionPart_of_closes hrest, exponentPart_of_closes hrest, List.append_nil]
    rfl
  · rcases hdigits : Nat.toDigits 10 n.natAbs with _ | ⟨d, ds⟩
    · exact absurd hdigits Nat.toDigits_ne_nil
    · have hd : d ≠ '-' := by
        have hdigit : d.isDigit := Nat.isDigit_of_mem_toDigits (by decide) (by decide)
          (hdigits ▸ List.mem_cons_self)
        rintro rfl
        exact absurd hdigit (by decide)
      rw [hdigits] at hwhole
      unfold number
      split
      next sign cs heq =>
      split at heq
      · next h => exact absurd (List.cons.inj h).1 hd
      · obtain ⟨rfl, rfl⟩ := Prod.mk.inj heq
        simp only [List.nil_append, hwhole, bind, Except.bind, fractionPart_of_closes hrest,
          exponentPart_of_closes hrest, List.append_nil]
        rfl

theorem exists_cons_toString (n : Int) :
    ∃ c cs, (toString n).toList = c :: cs ∧ (c = '-' ∨ c.isDigit) := by
  rw [toList_toString_int]
  split
  · exact ⟨'-', _, rfl, Or.inl rfl⟩
  · rcases hdigits : Nat.toDigits 10 n.natAbs with _ | ⟨c, cs⟩
    · exact absurd hdigits Nat.toDigits_ne_nil
    · exact ⟨c, cs, rfl, Or.inr (Nat.isDigit_of_mem_toDigits (by decide) (by decide)
        (hdigits ▸ List.mem_cons_self))⟩

/-- What an integer does not begin with. -/
theorem ne_of_begins {c x : Char} (hc : c = '-' ∨ c.isDigit) (hx : x ≠ '-') (hdigit : x.isDigit = false) :
    c ≠ x := by
  rintro rfl
  rcases hc with rfl | hc
  · exact hx rfl
  · rw [hdigit] at hc
    cases hc

theorem isSpace_of_begins {c : Char} (hc : c = '-' ∨ c.isDigit) : isSpace c = false := by
  simp [isSpace, ne_of_begins hc]

/-! ### Values -/

theorem skipSpace_cons {c : Char} (hc : isSpace c = false) (cs : List Char) :
    skipSpace (c :: cs) = c :: cs :=
  List.dropWhile_cons_of_neg (by simp [hc])

theorem closes_itemsChars (ds : List Document) (rest : List Char) :
    Closes (itemsChars ds ++ rest) := by
  cases ds <;> rintro c ⟨rfl⟩ <;> decide

theorem closes_fieldsChars (fs : List (Document × Document)) (rest : List Char) :
    Closes (fieldsChars fs ++ rest) := by
  cases fs with
  | nil => rintro c ⟨rfl⟩; decide
  | cons f fs => rintro c ⟨rfl⟩; decide

/-- A value begins with neither a blank nor the end of a list. -/
theorem exists_chars_eq {d : Document} (hd : Plain d) :
    ∃ c cs, chars d = c :: cs ∧ isSpace c = false ∧ c ≠ ']' := by
  cases hd with
  | null => exact ⟨'n', _, rfl, by decide, by decide⟩
  | bool b => cases b <;> exact ⟨_, _, rfl, by decide, by decide⟩
  | text s => exact ⟨'"', _, rfl, by decide, by decide⟩
  | list h =>
    rename_i ds
    cases ds <;> exact ⟨'[', _, rfl, by decide, by decide⟩
  | object h =>
    rename_i fs
    cases fs <;> exact ⟨'\x7b', _, rfl, by decide, by decide⟩
  | int n =>
    obtain ⟨c, cs, hcs, hc⟩ := exists_cons_toString n
    exact ⟨c, cs, hcs, isSpace_of_begins hc, ne_of_begins hc (by decide) (by decide)⟩

/-- The value is read back from in front of whatever closes it. -/
def ReadsBack (d : Document) : Prop :=
  ∀ (depth : Nat) (rest : List Char), 2 * (chars d).length ≤ depth → Closes rest →
    value depth (chars d ++ rest) = .ok (d, rest)

theorem value_quote (depth : Nat) (s : String) (rest : List Char) :
    value (depth + 1) (quote s ++ rest) = .ok (.text s, rest) := by
  rw [quote, List.cons_append, List.cons_append, List.append_assoc, List.singleton_append]
  show (do
    let (ps, rest) ← pieces (s.toList.flatMap escape ++ '"' :: rest)
    return (stringOf ps, rest)) = _
  rw [pieces_quoted]
  show Except.ok (stringOf _, rest) = _
  rw [stringOf_map_pieceOf]

/-- Items are read back up to the end of their list. -/
theorem items_chars (ds : List Document) :
    ∀ (d : Document), (∀ x ∈ d :: ds, ReadsBack x) → ∀ (depth : Nat) (rest : List Char),
      2 * (chars d ++ itemsChars ds).length ≤ depth →
        items depth (chars d ++ itemsChars ds ++ rest) = .ok (d :: ds, rest) := by
  induction ds with
  | nil =>
    intro d h depth rest hdepth
    rw [List.length_append] at hdepth
    obtain ⟨depth, rfl⟩ : ∃ n, depth = n + 1 := Nat.exists_eq_add_one.2 (by
      simp [itemsChars] at hdepth
      omega)
    have hvalue := h d List.mem_cons_self depth (itemsChars [] ++ rest)
      (by simp [itemsChars] at hdepth; omega) (closes_itemsChars [] rest)
    rw [items, List.append_assoc, hvalue]
    rfl
  | cons d' ds ih =>
    intro d h depth rest hdepth
    rw [List.length_append] at hdepth
    obtain ⟨depth, rfl⟩ : ∃ n, depth = n + 1 := Nat.exists_eq_add_one.2 (by
      simp [itemsChars] at hdepth
      omega)
    have hvalue := h d List.mem_cons_self depth (itemsChars (d' :: ds) ++ rest)
      (by simp [itemsChars] at hdepth; omega) (closes_itemsChars (d' :: ds) rest)
    have hrest := ih d' (fun x hx => h x (List.mem_cons_of_mem d hx)) depth rest
      (by simp [itemsChars] at hdepth ⊢; omega)
    rw [items, List.append_assoc, hvalue]
    simp only [bind, Except.bind, itemsChars, List.cons_append]
    rw [skipSpace_cons (by decide)]
    simp only [hrest]
    rfl

theorem fields_quote (depth : Nat) (k : String) (cs : List Char) :
    fields (depth + 1) (quote k ++ ':' :: cs) = (do
      let (d, rest) ← value depth cs
      match skipSpace rest with
      | ',' :: rest => do
        let (fs, rest) ← fields depth rest
        return ((.text k, d) :: fs, rest)
      | '\x7d' :: rest => return ([(.text k, d)], rest)
      | rest => .error (faultAt rest)) := by
  rw [← stringOf_map_pieceOf k, quote, List.cons_append, List.cons_append, List.append_assoc,
    List.singleton_append]
  rw [fields, skipSpace_cons (by decide)]
  simp only [pieces_quoted, bind, Except.bind]
  rw [skipSpace_cons (by decide)]
  rfl

/-- Fields are read back up to the end of their record. -/
theorem fields_chars (fs : List (String × Document)) :
    ∀ (f : String × Document), (∀ x ∈ f :: fs, ReadsBack x.2) → ∀ (depth : Nat) (rest : List Char),
      let others := fs.map fun f => (Document.text f.1, f.2)
      let written := quote f.1 ++ ':' :: (chars f.2 ++ fieldsChars others)
      2 * written.length ≤ depth →
        fields depth (written ++ rest) = .ok ((Document.text f.1, f.2) :: others, rest) := by
  induction fs with
  | nil =>
    intro f h depth rest others written hdepth
    obtain ⟨depth, rfl⟩ : ∃ n, depth = n + 1 := Nat.exists_eq_add_one.2 (by
      simp [written] at hdepth
      omega)
    have hvalue := h f List.mem_cons_self depth (fieldsChars [] ++ rest)
      (by simp [written] at hdepth; omega) (closes_fieldsChars [] rest)
    rw [List.append_assoc, List.cons_append, fields_quote, List.append_assoc]
    show (do let (d, rest) ← value depth (chars f.2 ++ (fieldsChars [] ++ rest)); _) = _
    rw [hvalue]
    rfl
  | cons f' fs ih =>
    intro f h depth rest others written hdepth
    obtain ⟨depth, rfl⟩ : ∃ n, depth = n + 1 := Nat.exists_eq_add_one.2 (by
      simp [written] at hdepth
      omega)
    have hvalue := h f List.mem_cons_self depth (fieldsChars others ++ rest)
      (by simp [written] at hdepth; omega) (closes_fieldsChars others rest)
    have hrest := ih f' (fun x hx => h x (List.mem_cons_of_mem f hx)) depth rest
      (by simp [written, others, fieldsChars, keyText] at hdepth ⊢; omega)
    rw [List.append_assoc, List.cons_append, fields_quote, List.append_assoc, hvalue]
    show (do
      let (fs, rest) ← fields depth (quote f'.1 ++ ':' :: chars f'.2 ++ fieldsChars _ ++ rest)
      return ((Document.text f.1, f.2) :: fs, rest)) = _
    rw [List.append_assoc (quote f'.1), List.cons_append, hrest]
    rfl

/-- What begins with a sign or a digit is taken for a number. -/
theorem value_number (depth : Nat) {c : Char} (hc : c = '-' ∨ c.isDigit) (cs : List Char) :
    value (depth + 1) (c :: cs) = number (c :: cs) := by
  apply value_of_beginsNumber depth ?_ (skipSpace_cons (isSpace_of_begins hc) cs)
  intro hmem
  simp only [List.mem_cons, List.not_mem_nil, or_false] at hmem
  rcases hmem with rfl | rfl | rfl | rfl | rfl | rfl <;>
    exact absurd rfl (ne_of_begins hc (by decide) (by decide))

/-- A list that is not empty. -/
theorem value_list (depth : Nat) {c : Char} (hspace : isSpace c = false) (hc : c ≠ ']')
    (cs : List Char) : value (depth + 1) ('[' :: c :: cs) = (do
      let (ds, rest) ← items depth (c :: cs)
      return (.list ds, rest)) := by
  rw [value_list_of_skipSpace depth (skipSpace_cons (by decide) _), skipSpace_cons hspace, enclosed,
    if_neg hc]

/-- A record that is not empty. -/
theorem value_record (depth : Nat) (cs : List Char) :
    value (depth + 1) ('\x7b' :: '"' :: cs) = (do
      let (fs, rest) ← fields depth ('"' :: cs)
      return (.record fs, rest)) :=
  rfl

theorem exists_eq_add_one_of_plain {d : Document} (hd : Plain d) {depth : Nat}
    (h : 2 * (chars d).length ≤ depth) : ∃ n, depth = n + 1 := by
  obtain ⟨c, cs, hchars, -⟩ := exists_chars_eq hd
  rw [hchars, List.length_cons] at h
  exact Nat.exists_eq_add_one.2 (by omega)

/-- **A plain document is read back from its text**, whatever closes it. -/
theorem readsBack_of_plain {d : Document} (hd : Plain d) : ReadsBack d := by
  induction hd with
  | null =>
    intro depth rest hdepth _
    obtain ⟨depth, rfl⟩ := exists_eq_add_one_of_plain .null hdepth
    rfl
  | bool b =>
    intro depth rest hdepth _
    obtain ⟨depth, rfl⟩ := exists_eq_add_one_of_plain (.bool b) hdepth
    cases b <;> rfl
  | int n =>
    intro depth rest hdepth hrest
    obtain ⟨depth, rfl⟩ := exists_eq_add_one_of_plain (.int n) hdepth
    obtain ⟨c, cs, hcs, hc⟩ := exists_cons_toString n
    have hnumber := number_int n hrest
    rw [hcs, List.cons_append] at hnumber
    show value (depth + 1) ((toString n).toList ++ rest) = _
    rw [hcs, List.cons_append, value_number depth hc, hnumber]
  | text s =>
    intro depth rest hdepth _
    obtain ⟨depth, rfl⟩ := exists_eq_add_one_of_plain (.text s) hdepth
    exact value_quote depth s rest
  | @list ds h ih =>
    intro depth rest hdepth _
    obtain ⟨depth, rfl⟩ := exists_eq_add_one_of_plain (.list h) hdepth
    cases ds with
    | nil => rfl
    | cons d ds =>
      obtain ⟨c, cs, hchars, hspace, hbracket⟩ := exists_chars_eq (h d List.mem_cons_self)
      have hitems := items_chars ds d ih depth rest (by simp [chars] at hdepth ⊢; omega)
      rw [hchars, List.cons_append, List.cons_append] at hitems
      rw [chars, hchars, List.cons_append, List.cons_append, List.cons_append, List.cons_append,
        value_list depth hspace hbracket, hitems]
      rfl
  | @object fs h ih =>
    intro depth rest hdepth _
    obtain ⟨depth, rfl⟩ := exists_eq_add_one_of_plain (.object h) hdepth
    cases fs with
    | nil => rfl
    | cons f fs =>
      have hfields := fields_chars fs f ih depth rest
        (by simp [object, chars, keyText] at hdepth ⊢; omega)
      have hchars : chars (.object (f :: fs)) ++ rest = '\x7b' :: (quote f.1 ++ ':' :: (chars f.2 ++
          fieldsChars (fs.map fun f => (Document.text f.1, f.2))) ++ rest) := by
        simp [object, chars, keyText]
      obtain ⟨cs, hcs⟩ : ∃ cs, quote f.1 ++ ':' :: (chars f.2 ++
          fieldsChars (fs.map fun f => (Document.text f.1, f.2))) ++ rest = '"' :: cs := ⟨_, rfl⟩
      rw [hchars, hcs, value_record, ← hcs, hfields]
      rfl

end Json

/-- **A plain document that is written as JSON is read as the same document.** -/
theorem ofJson?_toJson {d : Document} (hd : Plain d) : ofJson? d.toJson = some d := by
  have hread : Json.read d.toJson = .ok d := by
    have hvalue := Json.readsBack_of_plain hd (2 * (Json.chars d).length + 2) [] (by omega) .nil
    rw [List.append_nil] at hvalue
    rw [Json.read, toJson, String.toList_ofList]
    simp only [hvalue, bind, Except.bind]
    rfl
  rw [ofJson?, hread]
  rfl

end EventWorker.Document
