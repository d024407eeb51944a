import EventWorker.Proofs.Document.JsonReaders
import EventWorker.Proofs.Document.JsonText
import EventWorker.Text.Blank

/-!
# White space behind a JSON text

A JSON text says the same with white space behind it. Every reader that goes over the characters once more
with a blank behind them comes to the same value and leaves the blank to whoever reads on, or it fails on both
(`Trails`). A string is the one value that goes on over a blank, and it still has no end then; a number and a
word are over where the blank begins.

The bound on nesting is set to the length of the text, so it is not the same for both. A bound of twice the
length is never reached, whatever the text is, and this is why the relation keeps track of how much is left.

Main statement: `ofJson?_append_space`.
-/

namespace EventWorker.Document

namespace Json

variable {α β : Type} {blank : Char} {n m : Nat} {x y : Except Fault (α × List Char)}

/-! ### Readers side by side -/

/-- Reading ends in a fault both times, or in the same value with so much left at most, behind which the
blank stands the second time. -/
def Trails (blank : Char) (n : Nat) (x y : Except Fault (α × List Char)) : Prop :=
  match x with
  | .ok (a, rest) => rest.length ≤ n ∧ y = .ok (a, rest ++ [blank])
  | .error _ => ∃ e, y = .error e

theorem Trails.fault (e e' : Fault) : Trails (α := α) blank n (.error e) (.error e') :=
  ⟨e', rfl⟩

theorem Trails.ok (a : α) {rest : List Char} (h : rest.length ≤ n) :
    Trails blank n (.ok (a, rest)) (.ok (a, rest ++ [blank])) :=
  ⟨h, rfl⟩

theorem Trails.mono (h : Trails blank n x y) (hle : n ≤ m) : Trails blank m x y := by
  cases x with
  | error e => exact h
  | ok r => exact ⟨h.1.trans hle, h.2⟩

theorem Trails.bind {f g : α × List Char → Except Fault (β × List Char)} (h : Trails blank n x y)
    (hfg : ∀ a rest, rest.length ≤ n → Trails blank n (f (a, rest)) (g (a, rest ++ [blank]))) :
    Trails blank n (x >>= f) (y >>= g) := by
  cases x with
  | error e =>
    obtain ⟨e', rfl⟩ := h
    exact .fault e e'
  | ok r =>
    obtain ⟨hle, rfl⟩ := h
    exact hfg r.1 r.2 hle

/-- What is read may be put to some use. -/
theorem Trails.map {f : α → β} (h : Trails blank n x y) :
    Trails blank n (x >>= fun r => .ok (f r.1, r.2)) (y >>= fun r => .ok (f r.1, r.2)) :=
  h.bind fun a _ hle => .ok (f a) hle

/-! ### Strings -/

theorem isSpace_cases (h : isSpace blank) : blank = ' ' ∨ blank = '\n' ∨ blank = '\t' ∨ blank = '\r' := by
  simpa [isSpace, or_assoc] using h

/-- No blank is a digit of a code unit. -/
theorem hexUnit?_blank (hblank : isSpace blank) (a b c : Char) : hexUnit? a b c blank = none := by
  have hdigit : hexDigit? blank = none := by
    rcases isSpace_cases hblank with rfl | rfl | rfl | rfl <;> rfl
  simp [hexUnit?, hdigit]

/-- An escape with too few digits in it has too few with the blank. -/
theorem pieces_unit_trails (hblank : isSpace blank) (n : Nat) {tail : List Char}
    (h : ∀ a b c d rest, tail ≠ a :: b :: c :: d :: rest) :
    Trails blank n (pieces ('\\' :: 'u' :: tail)) (pieces ('\\' :: 'u' :: (tail ++ [blank]))) := by
  match tail with
  | [] => exact .fault _ _
  | [a] => exact .fault _ _
  | [a, b] => exact .fault _ _
  | [a, b, c] =>
    have hsecond : pieces ['\\', 'u', a, b, c, blank] = .error .misplaced := by
      rw [pieces, hexUnit?_blank hblank]
    show Trails blank n _ (pieces ['\\', 'u', a, b, c, blank])
    rw [hsecond]
    exact .fault _ _
  | a :: b :: c :: d :: rest => exact absurd rfl (h a b c d rest)

theorem pieces_escaped {c : Char} (hu : c ≠ 'u') (rest : List Char) :
    pieces ('\\' :: c :: rest) = match escaped? c with
      | none => .error .misplaced
      | some here => do
        let (ps, rest) ← pieces rest
        return (.char here :: ps, rest) := by
  rw [pieces] <;> first | rfl | simp [hu]

theorem pieces_trails (hblank : isSpace blank) (cs : List Char) :
    Trails blank cs.length (pieces cs) (pieces (cs ++ [blank])) := by
  induction cs using pieces.induct with
  | case1 => rcases isSpace_cases hblank with rfl | rfl | rfl | rfl <;> exact .fault _ _
  | case2 rest => exact .ok [] (Nat.le_succ _)
  | case3 a b c d rest hunit =>
    simp only [List.cons_append, pieces, hunit]
    exact .fault _ _
  | case4 a b c d rest unit hunit ih =>
    simp only [List.cons_append, pieces, hunit]
    exact (ih.mono (by simp only [List.length_cons]; omega)).map
  | case5 => rcases isSpace_cases hblank with rfl | rfl | rfl | rfl <;> exact .fault _ _
  | case6 tail hshort => exact pieces_unit_trails hblank _ fun a b c d rest h => hshort a b c d rest h
  | case7 c rest _ hu hnone =>
    rw [List.cons_append, List.cons_append, pieces_escaped hu, pieces_escaped hu, hnone]
    exact .fault _ _
  | case8 c rest _ hu here hsome ih =>
    rw [List.cons_append, List.cons_append, pieces_escaped hu, pieces_escaped hu, hsome]
    exact (ih.mono (by simp only [List.length_cons]; omega)).map
  | case9 c rest hquote _ hlast _ hback hcontrol =>
    have hne : c ≠ '\\' := by
      intro h
      cases rest with
      | nil => exact hlast h rfl
      | cons d rest => exact hback d rest h rfl
    rw [List.cons_append, pieces_cons hquote hne, pieces_cons hquote hne, if_pos hcontrol, if_pos hcontrol]
    exact .fault _ _
  | case10 c rest hquote _ hlast _ hback hcontrol ih =>
    have hne : c ≠ '\\' := by
      intro h
      cases rest with
      | nil => exact hlast h rfl
      | cons d rest => exact hback d rest h rfl
    rw [List.cons_append, pieces_cons hquote hne, pieces_cons hquote hne, if_neg hcontrol, if_neg hcontrol]
    exact (ih.mono (Nat.le_succ _)).map

/-! ### Numbers and words -/

theorem not_isDigit_blank (hblank : isSpace blank) : blank.isDigit = false := by
  rcases isSpace_cases hblank with rfl | rfl | rfl | rfl <;> rfl

theorem digits_trails (hblank : isSpace blank) (cs : List Char) :
    Trails blank cs.length (digits cs) (digits (cs ++ [blank])) := by
  have hout := not_isDigit_blank hblank
  have hspan : (cs ++ [blank]).takeWhile Char.isDigit = cs.takeWhile Char.isDigit ∧
      (cs ++ [blank]).dropWhile Char.isDigit = cs.dropWhile Char.isDigit ++ [blank] := by
    induction cs with
    | nil => simp [hout]
    | cons c cs ih => by_cases hc : c.isDigit <;> simp [hc, ih]
  unfold digits
  rw [hspan.1, hspan.2]
  cases cs.takeWhile Char.isDigit with
  | nil => exact .fault _ _
  | cons d ds => exact .ok _ (List.dropWhile_sublist _).length_le

theorem digitsAfter_trails (hblank : isSpace blank) (head cs : List Char) :
    Trails blank cs.length (digitsAfter head cs) (digitsAfter head (cs ++ [blank])) :=
  (digits_trails hblank cs).map

theorem wholePart_trails (hblank : isSpace blank) (cs : List Char) :
    Trails blank cs.length (wholePart cs) (wholePart (cs ++ [blank])) := by
  have hout := not_isDigit_blank hblank
  cases cs with
  | nil =>
    have hne : blank ≠ '0' := by
      rintro rfl
      exact absurd hout (by decide)
    have hsecond : wholePart [blank] = digits [blank] := by
      rw [wholePart]
      exact fun _ h => hne (List.cons.inj h).1
    show Trails blank 0 (digits []) (wholePart [blank])
    rw [hsecond]
    exact digits_trails hblank []
  | cons c cs =>
    by_cases hc : c = '0'
    · subst hc
      cases cs with
      | nil =>
        show Trails blank 1 _ (if blank.isDigit then _ else _)
        rw [if_neg (by simp [hout])]
        exact .ok _ (Nat.zero_le 1)
      | cons d ds =>
        show Trails blank _ (if d.isDigit then _ else _) (if d.isDigit then _ else _)
        by_cases hd : d.isDigit
        · rw [if_pos hd, if_pos hd]
          exact .fault _ _
        · rw [if_neg hd, if_neg hd]
          exact .ok _ (Nat.le_succ _)
    · have hwhole : ∀ rest, wholePart (c :: rest) = digits (c :: rest) := by
        intro rest
        rw [wholePart]
        exact fun _ h => hc (List.cons.inj h).1
      rw [List.cons_append, hwhole, hwhole]
      exact digits_trails hblank (c :: cs)

theorem fractionPart_trails (hblank : isSpace blank) (cs : List Char) :
    Trails blank cs.length (fractionPart cs) (fractionPart (cs ++ [blank])) := by
  cases cs with
  | nil => rcases isSpace_cases hblank with rfl | rfl | rfl | rfl <;> exact .ok [] (Nat.le_refl 0)
  | cons c cs =>
    by_cases hc : c = '.'
    · subst hc
      exact (digitsAfter_trails hblank ['.'] cs).mono (Nat.le_succ _)
    · have hnone : ∀ rest, fractionPart (c :: rest) = .ok ([], c :: rest) := by
        intro rest
        rw [fractionPart]
        exact fun _ h => hc (List.cons.inj h).1
      rw [List.cons_append, hnone, hnone]
      exact .ok [] (Nat.le_refl _)

/-- An exponent without a sign. -/
theorem exponentPart_of_ne {c : Char} (hc : c = 'e' ∨ c = 'E') {rest : List Char}
    (hplus : rest.head? ≠ some '+') (hminus : rest.head? ≠ some '-') :
    exponentPart (c :: rest) = digitsAfter [c] rest := by
  rw [exponentPart, if_pos hc]
  · rintro _ rfl
    exact hplus rfl
  · rintro _ rfl
    exact hminus rfl

theorem head?_append_blank_ne (hblank : isSpace blank) {c : Char} (hc : ¬ isSpace c) {cs : List Char}
    (h : cs.head? ≠ some c) : (cs ++ [blank]).head? ≠ some c := by
  cases cs with
  | nil =>
    intro heq
    obtain rfl := Option.some.inj heq
    exact hc hblank
  | cons d cs => exact h

theorem exponentPart_trails (hblank : isSpace blank) (cs : List Char) :
    Trails blank cs.length (exponentPart cs) (exponentPart (cs ++ [blank])) := by
  cases cs with
  | nil => rcases isSpace_cases hblank with rfl | rfl | rfl | rfl <;> exact .ok [] (Nat.le_refl 0)
  | cons c rest =>
    by_cases hc : c = 'e' ∨ c = 'E'
    · by_cases hplus : rest.head? = some '+'
      · obtain ⟨ds, rfl⟩ := List.head?_eq_some_iff.1 hplus
        rw [List.cons_append, List.cons_append, exponentPart, exponentPart, if_pos hc, if_pos hc]
        exact (digitsAfter_trails hblank [c, '+'] ds).mono (by simp only [List.length_cons]; omega)
      by_cases hminus : rest.head? = some '-'
      · obtain ⟨ds, rfl⟩ := List.head?_eq_some_iff.1 hminus
        rw [List.cons_append, List.cons_append, exponentPart, exponentPart, if_pos hc, if_pos hc]
        exact (digitsAfter_trails hblank [c, '-'] ds).mono (by simp only [List.length_cons]; omega)
      rw [List.cons_append, exponentPart_of_ne hc hplus hminus,
        exponentPart_of_ne hc (head?_append_blank_ne hblank (by decide) hplus)
          (head?_append_blank_ne hblank (by decide) hminus)]
      exact (digitsAfter_trails hblank [c] rest).mono (Nat.le_succ _)
    · show Trails blank _ (if _ then _ else _) (if _ then _ else _)
      rw [if_neg hc, if_neg hc]
      exact .ok [] (Nat.le_refl _)

/-- What is left of a number once its sign has been read. -/
def unsigned (sign cs : List Char) : Except Fault (Document × List Char) := do
  let (whole, cs) ← wholePart cs
  let (fraction, cs) ← fractionPart cs
  let (exponent, cs) ← exponentPart cs
  return (.number (String.ofList (sign ++ whole ++ fraction ++ exponent)), cs)

theorem number_of_ne {cs : List Char} (h : cs.head? ≠ some '-') : number cs = unsigned [] cs := by
  unfold number
  split
  next heq =>
  split at heq
  · exact absurd rfl h
  · obtain ⟨rfl, rfl⟩ := Prod.mk.inj heq
    rfl

theorem unsigned_trails (hblank : isSpace blank) (sign cs : List Char) :
    Trails blank cs.length (unsigned sign cs) (unsigned sign (cs ++ [blank])) := by
  refine (wholePart_trails hblank cs).bind fun whole cs' hwhole => ?_
  refine ((fractionPart_trails hblank cs').mono hwhole).bind fun fraction cs'' hfraction => ?_
  refine ((exponentPart_trails hblank cs'').mono hfraction).bind fun exponent rest hexponent => ?_
  exact .ok _ hexponent

theorem number_trails (hblank : isSpace blank) (cs : List Char) :
    Trails blank cs.length (number cs) (number (cs ++ [blank])) := by
  by_cases hminus : cs.head? = some '-'
  · obtain ⟨ds, rfl⟩ := List.head?_eq_some_iff.1 hminus
    exact (unsigned_trails hblank ['-'] ds).mono (Nat.le_succ _)
  · rw [number_of_ne hminus, number_of_ne (head?_append_blank_ne hblank (by decide) hminus)]
    exact unsigned_trails hblank [] cs

theorem word_trails (hblank : isSpace blank) {name : String} (hname : !name.toList.any isSpace)
    (d : Document) (cs : List Char) :
    Trails blank cs.length (word name d cs) (word name d (cs ++ [blank])) := by
  unfold word
  by_cases hprefix : name.toList <+: cs
  · have hlong : name.toList <+: cs ++ [blank] := hprefix.trans (List.prefix_append cs [blank])
    have hle : name.length ≤ cs.length := hprefix.length_le
    rw [if_pos (List.isPrefixOf_iff_prefix.2 hprefix), if_pos (List.isPrefixOf_iff_prefix.2 hlong),
      List.drop_append_of_le_length hle]
    exact .ok d (by simp)
  · have hlong : ¬ name.toList <+: cs ++ [blank] := by
      intro h
      rcases List.prefix_concat_iff.1 h with heq | h
      · have hspace : name.toList.any isSpace = true := List.any_eq_true.2 ⟨blank, by simp [heq], hblank⟩
        rw [hspace] at hname
        cases hname
      · exact hprefix h
    rw [if_neg (mt List.isPrefixOf_iff_prefix.1 hprefix), if_neg (mt List.isPrefixOf_iff_prefix.1 hlong)]
    exact .fault _ _

/-! ### Blanks between values -/

/-- Blanks that are skipped take the blank behind them along, if there is nothing else. -/
theorem skipSpace_cases (hblank : isSpace blank) (cs : List Char) :
    (skipSpace cs = [] ∧ skipSpace (cs ++ [blank]) = []) ∨
      ∃ c rest, skipSpace cs = c :: rest ∧ skipSpace (cs ++ [blank]) = c :: (rest ++ [blank]) ∧
        rest.length + 1 ≤ cs.length := by
  have happend : skipSpace (cs ++ [blank]) =
      if skipSpace cs = [] then [] else skipSpace cs ++ [blank] := by
    simp only [skipSpace, List.dropWhile_append, List.isEmpty_iff]
    by_cases h : cs.dropWhile isSpace = [] <;> simp [h, hblank]
  have hle : (skipSpace cs).length ≤ cs.length := (List.dropWhile_sublist _).length_le
  cases hskip : skipSpace cs with
  | nil => exact .inl ⟨rfl, by simp [happend, hskip]⟩
  | cons c rest => exact .inr ⟨c, rest, rfl, by simp [happend, hskip], by simpa [hskip] using hle⟩

theorem expect_trails (hblank : isSpace blank) (c : Char) {f g : List Char → Except Fault (α × List Char)}
    (cs : List Char)
    (h : ∀ rest, rest.length + 1 ≤ cs.length → Trails blank n (f rest) (g (rest ++ [blank]))) :
    Trails blank n (expect c f (skipSpace cs)) (expect c g (skipSpace (cs ++ [blank]))) := by
  obtain ⟨hskip, hskip'⟩ | ⟨d, rest, hskip, hskip', hle⟩ := skipSpace_cases hblank cs
  · rw [hskip, hskip']
    exact .fault _ _
  · rw [hskip, hskip', expect, expect]
    by_cases hd : d = c
    · rw [if_pos hd, if_pos hd]
      exact h rest hle
    · rw [if_neg hd, if_neg hd]
      exact .fault _ _

theorem behind_trails (hblank : isSpace blank) (close : Char) (a : α)
    {f g : List Char → Except Fault (List α × List Char)} {cs : List Char} (hn : cs.length ≤ n)
    (h : ∀ rest, rest.length + 1 ≤ cs.length → Trails blank n (f rest) (g (rest ++ [blank]))) :
    Trails blank n (behind close a f (skipSpace cs)) (behind close a g (skipSpace (cs ++ [blank]))) := by
  obtain ⟨hskip, hskip'⟩ | ⟨c, rest, hskip, hskip', hle⟩ := skipSpace_cases hblank cs
  · rw [hskip, hskip']
    exact .fault _ _
  · rw [hskip, hskip', behind, behind]
    by_cases hcomma : c = ','
    · rw [if_pos hcomma, if_pos hcomma]
      exact (h rest hle).map
    rw [if_neg hcomma, if_neg hcomma]
    by_cases hclose : c = close
    · rw [if_pos hclose, if_pos hclose]
      exact .ok [a] (by omega)
    · rw [if_neg hclose, if_neg hclose]
      exact .fault _ _

theorem enclosed_trails (hblank : isSpace blank) (close : Char) (empty : α)
    {f g : List Char → Except Fault (α × List Char)} (cs : List Char) (hn : cs.length ≤ n)
    (hf : ∃ e, f [] = .error e) (hg : ∃ e, g [] = .error e)
    (h : ∀ inner, inner.length ≤ cs.length → Trails blank n (f inner) (g (inner ++ [blank]))) :
    Trails blank n (enclosed close empty f (skipSpace cs))
      (enclosed close empty g (skipSpace (cs ++ [blank]))) := by
  obtain ⟨hskip, hskip'⟩ | ⟨c, rest, hskip, hskip', hle⟩ := skipSpace_cases hblank cs
  · obtain ⟨e, he⟩ := hf
    obtain ⟨e', he'⟩ := hg
    rw [hskip, hskip', enclosed, enclosed, he, he']
    exact .fault e e'
  · rw [hskip, hskip', enclosed, enclosed]
    by_cases hclose : c = close
    · rw [if_pos hclose, if_pos hclose]
      exact .ok empty (by omega)
    · rw [if_neg hclose, if_neg hclose]
      exact h (c :: rest) hle

/-! ### Nesting -/

/-- No items are no list, and a record has at least one field. -/
theorem exists_nested_nil_eq_error (depth : Nat) :
    (∃ e, items depth [] = .error e) ∧ ∃ e, fields depth [] = .error e := by
  cases depth with
  | zero => exact ⟨⟨_, rfl⟩, ⟨_, rfl⟩⟩
  | succ depth =>
    refine ⟨?_, ⟨_, rfl⟩⟩
    rw [items_succ]
    cases depth <;> exact ⟨_, rfl⟩

/-- Characters are read as they are with the blank behind them, where either bound is beyond what they
could reach. -/
def TrailsWithin (blank : Char) (extra : Nat) (read : Nat → List Char → Except Fault (α × List Char))
    (depth : Nat) : Prop :=
  ∀ (cs : List Char) (depth' : Nat), 2 * cs.length + extra ≤ depth → 2 * cs.length + extra + 2 ≤ depth' →
    Trails blank cs.length (read depth cs) (read depth' (cs ++ [blank]))

variable {depth : Nat}

theorem value_trails (hblank : isSpace blank) (hitems : TrailsWithin blank 2 items depth)
    (hfields : TrailsWithin blank 2 fields depth) : TrailsWithin blank 1 value (depth + 1) := by
  intro cs depth' hdepth hdepth'
  obtain ⟨depth', rfl⟩ : ∃ n, depth' = n + 1 := Nat.exists_eq_add_one.2 (by omega)
  obtain ⟨hskip, hskip'⟩ | ⟨c, rest, hskip, hskip', hle⟩ := skipSpace_cases hblank cs
  · rw [value, value, hskip, hskip']
    exact .fault _ _
  by_cases hc : BeginsNumber c
  · rw [value_of_beginsNumber depth hc hskip, value_of_beginsNumber depth' hc hskip']
    exact (number_trails hblank (c :: rest)).mono hle
  rcases cases_of_not_beginsNumber hc with rfl | rfl | rfl | rfl | rfl | rfl
  · rw [value, value, hskip, hskip']
    exact ((pieces_trails hblank rest).mono (by omega)).map
  · rw [value, value, hskip, hskip']
    exact (word_trails hblank (by decide) .null ('n' :: rest)).mono hle
  · rw [value, value, hskip, hskip']
    exact (word_trails hblank (by decide) (.bool true) ('t' :: rest)).mono hle
  · rw [value, value, hskip, hskip']
    exact (word_trails hblank (by decide) (.bool false) ('f' :: rest)).mono hle
  · rw [value_list_of_skipSpace depth hskip, value_list_of_skipSpace depth' hskip']
    obtain ⟨e, he⟩ := (exists_nested_nil_eq_error depth).1
    obtain ⟨e', he'⟩ := (exists_nested_nil_eq_error depth').1
    refine enclosed_trails hblank ']' _ rest (by omega) ⟨e, by rw [he]; rfl⟩ ⟨e', by rw [he']; rfl⟩ ?_
    intro inner hinner
    exact ((hitems inner depth' (by omega) (by omega)).mono (by omega)).map
  · rw [value_record_of_skipSpace depth hskip, value_record_of_skipSpace depth' hskip']
    obtain ⟨e, he⟩ := (exists_nested_nil_eq_error depth).2
    obtain ⟨e', he'⟩ := (exists_nested_nil_eq_error depth').2
    refine enclosed_trails hblank '\x7d' _ rest (by omega) ⟨e, by rw [he]; rfl⟩ ⟨e', by rw [he']; rfl⟩ ?_
    intro inner hinner
    exact ((hfields inner depth' (by omega) (by omega)).mono (by omega)).map

theorem items_trails (hblank : isSpace blank) (hvalue : TrailsWithin blank 1 value depth)
    (hitems : TrailsWithin blank 2 items depth) : TrailsWithin blank 2 items (depth + 1) := by
  intro cs depth' hdepth hdepth'
  obtain ⟨depth', rfl⟩ : ∃ n, depth' = n + 1 := Nat.exists_eq_add_one.2 (by omega)
  rw [items_succ, items_succ]
  refine (hvalue cs depth' (by omega) (by omega)).bind fun d rest hrest => ?_
  refine behind_trails hblank ']' d hrest fun more hmore => ?_
  exact (hitems more depth' (by omega) (by omega)).mono (by omega)

theorem fields_trails (hblank : isSpace blank) (hvalue : TrailsWithin blank 1 value depth)
    (hfields : TrailsWithin blank 2 fields depth) : TrailsWithin blank 2 fields (depth + 1) := by
  intro cs depth' hdepth hdepth'
  obtain ⟨depth', rfl⟩ : ∃ n, depth' = n + 1 := Nat.exists_eq_add_one.2 (by omega)
  rw [fields_succ, fields_succ]
  refine expect_trails hblank '"' cs fun inner hinner => ?_
  refine ((pieces_trails hblank inner).mono (by omega)).bind fun key rest hrest => ?_
  refine expect_trails hblank ':' rest fun field hfield => ?_
  refine ((hvalue field depth' (by omega) (by omega)).mono (by omega)).bind fun d left hleft => ?_
  refine behind_trails hblank '\x7d' _ hleft fun more hmore => ?_
  exact (hfields more depth' (by omega) (by omega)).mono (by omega)

/-- Values, items and fields at every bound, by induction on it. -/
theorem trailsWithin (hblank : isSpace blank) (depth : Nat) : TrailsWithin blank 1 value depth ∧
    TrailsWithin blank 2 items depth ∧ TrailsWithin blank 2 fields depth := by
  induction depth with
  | zero => exact ⟨fun _ _ h => by omega, fun _ _ h => by omega, fun _ _ h => by omega⟩
  | succ depth ih =>
    obtain ⟨hvalue, hitems, hfields⟩ := ih
    exact ⟨value_trails hblank hitems hfields, items_trails hblank hvalue hitems,
      fields_trails hblank hvalue hfields⟩

theorem read_append_space (hblank : isSpace blank) (s : String) :
    (read (s ++ blank.toString)).toOption = (read s).toOption := by
  have hlength : (s.toList ++ [blank]).length = s.toList.length + 1 := List.length_append
  have hvalue := (trailsWithin hblank (2 * s.toList.length + 2)).1 s.toList
    (2 * (s.toList ++ [blank]).length + 2) (by omega) (by rw [hlength]; omega)
  have hlist : (s ++ blank.toString).toList = s.toList ++ [blank] := by simp
  rw [read, read, hlist]
  dsimp only
  cases hread : value (2 * s.toList.length + 2) s.toList with
  | error e =>
    rw [hread] at hvalue
    obtain ⟨e', he'⟩ := hvalue
    rw [he']
    rfl
  | ok r =>
    obtain ⟨d, rest⟩ := r
    rw [hread] at hvalue
    rw [hvalue.2]
    show (if (skipSpace (rest ++ [blank])).isEmpty then Except.ok d else .error Fault.misplaced).toOption =
      (if (skipSpace rest).isEmpty then Except.ok d else .error Fault.misplaced).toOption
    obtain ⟨hskip, hskip'⟩ | ⟨c, left, hskip, hskip', -⟩ := skipSpace_cases hblank rest
    · rw [hskip, hskip']
    · rw [hskip, hskip']
      rfl

theorem beginsNumber_of_isBlank {c : Char} (h : Text.isBlank c) : BeginsNumber c := by
  intro hc
  simp only [List.mem_cons, List.not_mem_nil, or_false] at hc
  rcases hc with rfl | rfl | rfl | rfl | rfl | rfl <;> exact absurd h (by decide)

/-- There is no number in front of which a character is blank. -/
theorem exists_number_eq_error {c : Char} (h : Text.isBlank c) (rest : List Char) :
    ∃ e, number (c :: rest) = .error e := by
  have hne : ∀ d : Char, Text.isBlank d = false → c ≠ d := by
    rintro d hd rfl
    rw [hd] at h
    cases h
  have hdigit : c.isDigit = false := by
    by_contra hdigit
    simp only [Char.isDigit, Bool.not_eq_false, Bool.and_eq_true, decide_eq_true_eq] at hdigit
    have hlow : 48 ≤ c.toNat := hdigit.1
    have hhigh : c.toNat ≤ 57 := hdigit.2
    simp [Text.isBlank] at h
    omega
  have hwhole : wholePart (c :: rest) = .error (faultAt (c :: rest)) := by
    rw [wholePart, digits, List.takeWhile_cons_of_neg (by simp [hdigit])]
    exact fun _ heq => hne '0' (by decide) (List.cons.inj heq).1
  have hminus : (c :: rest).head? ≠ some '-' := fun heq => hne '-' (by decide) (Option.some.inj heq)
  rw [number_of_ne hminus, unsigned, hwhole]
  exact ⟨_, rfl⟩

theorem exists_value_eq_error {cs : List Char} (h : ∀ c ∈ cs, Text.isBlank c) (depth : Nat) :
    ∃ e, value depth cs = .error e := by
  cases depth with
  | zero => exact ⟨_, rfl⟩
  | succ depth =>
    cases hskip : skipSpace cs with
    | nil =>
      rw [value, hskip]
      exact ⟨_, rfl⟩
    | cons c rest =>
      have hmem : c ∈ skipSpace cs := by simp [hskip]
      have hc : Text.isBlank c := h c ((List.dropWhile_sublist _).subset hmem)
      rw [value_of_beginsNumber depth (beginsNumber_of_isBlank hc) hskip]
      exact exists_number_eq_error hc rest

end Json

/-- **A text in JSON says the same with white space behind it**, and is none with it if it is none without. -/
theorem ofJson?_append_space {blank : Char} (hblank : Json.isSpace blank) (s : String) :
    ofJson? (s ++ blank.toString) = ofJson? s :=
  Json.read_append_space hblank s

/-- A blank text is none in JSON, be it one of the four blanks that JSON skips or another. -/
theorem ofJson?_of_isBlankText {s : String} (h : Text.isBlankText s) : ofJson? s = none := by
  obtain ⟨e, he⟩ := Json.exists_value_eq_error (List.all_eq_true.1 h) (2 * s.toList.length + 2)
  rw [ofJson?, Json.read]
  dsimp only
  rw [he]
  rfl

end EventWorker.Document
