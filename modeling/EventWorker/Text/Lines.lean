/-!
# Lines

The lines of a text. A line ends at a line feed, or at a carriage return followed by one; the last
line need not end, and then keeps a carriage return at its end. Nothing follows a final line feed.

Bytes that come in bit by bit are cut at line feeds alone: `cutLines` gives the lines that have ended
and the piece that has not, and `firstLine?` takes off one line at a time.
-/

namespace EventWorker.Text

def dropFinalReturn (cs : List Char) : List Char :=
  if cs.getLast? = some '\r' then cs.dropLast else cs

/-- The lines of `rest`, the first of which has begun with `line` (last character first). -/
def linesAfter (line : List Char) : (rest : List Char) → List (List Char)
  | [] => if line.isEmpty then [] else [line.reverse]
  | '\n' :: cs => dropFinalReturn line.reverse :: linesAfter [] cs
  | c :: cs => linesAfter (c :: line) cs

def lines (s : String) : List String :=
  (linesAfter [] s.toList).map String.ofList

/-- Puts a byte in front of the first line. -/
def pushByte (b : UInt8) : List (List UInt8) × List UInt8 → List (List UInt8) × List UInt8
  | ([], tail) => ([], b :: tail)
  | (line :: lines, tail) => ((b :: line) :: lines, tail)

/-- The lines that have ended, without their line feeds, and what comes after the last of them. -/
def cutLines : List UInt8 → List (List UInt8) × List UInt8
  | [] => ([], [])
  | b :: bs =>
    if b = 10 then
      let (lines, tail) := cutLines bs
      ([] :: lines, tail)
    else pushByte b (cutLines bs)

/-- The first line with its line feed, if it has ended, and what comes after it. -/
def firstLine? : List UInt8 → Option (List UInt8 × List UInt8)
  | [] => none
  | b :: bs =>
    if b = 10 then some ([b], bs)
    else (firstLine? bs).map fun (line, rest) => (b :: line, rest)

theorem firstLine?_eq_none_iff {bs : List UInt8} : firstLine? bs = none ↔ 10 ∉ bs := by
  induction bs with
  | nil => simp [firstLine?]
  | cons b bs ih =>
    rw [firstLine?]
    by_cases hb : b = 10
    · simp [hb]
    · rw [if_neg hb, Option.map_eq_none_iff, ih, List.mem_cons, not_or]
      exact ⟨fun h => ⟨Ne.symm hb, h⟩, fun h => h.2⟩

/-- The first line goes up to the first line feed. -/
theorem eq_append_of_firstLine? {bs line rest : List UInt8} (h : firstLine? bs = some (line, rest)) :
    ∃ l, 10 ∉ l ∧ line = l ++ [10] ∧ bs = l ++ 10 :: rest := by
  induction bs generalizing line with
  | nil => cases h
  | cons b bs ih =>
    rw [firstLine?] at h
    by_cases hb : b = 10
    · rw [if_pos hb] at h
      obtain ⟨rfl, rfl⟩ := Prod.mk.inj (Option.some.inj h)
      exact ⟨[], List.not_mem_nil, by rw [hb]; rfl, by rw [hb]; rfl⟩
    · rw [if_neg hb] at h
      obtain ⟨⟨line', rest'⟩, hfirst, heq⟩ := Option.map_eq_some_iff.1 h
      obtain ⟨rfl, rfl⟩ := Prod.mk.inj heq
      obtain ⟨l, hl, rfl, rfl⟩ := ih hfirst
      refine ⟨b :: l, ?_, rfl, rfl⟩
      rw [List.mem_cons, not_or]
      exact ⟨Ne.symm hb, hl⟩

/-- A line takes something off. -/
theorem length_lt_of_firstLine? {bs line rest : List UInt8} (h : firstLine? bs = some (line, rest)) :
    rest.length < bs.length := by
  obtain ⟨l, -, -, rfl⟩ := eq_append_of_firstLine? h
  simp only [List.length_append, List.length_cons]
  omega

end EventWorker.Text
