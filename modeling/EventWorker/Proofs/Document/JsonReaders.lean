import EventWorker.Document.Json

/-!
# The readers of lists and records

The readers of nested values go on by what comes next: a character that has to be there (`expect`), a comma
with more items or the end of them (`behind`), a closing bracket or what stands before it (`enclosed`). Here
they are put together from these three, so that what is shown of each of the three holds of all of them.

A value is told by its first character. Any other than the six that a string, a word, a list or a record
begins with is left to a number (`value_of_beginsNumber`).
-/

namespace EventWorker.Document.Json

variable {α : Type}

/-- A character that has to come next, and what is read after it. -/
def expect (c : Char) (next : List Char → Except Fault (α × List Char)) :
    List Char → Except Fault (α × List Char)
  | [] => .error (faultAt [])
  | d :: rest => if d = c then next rest else .error (faultAt (d :: rest))

/-- What stands behind an item: a comma with more items, or the end of all of them. -/
def behind (close : Char) (a : α) (more : List Char → Except Fault (List α × List Char)) :
    List Char → Except Fault (List α × List Char)
  | [] => .error (faultAt [])
  | c :: rest =>
    if c = ',' then do
      let (as, rest) ← more rest
      return (a :: as, rest)
    else if c = close then .ok ([a], rest)
    else .error (faultAt (c :: rest))

/-- What goes on with more items behind a comma, ends at the closing bracket and fails at anything else. -/
theorem eq_behind {close : Char} {a : α} {more f : List Char → Except Fault (List α × List Char)}
    (hcomma : ∀ rest, f (',' :: rest) = (do
      let (as, rest) ← more rest
      return (a :: as, rest)))
    (hclose : ∀ rest, f (close :: rest) = .ok ([a], rest))
    (hother : ∀ cs, cs.head? ≠ some ',' → cs.head? ≠ some close → f cs = .error (faultAt cs))
    (cs : List Char) : f cs = behind close a more cs := by
  rcases cs with _ | ⟨c, rest⟩
  · exact hother [] (Option.some_ne_none _).symm (Option.some_ne_none _).symm
  rw [behind]
  by_cases hc : c = ','
  · rw [if_pos hc, hc, hcomma]
  rw [if_neg hc]
  by_cases hc' : c = close
  · rw [if_pos hc', hc', hclose]
  · rw [if_neg hc', hother (c :: rest) (by simpa using hc) (by simpa using hc')]

/-- What stands between brackets: nothing, or what a reader makes of it. -/
def enclosed (close : Char) (empty : α) (read : List Char → Except Fault (α × List Char)) :
    List Char → Except Fault (α × List Char)
  | [] => read []
  | c :: rest => if c = close then .ok (empty, rest) else read (c :: rest)

theorem eq_enclosed {close : Char} {empty : α} {read f : List Char → Except Fault (α × List Char)}
    (hclose : ∀ rest, f (close :: rest) = .ok (empty, rest))
    (hread : ∀ cs, cs.head? ≠ some close → f cs = read cs) (cs : List Char) :
    f cs = enclosed close empty read cs := by
  rcases cs with _ | ⟨c, rest⟩
  · exact hread [] (Option.some_ne_none _).symm
  rw [enclosed]
  by_cases hc : c = close
  · rw [if_pos hc, hc, hclose]
  · rw [if_neg hc, hread (c :: rest) (by simpa using hc)]

/-! ### Lists -/

theorem items_succ (depth : Nat) (cs : List Char) : items (depth + 1) cs = (do
    let (d, rest) ← value depth cs
    behind ']' d (items depth) (skipSpace rest)) := by
  rw [items]
  congr 1
  funext ⟨d, rest⟩
  dsimp only
  generalize skipSpace rest = left
  revert left
  refine eq_behind ?_ ?_ ?_
  · intro rest
    rfl
  · intro rest
    rfl
  intro cs hcomma hclose
  split
  · exact absurd rfl hcomma
  · exact absurd rfl hclose
  · rfl

theorem value_list_of_skipSpace (depth : Nat) {cs rest : List Char} (hskip : skipSpace cs = '[' :: rest) :
    value (depth + 1) cs = enclosed ']' (.list []) (fun inner => do
      let (ds, rest) ← items depth inner
      return (.list ds, rest)) (skipSpace rest) := by
  rw [value]
  simp only [hskip]
  generalize skipSpace rest = inner
  revert inner
  refine eq_enclosed ?_ ?_
  · intro rest
    rfl
  intro cs hclose
  split
  · exact absurd rfl hclose
  · rfl

/-! ### Records -/

/-- What stands behind the key of a field. -/
def afterKey (depth : Nat) (key : Document) :
    List Char → Except Fault (List (Document × Document) × List Char) :=
  expect ':' fun rest => do
    let (d, rest) ← value depth rest
    behind '\x7d' (key, d) (fields depth) (skipSpace rest)

theorem afterKey_eq (depth : Nat) (key : Document) (cs : List Char) : afterKey depth key cs =
    match cs with
    | ':' :: rest => do
      let (d, rest) ← value depth rest
      match skipSpace rest with
      | ',' :: rest => do
        let (fs, rest) ← fields depth rest
        return ((key, d) :: fs, rest)
      | '\x7d' :: rest => return ([(key, d)], rest)
      | rest => .error (faultAt rest)
    | rest => .error (faultAt rest) := by
  rcases cs with _ | ⟨c, rest⟩
  · rfl
  by_cases hcolon : c = ':'
  · subst hcolon
    rw [afterKey, expect, if_pos rfl]
    show (value depth rest >>= _) = value depth rest >>= _
    congr 1
    funext ⟨d, rest⟩
    dsimp only
    symm
    generalize skipSpace rest = left
    revert left
    refine eq_behind ?_ ?_ ?_
    · intro rest
      rfl
    · intro rest
      rfl
    intro cs hcomma hclose
    split
    · exact absurd rfl hcomma
    · exact absurd rfl hclose
    · rfl
  · rw [afterKey, expect, if_neg hcolon]
    split
    · next h => exact absurd (List.cons.inj h).1 hcolon
    · rfl

theorem fields_succ (depth : Nat) (cs : List Char) : fields (depth + 1) cs =
    expect '"' (fun rest => do
      let (key, rest) ← pieces rest
      afterKey depth (stringOf key) (skipSpace rest)) (skipSpace cs) := by
  rw [fields]
  rcases skipSpace cs with _ | ⟨c, rest⟩
  · rfl
  by_cases hquote : c = '"'
  · subst hquote
    rw [expect, if_pos rfl]
    show (pieces rest >>= _) = pieces rest >>= _
    congr 1
    funext ⟨key, rest⟩
    exact (afterKey_eq depth (stringOf key) (skipSpace rest)).symm
  · rw [expect, if_neg hquote]
    split
    · next h => exact absurd (List.cons.inj h).1 hquote
    · rfl

theorem value_record_of_skipSpace (depth : Nat) {cs rest : List Char}
    (hskip : skipSpace cs = '\x7b' :: rest) :
    value (depth + 1) cs = enclosed '\x7d' (.record []) (fun inner => do
      let (fs, rest) ← fields depth inner
      return (.record fs, rest)) (skipSpace rest) := by
  rw [value]
  simp only [hskip]
  generalize skipSpace rest = inner
  revert inner
  refine eq_enclosed ?_ ?_
  · intro rest
    rfl
  intro cs hclose
  split
  · exact absurd rfl hclose
  · rfl

/-! ### Numbers -/

/-- A character that no value but a number begins with. -/
def BeginsNumber (c : Char) : Prop :=
  c ∉ ['"', 'n', 't', 'f', '[', '\x7b']

theorem cases_of_not_beginsNumber {c : Char} (h : ¬ BeginsNumber c) :
    c = '"' ∨ c = 'n' ∨ c = 't' ∨ c = 'f' ∨ c = '[' ∨ c = '\x7b' := by
  have hmem : c ∈ ['"', 'n', 't', 'f', '[', '\x7b'] := Classical.not_not.1 h
  simpa using hmem

theorem value_of_beginsNumber (depth : Nat) {c : Char} (hc : BeginsNumber c) {cs rest : List Char}
    (hskip : skipSpace cs = c :: rest) : value (depth + 1) cs = number (c :: rest) := by
  have hne : ∀ d ∈ ['"', 'n', 't', 'f', '[', '\x7b'], ∀ rest', c :: rest ≠ d :: rest' := by
    rintro d hd rest' heq
    obtain rfl := (List.cons.inj heq).1
    exact hc hd
  rw [value, hskip]
  split
  all_goals first
    | rfl
    | next h => exact absurd h (hne _ (by decide) _)

end EventWorker.Document.Json
