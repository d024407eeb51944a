import EventWorker.Document.Yaml.Cursor

/-!
# YAML scalars

The four ways to write a text: plain, between single quotes, between double quotes, and as a block.
Line breaks inside the first three are folded: a single one becomes a space, and of several all but
the first stay. Each reader takes the place where the scalar begins and gives its characters with the
place behind it, or nothing where the scalar is at fault. A reader's bound is the number of
characters left, since every step passes over one.
-/

namespace EventWorker.Document.Yaml

/-- What stands between two words of a scalar. -/
structure Gap where
  spaces : List Char := []
  /-- The first line break, once there is one. -/
  first : Option (List Char) := none
  others : List Char := []

namespace Gap

/-- What line breaks become when they are folded. -/
def fold (first others : List Char) : List Char :=
  if first = ['\n'] then (if others.isEmpty then [' '] else others) else first ++ others

def text (g : Gap) : List Char :=
  match g.first with
  | some b => fold b g.others
  | none => g.spaces

/-- Reads spaces and line breaks. Once a line is broken no tab may stand left of `indent`. -/
def read (indent : Nat) : (bound : Nat) → Gap → Cursor → Option (Gap × Cursor)
  | 0, g, c => some (g, c)
  | bound + 1, g, c =>
    match c.rest with
    | [] => some (g, c)
    | ch :: _ =>
      if isSpaceOrTab ch then
        if g.first.isSome then
          if ch = '\t' && c.column < indent then none else read indent bound g (c.skip 1)
        else read indent bound { g with spaces := g.spaces ++ [ch] } (c.skip 1)
      else if isLineBreak ch then
        let (b, c) := c.takeBreak
        match g.first with
        | some _ => read indent bound { g with others := g.others ++ b } c
        | none => read indent bound { g with spaces := [], first := some b } c
      else some (g, c)

end Gap

/-! ## Plain scalars -/

def isFlowMark (c : Char) : Bool :=
  [',', '[', ']', '\x7b', '\x7d'].contains c

/-- A word of a plain scalar, up to a space, a line break or an indicator. -/
def plainWord? (inFlow : Bool) : List Char → Option (List Char)
  | [] => some []
  | c :: cs =>
    if endsWord (c :: cs) then some []
    else if inFlow && c = ':' && (match cs with | d :: _ => isFlowMark d || d = '?' | [] => false) then
      none
    else if (c = ':' && endsWord cs) || (inFlow && isFlowMark c) then some []
    else (plainWord? inFlow cs).map (c :: ·)

/-- What has been read of a scalar, with the place behind it. -/
structure Scalar where
  text : List Char
  /-- The scalar was followed by a line break that has been passed over. -/
  brokeLine : Bool := false
  next : Cursor

/-- Reads on in a plain scalar that has to stay right of `indent` where it is not in a flow
collection. -/
def plainScalar? (inFlow : Bool) (indent : Nat) :
    (bound : Nat) → (found : List Char) → Gap → Cursor → Option Scalar
  | 0, _, _, _ => none
  | bound + 1, found, gap, c =>
    let done : Option Scalar := some ⟨found, gap.first.isSome, c⟩
    if c.atDocumentMark || c.startsWith (· = '#') then done
    else do
      let word ← plainWord? inFlow c.rest
      let (found, gap) := if word.isEmpty then (found, gap) else (found ++ gap.text ++ word, {})
      let c := c.skip word.length
      if c.startsWith fun ch => isSpaceOrTab ch || isLineBreak ch then
        let (gap, c) ← Gap.read indent (c.rest.length + 1) gap c
        if !inFlow && c.column < indent then some ⟨found, gap.first.isSome, c⟩
        else plainScalar? inFlow indent bound found gap c
      else some ⟨found, gap.first.isSome, c⟩

/-! ## Quoted scalars -/

def hexValue? (c : Char) : Option Nat :=
  if '0' ≤ c ∧ c ≤ '9' then some (c.toNat - 48)
  else if 'a' ≤ c ∧ c ≤ 'f' then some (c.toNat - 87)
  else if 'A' ≤ c ∧ c ≤ 'F' then some (c.toNat - 55)
  else none

/-- The character of the given number of hexadecimal digits. -/
def hexChar? (digits : Nat) (cs : List Char) : Option Char := do
  if cs.length < digits then none
  else
    let n ← (cs.take digits).foldlM (fun n c => (hexValue? c).map (n * 16 + ·)) 0
    if n.isValidChar then some (Char.ofNat n) else none

/-- The character that an escape stands for, with the number of characters it is written in after
the backslash. -/
def escape? : List Char → Option (Char × Nat)
  | [] => none
  | c :: cs =>
    let one (n : Nat) : Option (Char × Nat) := some (Char.ofNat n, 1)
    match c with
    | '0' => one 0
    | 'a' => one 7
    | 'b' => one 8
    | 't' => one 9
    | '\t' => one 9
    | 'n' => one 10
    | 'v' => one 11
    | 'f' => one 12
    | 'r' => one 13
    | 'e' => one 0x1B
    | ' ' => one 0x20
    | '"' => one 0x22
    | '/' => one 0x2F
    | '\\' => one 0x5C
    | 'N' => one 0x85
    | '_' => one 0xA0
    | 'L' => one 0x2028
    | 'P' => one 0x2029
    | 'x' => (hexChar? 2 cs).map (·, 3)
    | 'u' => (hexChar? 4 cs).map (·, 5)
    | 'U' => (hexChar? 8 cs).map (·, 9)
    | _ => none

/-- A word of a quoted scalar, up to a space, a line break or the closing quote. The flag says that
the word ends in a backslash that takes the line break away. -/
def quotedWord? (double : Bool) : (bound : Nat) → (word : List Char) → Cursor →
    Option (List Char × Bool × Cursor)
  | 0, _, _ => none
  | bound + 1, word, c =>
    match c.rest with
    | [] => some (word, false, c)
    | ch :: cs =>
      if endsWord c.rest then some (word, false, c)
      else if double then
        if ch = '"' then some (word, false, c)
        else if ch = '\\' then
          if (match cs with | d :: _ => isLineBreak d | [] => false) then
            some (word, true, (c.skip 1).skipBreak)
          else do
            let (here, n) ← escape? cs
            quotedWord? double bound (word ++ [here]) (c.skip (n + 1))
        else quotedWord? double bound (word ++ [ch]) (c.skip 1)
      else
        match ch, cs with
        | '\'', '\'' :: _ => quotedWord? double bound (word ++ ['\'']) (c.skip 2)
        | '\'', _ => some (word, false, c)
        | _, _ => quotedWord? double bound (word ++ [ch]) (c.skip 1)

/-- Reads on in a quoted scalar from behind its opening quote. -/
def quotedScalar? (double : Bool) : (bound : Nat) → (found : List Char) → Cursor → Option Scalar
  | 0, _, _ => none
  | bound + 1, found, c =>
    if c.atDocumentMark then none
    else do
      let (word, brokeLine, c) ← quotedWord? double (c.rest.length + 1) [] c
      let found := found ++ word
      if c.startsWith fun ch => ch = (if double then '"' else '\'') then
        some { text := found, next := c.skip 1 }
      else if c.rest.isEmpty then none
      else
        let (gap, c) ← Gap.read 0 (c.rest.length + 1) { first := if brokeLine then some [] else none } c
        quotedScalar? double bound (found ++ gap.text) c

/-! ## Block scalars -/

/-- What becomes of the line breaks at the end of a block. -/
inductive Chomping where
  | strip
  | clip
  | keep
  deriving DecidableEq

def chomping? : Char → Option Chomping
  | '-' => some .strip
  | '+' => some .keep
  | _ => none

/-- The signs behind the indicator of a block: how to end it, and how far it is indented. -/
def blockHeader? (cs : List Char) : Option (Chomping × Option Nat × Nat) :=
  let digit? (c : Char) : Option Nat := if c.isDigit then some (c.toNat - 48) else none
  let checked (chomping : Chomping) (n used : Nat) : Option (Chomping × Option Nat × Nat) :=
    if n = 0 then none else some (chomping, some n, used)
  match cs with
  | [] => some (.clip, none, 0)
  | a :: cs =>
    match chomping? a, digit? a with
    | some chomping, _ =>
      match cs.head?.bind digit? with
      | some n => checked chomping n 2
      | none => some (chomping, none, 1)
    | none, some n =>
      match cs.head?.bind chomping? with
      | some chomping => checked chomping n 2
      | none => checked .clip n 1
    | none, none => some (.clip, none, 0)

/-- Reads the empty lines before a line of a block, and the indentation of that line. With no
indentation given (`none`) every space counts, and the widest one is found. -/
def blockBreaks? (indent : Option Nat) : (bound widest : Nat) → (breaks : List Char) → Cursor →
    Option (Nat × List Char × Cursor)
  | 0, widest, breaks, c => some (widest, breaks, c)
  | bound + 1, widest, breaks, c =>
    let room := match indent with
      | some n => n - c.column
      | none => c.rest.length
    let c := c.skip ((c.rest.take room).takeWhile (· = ' ')).length
    let widest := max widest c.column
    let short := match indent with
      | some n => decide (c.column < n)
      | none => true
    if short && c.startsWith (· = '\t') then none
    else if c.startsWith isLineBreak then
      let (b, c) := c.takeBreak
      blockBreaks? indent bound widest (breaks ++ b) c
    else some (widest, breaks, c)

/-- The lines of a block read so far. -/
structure Lines where
  text : List Char := []
  /-- The break behind the last line. -/
  last : List Char := []
  /-- The empty lines behind it. -/
  empty : List Char := []
  /-- The last line began with a space or tab. -/
  indented : Bool := false

/-- Adds a line; in a folded block the break before it may become a space. -/
def Lines.add (literal : Bool) (l : Lines) (line : List Char) : Lines :=
  let indented := match line with
    | c :: _ => isSpaceOrTab c
    | [] => false
  let joined := !literal && l.last = ['\n'] && !l.indented && !indented
  let lead := if joined then (if l.empty.isEmpty then [' '] else []) else l.last
  { text := l.text ++ lead ++ l.empty ++ line, indented }

def blockLines? (literal : Bool) (indent : Nat) : (bound : Nat) → Lines → Cursor →
    Option (Lines × Cursor)
  | 0, l, c => some (l, c)
  | bound + 1, l, c =>
    if c.column != indent || c.rest.isEmpty then some (l, c)
    else do
      let line := c.rest.takeWhile fun ch => !isLineBreak ch
      let (last, c) := (c.skip line.length).takeBreak
      let (_, empty, c) ← blockBreaks? (some indent) (c.rest.length + 1) 0 [] c
      blockLines? literal indent bound { l.add literal line with last, empty } c

/-- Reads a block from behind its indicator, inside a collection indented by `parent`. -/
def blockScalar? (literal : Bool) (parent : Int) (c : Cursor) : Option Scalar := do
  let (chomping, increment, used) ← blockHeader? c.rest
  let c := (c.skip used).skipWhile isSpaceOrTab
  let c := if c.startsWith (· = '#') then c.skipToLineEnd else c
  if !(c.rest.isEmpty || c.startsWith isLineBreak) then none
  else
    let c := c.skipBreak
    let given := increment.map fun n => parent.toNat + n
    let (widest, empty, c) ← blockBreaks? given (c.rest.length + 1) 0 [] c
    let indent := given.getD (max (max widest (parent + 1).toNat) 1)
    let (l, c) ← blockLines? literal indent (c.rest.length + 1) { empty } c
    let found := match chomping with
      | .strip => l.text
      | .clip => l.text ++ l.last
      | .keep => l.text ++ l.last ++ l.empty
    some { text := found, next := c }

end EventWorker.Document.Yaml
