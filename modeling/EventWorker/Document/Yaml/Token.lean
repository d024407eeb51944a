import EventWorker.Document.Yaml.Scalar

/-!
# YAML tokens

The marks, names and scalars that a YAML text consists of. Indentation is among them: a block
collection begins where the text moves to the right and ends where it moves back.

Whether a scalar is a key is known only when a colon follows it, so a key token is put in afterwards,
in front of a scalar that could be one (`Candidate`). A candidate has to be on the line of its colon
and within 1024 characters of it; one that stands at the indentation of its mapping cannot be
anything but a key.

Tokens are read until the end of the text or the first fault, which is a token too.
-/

namespace EventWorker.Document.Yaml

inductive Token where
  | version (major minor : Nat)
  | tagShort (handle stem : String)
  | documentStart
  | documentEnd
  | blockList
  | blockRecord
  | blockEnd
  | flowList
  | flowListEnd
  | flowRecord
  | flowRecordEnd
  | comma
  | item
  | key
  | value
  | alias (name : String)
  | anchor (name : String)
  | tag (handle stem : String)
  | scalar (isPlain : Bool) (text : String)
  | fault
  | textEnd
  deriving DecidableEq

/-- A token that is a key if a colon follows. -/
structure Candidate where
  /-- The number of tokens before it. -/
  place : Nat
  /-- It cannot be anything else. -/
  sure : Bool
  start : Cursor

structure Lexer where
  cursor : Cursor
  tokens : Array Token := #[]
  /-- The column of the innermost block collection, -1 outside of any. -/
  indent : Int := -1
  outer : List Int := []
  /-- For each open flow collection, and last for the block around them, what may be a key. -/
  candidates : List (Option Candidate) := [none]
  /-- A key may begin here. -/
  keyAllowed : Bool := true

namespace Lexer

def inFlow (l : Lexer) : Bool :=
  l.candidates.length > 1

def push (t : Token) (l : Lexer) : Lexer :=
  { l with tokens := l.tokens.push t }

def column (l : Lexer) : Nat :=
  l.cursor.column

def skip (n : Nat) (l : Lexer) : Lexer :=
  { l with cursor := l.cursor.skip n }

def allowKey (b : Bool) (l : Lexer) : Lexer :=
  { l with keyAllowed := b }

/-- Passes over blanks, comments and line breaks. A tab may not indent what could be a key. -/
def skipBlanks (inFlow : Bool) : (bound : Nat) → (keyAllowed : Bool) → Cursor → Bool × Cursor
  | 0, keyAllowed, c => (keyAllowed, c)
  | bound + 1, keyAllowed, c =>
    let c := c.skipWhile fun ch => ch = ' ' || ((inFlow || !keyAllowed) && ch = '\t')
    let c := if c.startsWith (· = '#') then c.skipToLineEnd else c
    if c.startsWith isLineBreak then skipBlanks inFlow bound (keyAllowed || !inFlow) c.skipBreak
    else (keyAllowed, c)

/-- Gives up candidates that the text has moved away from; none of them may have been sure. -/
def dropStale (l : Lexer) : Option Lexer := do
  let candidates ← l.candidates.mapM fun
    | some k =>
      if k.start.line < l.cursor.line || k.start.index + 1024 < l.cursor.index then
        if k.sure then none else some none
      else some (some k)
    | none => some none
  some { l with candidates }

/-- Gives up the innermost candidate. -/
def dropCandidate (l : Lexer) : Option Lexer :=
  match l.candidates with
  | some k :: ks => if k.sure then none else some { l with candidates := none :: ks }
  | _ => some l

/-- Notes the token to come as a candidate. -/
def noteCandidate (l : Lexer) : Option Lexer :=
  if !l.keyAllowed then some l
  else do
    let sure := !l.inFlow && l.indent == (l.column : Int)
    let l ← l.dropCandidate
    some { l with candidates := some ⟨l.tokens.size, sure, l.cursor⟩ :: l.candidates.drop 1 }

/-- Ends the block collections right of the column. -/
def unindent (column : Int) (l : Lexer) : Lexer :=
  if l.inFlow then l
  else
    let rec close (indent : Int) (tokens : Array Token) : List Int → Lexer
      | [] => { l with indent, outer := [], tokens }
      | i :: is =>
        if indent > column then close i (tokens.push .blockEnd) is
        else { l with indent, outer := i :: is, tokens }
    close l.indent l.tokens l.outer

/-- Begins a block collection if the column is right of the innermost one. -/
def indentTo (column : Nat) (place : Option Nat) (t : Token) (l : Lexer) : Lexer :=
  if l.inFlow || l.indent ≥ (column : Int) then l
  else
    { l with
      indent := column
      outer := l.indent :: l.outer
      tokens := match place with
        | some n => l.tokens.insertIdxIfInBounds n t
        | none => l.tokens.push t }

/-! ## Names, tags and directives -/

def isNameChar (c : Char) : Bool :=
  c.isAlphanum || c = '_' || c = '-'

/-- An anchor's name, from behind its indicator. -/
def name? (c : Cursor) : Option (String × Cursor) :=
  let cs := c.rest.takeWhile isNameChar
  let c := c.skip cs.length
  let ends := endsWord c.rest || c.startsWith ['?', ':', ',', ']', '\x7d', '%', '@', Char.ofNat 96].contains
  if cs.isEmpty || !ends then none else some (String.ofList cs, c)

/-- Characters that a tag may be written with; between angle brackets there are three more. -/
def isTagChar (bracketed : Bool) (c : Char) : Bool :=
  isNameChar c || ";/?:@&=+$.!~*'()".toList.contains c ||
    (bracketed && [',', '[', ']'].contains c)

/-- The characters of a tag, where a percent sign writes a character of ASCII by its number. -/
def tagChars? (bracketed : Bool) : (bound : Nat) → List Char → Cursor → Option (List Char × Cursor)
  | 0, cs, c => some (cs, c)
  | bound + 1, cs, c =>
    match c.rest with
    | '%' :: rest => do
      let ch ← hexChar? 2 rest
      if ch.toNat < 0x80 then tagChars? bracketed bound (cs ++ [ch]) (c.skip 3) else none
    | ch :: _ =>
      if isTagChar bracketed ch then tagChars? bracketed bound (cs ++ [ch]) (c.skip 1)
      else some (cs, c)
    | [] => some (cs, c)

/-- A tag's handle: one exclamation mark, or a name between two. -/
def handle? (c : Cursor) : Option (List Char × Cursor) :=
  match c.rest with
  | '!' :: rest =>
    let cs := rest.takeWhile isNameChar
    let c := c.skip (cs.length + 1)
    if c.startsWith (· = '!') then some ('!' :: cs ++ ['!'], c.skip 1) else some ('!' :: cs, c)
  | _ => none

def tag? (inFlow : Bool) (c : Cursor) : Option (Token × Cursor) := do
  let bound := c.rest.length + 1
  let (t, c) ← match c.rest with
    | '!' :: '<' :: _ => do
      let (stem, c) ← tagChars? true bound [] (c.skip 2)
      if stem.isEmpty || !c.startsWith (· = '>') then none
      else some (Token.tag "" (String.ofList stem), c.skip 1)
    | _ => do
      let (handle, c) ← handle? c
      if handle.length > 1 && handle.getLast? = some '!' then
        let (stem, c) ← tagChars? false bound [] c
        if stem.isEmpty then none else some (.tag (String.ofList handle) (String.ofList stem), c)
      else
        let (stem, c) ← tagChars? false bound (handle.drop 1) c
        some (if stem.isEmpty then .tag "" "!" else .tag "!" (String.ofList stem), c)
  if endsWord c.rest || (inFlow && c.startsWith (· = ',')) then some (t, c) else none

def digits? (c : Cursor) : Option (Nat × Cursor) :=
  let cs := c.rest.takeWhile Char.isDigit
  if cs.isEmpty || cs.length > 9 then none
  else some (cs.foldl (fun n d => n * 10 + (d.toNat - 48)) 0, c.skip cs.length)

/-- A directive, from behind its percent sign to the end of its line. -/
def directive? (c : Cursor) : Option (Token × Cursor) := do
  let name := c.rest.takeWhile isNameChar
  let c := c.skip name.length
  if name.isEmpty || !endsWord c.rest then none
  else
    let c := c.skipWhile isSpaceOrTab
    let (t, c) ← match String.ofList name with
      | "YAML" => do
        let (major, c) ← digits? c
        if !c.startsWith (· = '.') then none
        else do
          let (minor, c) ← digits? (c.skip 1)
          some (Token.version major minor, c)
      | "TAG" => do
        let (handle, c) ← handle? c
        if (handle.length > 1 && handle.getLast? != some '!') || !c.startsWith isSpaceOrTab then none
        else
          let c := c.skipWhile isSpaceOrTab
          let (stem, c) ← tagChars? true (c.rest.length + 1) [] c
          if stem.isEmpty || !endsWord c.rest then none
          else some (.tagShort (String.ofList handle) (String.ofList stem), c)
      | _ => none
    let c := c.skipWhile isSpaceOrTab
    let c := if c.startsWith (· = '#') then c.skipToLineEnd else c
    if c.rest.isEmpty || c.startsWith isLineBreak then some (t, c.skipBreak) else none

/-! ## One token -/

/-- A mark of one character that leaves no candidate behind. -/
def mark (t : Token) (keyAllowed : Bool) (l : Lexer) : Option Lexer := do
  let l ← l.dropCandidate
  some ((l.allowKey keyAllowed |>.skip 1).push t)

def documentMark (t : Token) (l : Lexer) : Option Lexer := do
  let l ← (l.unindent (-1)).dropCandidate
  some ((l.allowKey false |>.skip 3).push t)

def flowOpen (t : Token) (l : Lexer) : Option Lexer := do
  let l ← l.noteCandidate
  some ((({ l with candidates := none :: l.candidates }).allowKey true |>.skip 1).push t)

def flowClose (t : Token) (l : Lexer) : Option Lexer := do
  let l ← l.dropCandidate
  let l := if l.inFlow then { l with candidates := l.candidates.drop 1 } else l
  some ((l.allowKey false |>.skip 1).push t)

def blockItem (l : Lexer) : Option Lexer :=
  if l.inFlow then l.mark .item true
  else if l.keyAllowed then (l.indentTo l.column none .blockList).mark .item true
  else none

def explicitKey (l : Lexer) : Option Lexer :=
  if l.inFlow then l.mark .key false
  else if l.keyAllowed then (l.indentTo l.column none .blockRecord).mark .key true
  else none

/-- A colon: the candidate in front of it, if there is one, is a key. -/
def colon (l : Lexer) : Option Lexer :=
  match l.candidates with
  | some k :: ks =>
    let l := { l with
      tokens := l.tokens.insertIdxIfInBounds k.place .key
      candidates := none :: ks
      keyAllowed := false }
    some (((l.indentTo k.start.column (some k.place) .blockRecord).skip 1).push .value)
  | _ =>
    if l.inFlow then some ((l.allowKey false |>.skip 1).push .value)
    else if l.keyAllowed then
      some (((l.indentTo l.column none .blockRecord).skip 1).push .value)
    else none

/-- A token that may be a key or stand before one. -/
def keyLike (read : Cursor → Option (Token × Cursor)) (l : Lexer) : Option Lexer := do
  let l ← l.noteCandidate
  let (t, cursor) ← read l.cursor
  some (({ l with cursor }).allowKey false |>.push t)

def quoted (double : Bool) (l : Lexer) : Option Lexer :=
  l.keyLike fun c => do
    let s ← quotedScalar? double (c.rest.length + 1) [] (c.skip 1)
    some (.scalar false (String.ofList s.text), s.next)

def block (literal : Bool) (l : Lexer) : Option Lexer := do
  let l ← l.dropCandidate
  let s ← blockScalar? literal l.indent (l.cursor.skip 1)
  some (({ l with cursor := s.next }).allowKey true |>.push (.scalar false (String.ofList s.text)))

def plain (l : Lexer) : Option Lexer := do
  let l ← l.noteCandidate
  let c := l.cursor
  let s ← plainScalar? l.inFlow (l.indent + 1).toNat (c.rest.length + 1) [] {} c
  some (({ l with cursor := s.next }).allowKey s.brokeLine |>.push
    (.scalar true (String.ofList s.text)))

/-- A plain scalar can begin here. -/
def startsPlain (inFlow : Bool) : List Char → Bool
  | [] => false
  | c :: cs =>
    let blankNext := match cs with
      | d :: _ => isSpaceOrTab d
      | [] => false
    !(isSpaceOrTab c || isLineBreak c || "-?:,[]\x7b\x7d#&*!|>'\"%@".toList.contains c || c.toNat = 96) ||
      (c = '-' && !blankNext) || (!inFlow && (c = '?' || c = ':') && !endsWord cs)

/-- The end of the text ends all blocks. -/
def finish (l : Lexer) : Option Lexer := do
  let l ← (l.unindent (-1)).dropCandidate
  some (l.push .textEnd)

/-- Reads one token, with those that it implies. -/
def step (l : Lexer) : Option Lexer := do
  let (keyAllowed, cursor) := skipBlanks l.inFlow (l.cursor.rest.length + 1) l.keyAllowed l.cursor
  let l ← dropStale { l with cursor, keyAllowed }
  let l := l.unindent l.column
  let c := l.cursor
  match c.rest with
  | [] => l.finish
  | ch :: cs =>
    if c.column = 0 && ch = '%' then do
      let l ← (l.unindent (-1)).dropCandidate
      let (t, cursor) ← directive? (c.skip 1)
      some (({ l with cursor }).allowKey false |>.push t)
    else if c.atMark '-' then l.documentMark .documentStart
    else if c.atMark '.' then l.documentMark .documentEnd
    else if ch = '[' then l.flowOpen .flowList
    else if ch = '\x7b' then l.flowOpen .flowRecord
    else if ch = ']' then l.flowClose .flowListEnd
    else if ch = '\x7d' then l.flowClose .flowRecordEnd
    else if ch = ',' then l.mark .comma true
    else if ch = '-' && endsWord cs then l.blockItem
    else if ch = '?' && (l.inFlow || endsWord cs) then l.explicitKey
    else if ch = ':' && (l.inFlow || endsWord cs) then l.colon
    else if ch = '*' then l.keyLike fun c => (name? (c.skip 1)).map fun (n, c) => (.alias n, c)
    else if ch = '&' then l.keyLike fun c => (name? (c.skip 1)).map fun (n, c) => (.anchor n, c)
    else if ch = '!' then l.keyLike (tag? l.inFlow)
    else if ch = '|' && !l.inFlow then l.block true
    else if ch = '>' && !l.inFlow then l.block false
    else if ch = '\'' then l.quoted false
    else if ch = '"' then l.quoted true
    else if startsPlain l.inFlow c.rest then l.plain
    else none

/-- The tokens whose meaning is settled, and the fault behind them. -/
def faulty (l : Lexer) : List Token :=
  let settled := l.candidates.foldl (fun n k => min n ((k.map (·.place)).getD n)) l.tokens.size
  l.tokens.toList.take settled ++ [.fault]

def run : (bound : Nat) → Lexer → List Token
  | 0, l => l.faulty
  | bound + 1, l =>
    match l.step with
    | none => l.faulty
    | some next =>
      if next.tokens.back? = some .textEnd then next.tokens.toList else run bound next

end Lexer

/-- The tokens of a text. A byte order mark may come first, and a control character anywhere makes
the text unreadable. -/
def tokens (s : String) : List Token :=
  let cs := match s.toList with
    | c :: cs => if c.toNat = 0xFEFF then cs else c :: cs
    | [] => []
  if cs.all isAllowed then Lexer.run (cs.length + 2) { cursor := { rest := cs } } else [.fault]

end EventWorker.Document.Yaml
