import EventWorker.Text.Blank

/-!
# Patterns

What a text is searched for. To those who use one, a pattern is the text that it was read from and
what other texts have it in them, and which texts can be read as patterns is up to the reader
(`Pattern.Reader`).

The reader that the worker runs with is `Pattern.ofText?`. It reads regular expressions: literal
characters, classes, groups, choice, repetition, and the two anchors `^` and `$`. A text has such a
pattern in it if some stretch of it matches. Flags, word boundaries, classes beyond ASCII and groups
with names are not read, though other readers know them.

An expression is matched one character at a time. `rest` is what remains to be matched once a
character is read, and `acceptsNothing` says whether the expression matches no characters at all.
Both are told whether they stand at the start of the text, and the second also whether at its end,
which is all that the anchors ask for.
-/

namespace EventWorker.Text

/-- A pattern, with the text that it was read from. -/
structure Pattern where
  text : String
  /-- Whether a text has the pattern in it. -/
  isIn : String → Bool

/-- Reads a text as a pattern, unless it is none. -/
abbrev Pattern.Reader := String → Option Pattern

/-! ## Regular expressions -/

/-- A set of characters. -/
inductive Letters where
  | range (low high : Char)
  | blank
  | union (a b : Letters)
  | except (a : Letters)
  deriving DecidableEq

namespace Letters

def has : Letters → Char → Bool
  | range low high, c => low ≤ c && c ≤ high
  | blank, c => isBlank c
  | union a b, c => a.has c || b.has c
  | except a, c => !a.has c

def just (c : Char) : Letters :=
  range c c

def digit : Letters :=
  range '0' '9'

def lowerCase : Letters :=
  range 'a' 'z'

def upperCase : Letters :=
  range 'A' 'Z'

def letter : Letters :=
  union lowerCase upperCase

/-- The letters, digits and underscore of ASCII. -/
def word : Letters :=
  union letter (union digit (just '_'))

/-- Every character but the line feed. -/
def any : Letters :=
  except (just '\n')

/-- The class that a letter after a backslash names. -/
def ofEscape? : Char → Option Letters
  | 'd' => some digit
  | 'D' => some (except digit)
  | 'w' => some word
  | 'W' => some (except word)
  | 's' => some blank
  | 'S' => some (except blank)
  | _ => none

/-- The class of a name between `[:` and `:]`. -/
def ofName? : String → Option Letters
  | "alpha" => some letter
  | "digit" => some digit
  | "alnum" => some (union letter digit)
  | "lower" => some lowerCase
  | "upper" => some upperCase
  | "word" => some word
  | "xdigit" => some (union digit (union (range 'a' 'f') (range 'A' 'F')))
  | _ => none

end Letters

inductive Expr where
  | nothing
  | empty
  | one (letters : Letters)
  | seq (a b : Expr)
  | either (a b : Expr)
  | star (a : Expr)
  | start
  | finish
  deriving DecidableEq

namespace Expr

def acceptsNothing : Expr → (atStart atEnd : Bool) → Bool
  | nothing, _, _ => false
  | empty, _, _ => true
  | one _, _, _ => false
  | seq a b, s, e => a.acceptsNothing s e && b.acceptsNothing s e
  | either a b, s, e => a.acceptsNothing s e || b.acceptsNothing s e
  | star _, _, _ => true
  | start, s, _ => s
  | finish, _, e => e

/-- A sequence, short where one part of it decides. -/
def followedBy : Expr → Expr → Expr
  | nothing, _ => nothing
  | empty, b => b
  | a, b => seq a b

/-- A choice, short where one side cannot match. -/
def orElse : Expr → Expr → Expr
  | nothing, b => b
  | a, nothing => a
  | a, b => if a = b then a else either a b

/-- What remains to be matched after the character. -/
def rest : Expr → (atStart : Bool) → Char → Expr
  | one letters, _, c => if letters.has c then empty else nothing
  | seq a b, s, c =>
    let first := followedBy (a.rest s c) b
    if a.acceptsNothing s false then orElse first (b.rest s c) else first
  | either a b, s, c => orElse (a.rest s c) (b.rest s c)
  | star a, s, c => followedBy (a.rest s c) (star a)
  | _, _, _ => nothing

/-- Some first part of the characters matches. -/
def startsIn : Expr → (atStart : Bool) → List Char → Bool
  | a, s, [] => a.acceptsNothing s true
  | a, s, c :: cs => a.acceptsNothing s false || (a.rest s c).startsIn false cs

/-- Some stretch of the characters matches. -/
def isIn (a : Expr) : (atStart : Bool) → List Char → Bool
  | s, [] => a.startsIn s []
  | s, c :: cs => a.startsIn s (c :: cs) || a.isIn false cs

/-- At least `low` times, and at most `extra` times more. -/
def times (a : Expr) : (low extra : Nat) → Expr
  | 0, 0 => empty
  | 0, extra + 1 => orElse empty (followedBy a (a.times 0 extra))
  | low + 1, extra => followedBy a (a.times low extra)

/-- At least `low` times. -/
def timesOrMore (a : Expr) : (low : Nat) → Expr
  | 0 => star a
  | low + 1 => followedBy a (a.timesOrMore low)

end Expr

/-! ## Reading an expression -/

namespace Expr

def controlOf? : Char → Option Char
  | 'n' => some '\n'
  | 't' => some '\t'
  | 'r' => some '\r'
  | 'f' => some (Char.ofNat 12)
  | 'v' => some (Char.ofNat 11)
  | 'a' => some (Char.ofNat 7)
  | _ => none

/-- A character that a backslash makes stand for itself. -/
def isMark (c : Char) : Bool :=
  c.toNat < 0x80 && !c.isAlphanum && c.toNat > 0x20 && c != '<' && c != '>' && c.toNat != 0x7F

def escapedChar? (c : Char) : Option Char :=
  if isMark c then some c else controlOf? c

/-- The single character that can begin or end a range in a class. -/
def classChar? : List Char → Option (Char × List Char)
  | '\\' :: c :: cs => (escapedChar? c).map (·, cs)
  | c :: cs => if c = '[' then none else some (c, cs)
  | [] => none

def takeName (cs : List Char) : String × List Char :=
  (String.ofList (cs.takeWhile Char.isAlpha), cs.dropWhile Char.isAlpha)

/-- The letters of a class from after its opening bracket up to its closing one. -/
def letters? : (bound : Nat) → (found : Option Letters) → List Char → Option (Letters × List Char)
  | 0, _, _ => none
  | bound + 1, found, cs =>
    let add (l : Letters) (cs : List Char) :=
      letters? bound (some ((found.map (Letters.union · l)).getD l)) cs
    match cs, found with
    | [], _ => none
    | ']' :: cs, some l => some (l, cs)
    | '[' :: ':' :: cs, _ => do
      let (name, cs) := takeName cs
      let l ← Letters.ofName? name
      match cs with
      | ':' :: ']' :: cs => add l cs
      | _ => none
    | '[' :: cs, _ => do
      let (l, cs) ← match cs with
        | '^' :: cs => (letters? bound none cs).map fun (l, cs) => (Letters.except l, cs)
        | cs => letters? bound none cs
      add l cs
    | cs, _ =>
      let escape := match cs with
        | '\\' :: c :: cs => (Letters.ofEscape? c).map (·, cs)
        | _ => none
      match escape with
      | some (l, cs) => add l cs
      | none => do
        let (low, cs) ← classChar? cs
        match cs with
        | '-' :: ']' :: _ => add (.just low) cs
        | '-' :: cs => do
          let (high, cs) ← classChar? cs
          if low ≤ high then add (.range low high) cs else none
        | cs => add (.just low) cs

def number? (cs : List Char) : Option (Nat × List Char) :=
  let digits := cs.takeWhile Char.isDigit
  if digits.isEmpty then none
  else some (digits.foldl (fun n c => n * 10 + (c.toNat - 48)) 0, cs.dropWhile Char.isDigit)

/-- A count in braces, from after the opening one. -/
def counted? (a : Expr) (cs : List Char) : Option (Expr × List Char) := do
  let (low, cs) ← number? cs
  match cs with
  | '\x7d' :: cs => some (a.times low 0, cs)
  | ',' :: '\x7d' :: cs => some (a.timesOrMore low, cs)
  | ',' :: cs =>
    let (high, cs) ← number? cs
    match cs with
    | '\x7d' :: cs => if low ≤ high then some (a.times low (high - low), cs) else none
    | _ => none
  | _ => none

/-- The repetitions behind an expression; whether they are taken eagerly makes no difference. -/
def repeats? : (bound : Nat) → Expr → List Char → Option (Expr × List Char)
  | 0, _, _ => none
  | bound + 1, a, cs =>
    let again (a : Expr) : List Char → Option (Expr × List Char)
      | '?' :: cs => repeats? bound a cs
      | cs => repeats? bound a cs
    match cs with
    | '*' :: cs => again (star a) cs
    | '+' :: cs => again (a.timesOrMore 1) cs
    | '?' :: cs => again (a.times 0 1) cs
    | '\x7b' :: cs => do
      let (a, cs) ← counted? a cs
      again a cs
    | cs => some (a, cs)

mutual

def choice? : (bound : Nat) → List Char → Option (Expr × List Char)
  | 0, _ => none
  | bound + 1, cs => do
    let (a, cs) ← sequence? bound cs
    match cs with
    | '|' :: cs =>
      let (b, cs) ← choice? bound cs
      some (either a b, cs)
    | cs => some (a, cs)

def sequence? : (bound : Nat) → List Char → Option (Expr × List Char)
  | 0, _ => none
  | bound + 1, cs =>
    match cs with
    | [] => some (empty, [])
    | '|' :: _ => some (empty, cs)
    | ')' :: _ => some (empty, cs)
    | _ => do
      let (a, cs) ← atom? bound cs
      let (a, cs) ← repeats? (cs.length + 1) a cs
      let (b, cs) ← sequence? bound cs
      some (followedBy a b, cs)

/-- The smallest expression that a repetition can apply to. -/
def atom? : (bound : Nat) → List Char → Option (Expr × List Char)
  | 0, _ => none
  | bound + 1, cs =>
    let group (cs : List Char) : Option (Expr × List Char) := do
      let (a, cs) ← choice? bound cs
      match cs with
      | ')' :: cs => some (a, cs)
      | _ => none
    match cs with
    | '(' :: '?' :: ':' :: cs => group cs
    | '(' :: cs => group cs
    | '[' :: '^' :: cs => (letters? (cs.length + 1) none cs).map fun (l, cs) => (one (.except l), cs)
    | '[' :: cs => (letters? (cs.length + 1) none cs).map fun (l, cs) => (one l, cs)
    | '^' :: cs => some (start, cs)
    | '$' :: cs => some (finish, cs)
    | '.' :: cs => some (one .any, cs)
    | '\\' :: 'A' :: cs => some (start, cs)
    | '\\' :: 'z' :: cs => some (finish, cs)
    | '\\' :: c :: cs =>
      match Letters.ofEscape? c with
      | some l => some (one l, cs)
      | none => (escapedChar? c).map fun c => (one (.just c), cs)
    | c :: cs =>
      if ['\\', '*', '+', '?', '\x7b'].contains c then none else some (one (.just c), cs)
    | [] => none

end

end Expr

/-- Reads a regular expression. It is searched for anywhere in a text. -/
def Pattern.ofText? : Pattern.Reader := fun s => do
  let cs := s.toList
  match ← Expr.choice? (3 * cs.length + 3) cs with
  | (expr, []) => some { text := s, isIn := fun t => expr.isIn true t.toList }
  | _ => none

end EventWorker.Text
