/-!
# A place in a YAML text

The characters that are still to be read together with the place where they begin: how many
characters and lines come before, and the column. A carriage return with the line feed behind it is
one line break.
-/

namespace EventWorker.Document.Yaml

def isLineBreak (c : Char) : Bool :=
  c = '\n' || c = '\r' || c.toNat = 0x85 || c.toNat = 0x2028 || c.toNat = 0x2029

def isSpaceOrTab (c : Char) : Bool :=
  c = ' ' || c = '\t'

/-- Space, tab, line break, or the end of the text. -/
def endsWord : List Char → Bool
  | [] => true
  | c :: _ => isSpaceOrTab c || isLineBreak c

/-- A character that a YAML text may hold. -/
def isAllowed (c : Char) : Bool :=
  let n := c.toNat
  n = 9 || n = 10 || n = 13 || (0x20 ≤ n && n ≤ 0x7E) || n = 0x85 || (0xA0 ≤ n && n ≤ 0xFFFD) ||
    0x10000 ≤ n

structure Cursor where
  rest : List Char
  index : Nat := 0
  line : Nat := 0
  column : Nat := 0

namespace Cursor

/-- Passes over characters of one line. -/
def skip (c : Cursor) (n : Nat) : Cursor :=
  { c with rest := c.rest.drop n, index := c.index + n, column := c.column + n }

def skipWhile (p : Char → Bool) (c : Cursor) : Cursor :=
  c.skip (c.rest.takeWhile p).length

def skipToLineEnd (c : Cursor) : Cursor :=
  c.skipWhile fun ch => !isLineBreak ch

def nextLine (c : Cursor) (n : Nat) : Cursor :=
  ⟨c.rest.drop n, c.index + n, c.line + 1, 0⟩

/-- Passes over a line break and gives what it stands for in a text: a line feed, but for the two
separators of Unicode, which stand for themselves. -/
def takeBreak (c : Cursor) : List Char × Cursor :=
  match c.rest with
  | '\r' :: '\n' :: _ => (['\n'], c.nextLine 2)
  | ch :: _ =>
    if ch.toNat = 0x2028 ∨ ch.toNat = 0x2029 then ([ch], c.nextLine 1)
    else if isLineBreak ch then (['\n'], c.nextLine 1)
    else ([], c)
  | [] => ([], c)

def skipBreak (c : Cursor) : Cursor :=
  c.takeBreak.2

def startsWith (c : Cursor) (p : Char → Bool) : Bool :=
  match c.rest with
  | ch :: _ => p ch
  | [] => false

/-- The line begins with one of the two marks between documents. -/
def atMark (c : Cursor) (mark : Char) : Bool :=
  c.column = 0 &&
    match c.rest with
    | x :: y :: z :: rest => x = mark && y = mark && z = mark && endsWord rest
    | _ => false

def atDocumentMark (c : Cursor) : Bool :=
  c.atMark '-' || c.atMark '.'

end Cursor

end EventWorker.Document.Yaml
