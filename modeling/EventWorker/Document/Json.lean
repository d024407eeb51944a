import EventWorker.Document

/-!
# Reading JSON

The strict grammar: one value with white space around it, no trailing comma, no raw control
character in a string. A string may hold half of a surrogate pair; it is then no text
(`Document.halfPair`), which matters only to who wants it.

A reader takes the characters and returns a value with the characters after it, or a fault, which
tells a text that breaks off from one that is wrong. Values nest, so `value` counts down a bound on
the nesting that `read` sets to the length of the text.
-/

namespace EventWorker.Document.Json

def isSpace (c : Char) : Bool :=
  c = ' ' || c = '\n' || c = '\t' || c = '\r'

def skipSpace (cs : List Char) : List Char :=
  cs.dropWhile isSpace

def hexDigit? (c : Char) : Option Nat :=
  if '0' ≤ c ∧ c ≤ '9' then some (c.toNat - 48)
  else if 'a' ≤ c ∧ c ≤ 'f' then some (c.toNat - 87)
  else if 'A' ≤ c ∧ c ≤ 'F' then some (c.toNat - 55)
  else none

/-- What a string is made of: characters, and code units given by number. -/
inductive Piece where
  | char (c : Char)
  | unit (n : Nat)

def escaped? : Char → Option Char
  | '"' => some '"'
  | '\\' => some '\\'
  | '/' => some '/'
  | 'b' => some (Char.ofNat 8)
  | 'f' => some (Char.ofNat 12)
  | 'n' => some '\n'
  | 'r' => some '\r'
  | 't' => some '\t'
  | _ => none

/-- Why a text is not a value. -/
inductive Fault where
  /-- The text breaks off: something is still to come. -/
  | ended
  /-- A character stands where it cannot. -/
  | misplaced
  deriving DecidableEq

/-- The fault of characters none of which is wanted. -/
def faultAt : List Char → Fault
  | [] => .ended
  | _ => .misplaced

def hexUnit? (a b c d : Char) : Option Nat := do
  return (((← hexDigit? a) * 16 + (← hexDigit? b)) * 16 + (← hexDigit? c)) * 16 + (← hexDigit? d)

/-- The pieces up to the closing quote. -/
def pieces : List Char → Except Fault (List Piece × List Char)
  | [] => .error .ended
  | '"' :: rest => .ok ([], rest)
  | '\\' :: 'u' :: a :: b :: c :: d :: rest =>
    match hexUnit? a b c d with
    | none => .error .misplaced
    | some unit => do
      let (ps, rest) ← pieces rest
      return (.unit unit :: ps, rest)
  | ['\\'] => .error .ended
  | '\\' :: 'u' :: _ => .error .ended
  | '\\' :: c :: rest =>
    match escaped? c with
    | none => .error .misplaced
    | some here => do
      let (ps, rest) ← pieces rest
      return (.char here :: ps, rest)
  | c :: rest =>
    if c.toNat < 0x20 then .error .misplaced
    else do
      let (ps, rest) ← pieces rest
      return (.char c :: ps, rest)

def isHighHalf (n : Nat) : Bool :=
  0xD800 ≤ n && n < 0xDC00

def isLowHalf (n : Nat) : Bool :=
  0xDC00 ≤ n && n < 0xE000

/-- The characters of the pieces, where two halves of a pair make one. -/
def join? : List Piece → Option (List Char)
  | [] => some []
  | .char c :: ps => (join? ps).map (c :: ·)
  | .unit n :: .unit m :: ps =>
    if isHighHalf n && isLowHalf m then
      (join? ps).map (Char.ofNat (0x10000 + (n - 0xD800) * 0x400 + (m - 0xDC00)) :: ·)
    else if isHighHalf n || isLowHalf n then none
    else (join? (.unit m :: ps)).map (Char.ofNat n :: ·)
  | .unit n :: ps =>
    if isHighHalf n || isLowHalf n then none else (join? ps).map (Char.ofNat n :: ·)

def stringOf (ps : List Piece) : Document :=
  match join? ps with
  | some cs => .text (String.ofList cs)
  | none => .halfPair

/-- One or more digits. -/
def digits (cs : List Char) : Except Fault (List Char × List Char) :=
  match cs.takeWhile Char.isDigit with
  | [] => .error (faultAt cs)
  | ds => .ok (ds, cs.dropWhile Char.isDigit)

def wholePart : List Char → Except Fault (List Char × List Char)
  | '0' :: rest =>
    match rest with
    | c :: _ => if c.isDigit then .error .misplaced else .ok (['0'], rest)
    | [] => .ok (['0'], rest)
  | cs => digits cs

/-- Digits after what comes before them. -/
def digitsAfter (head : List Char) (cs : List Char) : Except Fault (List Char × List Char) := do
  let (ds, rest) ← digits cs
  return (head ++ ds, rest)

def fractionPart : List Char → Except Fault (List Char × List Char)
  | '.' :: rest => digitsAfter ['.'] rest
  | cs => .ok ([], cs)

def exponentPart : List Char → Except Fault (List Char × List Char)
  | c :: rest =>
    if c = 'e' ∨ c = 'E' then
      match rest with
      | '+' :: rest => digitsAfter [c, '+'] rest
      | '-' :: rest => digitsAfter [c, '-'] rest
      | rest => digitsAfter [c] rest
    else .ok ([], c :: rest)
  | [] => .ok ([], [])

def number (cs : List Char) : Except Fault (Document × List Char) := do
  let (sign, cs) := match cs with
    | '-' :: rest => (['-'], rest)
    | cs => ([], cs)
  let (whole, cs) ← wholePart cs
  let (fraction, cs) ← fractionPart cs
  let (exponent, cs) ← exponentPart cs
  return (.number (String.ofList (sign ++ whole ++ fraction ++ exponent)), cs)

/-- A fixed word that stands for a value. -/
def word (name : String) (d : Document) (cs : List Char) : Except Fault (Document × List Char) :=
  if name.toList.isPrefixOf cs then .ok (d, cs.drop name.length)
  else .error (if cs.isPrefixOf name.toList then .ended else .misplaced)

mutual

/-- A value at the start of the characters. -/
def value : (depth : Nat) → List Char → Except Fault (Document × List Char)
  | 0, _ => .error .misplaced
  | depth + 1, cs =>
    match skipSpace cs with
    | '"' :: rest => do
      let (ps, rest) ← pieces rest
      return (stringOf ps, rest)
    | 'n' :: rest => word "null" .null ('n' :: rest)
    | 't' :: rest => word "true" (.bool true) ('t' :: rest)
    | 'f' :: rest => word "false" (.bool false) ('f' :: rest)
    | '[' :: rest =>
      match skipSpace rest with
      | ']' :: rest => .ok (.list [], rest)
      | rest => do
        let (ds, rest) ← items depth rest
        return (.list ds, rest)
    | '\x7b' :: rest =>
      match skipSpace rest with
      | '\x7d' :: rest => .ok (.record [], rest)
      | rest => do
        let (fs, rest) ← fields depth rest
        return (.record fs, rest)
    | cs => number cs

/-- One or more items up to the closing bracket. -/
def items : (depth : Nat) → List Char → Except Fault (List Document × List Char)
  | 0, _ => .error .misplaced
  | depth + 1, cs => do
    let (d, rest) ← value depth cs
    match skipSpace rest with
    | ',' :: rest =>
      let (ds, rest) ← items depth rest
      return (d :: ds, rest)
    | ']' :: rest => return ([d], rest)
    | rest => .error (faultAt rest)

/-- One or more fields up to the closing brace. -/
def fields : (depth : Nat) → List Char → Except Fault (List (Document × Document) × List Char)
  | 0, _ => .error .misplaced
  | depth + 1, cs =>
    match skipSpace cs with
    | '"' :: rest => do
      let (key, rest) ← pieces rest
      match skipSpace rest with
      | ':' :: rest =>
        let (d, rest) ← value depth rest
        match skipSpace rest with
        | ',' :: rest =>
          let (fs, rest) ← fields depth rest
          return ((stringOf key, d) :: fs, rest)
        | '\x7d' :: rest => return ([(stringOf key, d)], rest)
        | rest => .error (faultAt rest)
      | rest => .error (faultAt rest)
    | rest => .error (faultAt rest)

end

/-- The one value that a text consists of. -/
def read (s : String) : Except Fault Document := do
  let cs := s.toList
  let (d, rest) ← value (2 * cs.length + 2) cs
  if (skipSpace rest).isEmpty then .ok d else .error .misplaced

/-- The text is no value, but more text could make it one. -/
def breaksOff (s : String) : Bool :=
  match read s with
  | .error .ended => true
  | _ => false

end Json

/-- The document that a JSON text stands for. -/
def ofJson? (s : String) : Option Document :=
  (Json.read s).toOption

end EventWorker.Document
