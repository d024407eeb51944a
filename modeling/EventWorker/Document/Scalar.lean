import EventWorker.Document

/-!
# The types of scalars

What a scalar means to a reader who wants a text, a truth value or a number. A JSON scalar is of one
type. A plain YAML scalar is a text to whoever asks for one, a truth value if it is one of six
spellings, and an integer in decimal (no leading zeros), `0x`, `0o` or `0b`, with an optional sign.
A reader who takes whatever comes gets the first of null, truth value, integer, fraction and text
that fits (`freeType`).
-/

namespace EventWorker.Document

/-- The spellings of no value. -/
def isNullWord (s : String) : Bool :=
  s == "~" || s == "null" || s == "Null" || s == "NULL"

def boolWord? (s : String) : Option Bool :=
  if s == "true" || s == "True" || s == "TRUE" then some true
  else if s == "false" || s == "False" || s == "FALSE" then some false
  else none

def digitIn? (base : Nat) (c : Char) : Option Nat :=
  let n := c.toNat
  let d :=
    if 48 ≤ n ∧ n ≤ 57 then n - 48
    else if 97 ≤ n ∧ n ≤ 122 then n - 87
    else if 65 ≤ n ∧ n ≤ 90 then n - 55
    else base
  if d < base then some d else none

/-- The value of one or more digits. -/
def digitsIn? (base : Nat) : List Char → Option Nat
  | [] => none
  | cs => cs.foldlM (fun n c => (digitIn? base c).map (n * base + ·)) 0

/-- More than one digit, the first of them zero: a text and not a number. -/
def isPaddedNumber (cs : List Char) : Bool :=
  match cs with
  | '0' :: c :: rest => (c :: rest).all Char.isDigit
  | _ => false

/-- An unsigned integer after its sign. -/
def magnitude? : List Char → Option Nat
  | '0' :: 'x' :: cs => digitsIn? 16 cs
  | '0' :: 'o' :: cs => digitsIn? 8 cs
  | '0' :: 'b' :: cs => digitsIn? 2 cs
  | cs => if isPaddedNumber cs then none else digitsIn? 10 cs

/-- The integer that a plain scalar spells; a minus sign with zero is kept apart from no sign. -/
def integer? (s : String) : Option (Bool × Nat) :=
  match s.toList with
  | '-' :: cs => (magnitude? cs).map (true, ·)
  | '+' :: cs => (magnitude? cs).map (false, ·)
  | cs => (magnitude? cs).map (false, ·)

def dropSign : List Char → List Char
  | '-' :: cs => cs
  | '+' :: cs => cs
  | cs => cs

/-- A decimal number without its sign: `digits` with the point left out, times ten to the power
`scale`. -/
structure Decimal where
  digits : List Char
  scale : Int

/-- Reads digits with at most one point among them and an optional exponent. -/
def decimal? (cs : List Char) : Option Decimal :=
  let body := dropSign cs
  let whole := body.takeWhile Char.isDigit
  let (fraction, rest) := match body.dropWhile Char.isDigit with
    | '.' :: r => (r.takeWhile Char.isDigit, r.dropWhile Char.isDigit)
    | r => ([], r)
  let exponent : Option Int := match rest with
    | [] => some 0
    | e :: r =>
      if e = 'e' ∨ e = 'E' then
        (digitsIn? 10 (dropSign r)).map fun n => if r.head? = some '-' then -(n : Int) else n
      else none
  if whole.isEmpty && fraction.isEmpty then none
  else exponent.map fun e => ⟨whole ++ fraction, e - fraction.length⟩

/-- Half a unit above the largest double: from here on a number is read as infinite. -/
def infiniteBound : Nat :=
  Nat.pow 2 1024 - Nat.pow 2 970

def Decimal.isInfinite (d : Decimal) : Bool :=
  let m := (digitsIn? 10 d.digits).getD 0
  if m = 0 then false
  else if d.scale ≥ 400 then true
  else if d.scale ≥ 0 then m * Nat.pow 10 d.scale.toNat ≥ infiniteBound
  else if d.scale < -(d.digits.length : Int) then false
  else m ≥ infiniteBound * Nat.pow 10 (-d.scale).toNat

/-- A finite number in decimal. -/
def isFraction (cs : List Char) : Bool :=
  (decimal? cs).any fun d => !d.isInfinite

def isFractionWord (s : String) : Bool :=
  let cs := s.toList
  let unsigned := match cs with
    | '+' :: r => r
    | r => r
  [".inf", ".Inf", ".INF"].contains (String.ofList unsigned) ||
    ["-.inf", "-.Inf", "-.INF", ".nan", ".NaN", ".NAN"].contains s ||
    isFraction cs

/-- What a plain scalar is to a reader who takes whatever comes. -/
inductive FreeType where
  | nothing
  | truth (value : Bool)
  | integer (negative : Bool) (magnitude : Nat)
  | fraction
  | word (value : String)

def isSigned (cs : List Char) : Bool :=
  match cs with
  | '+' :: _ => true
  | '-' :: _ => true
  | _ => false

def freeType (s : String) : FreeType :=
  if s.isEmpty || isNullWord s then .nothing
  else
    match boolWord? s with
    | some b => .truth b
    | none =>
      match integer? s with
      | some (negative, n) => .integer negative n
      | none =>
        let cs := s.toList
        let padded := isPaddedNumber (if isSigned cs then cs.drop 1 else cs)
        if !padded && isFractionWord s then .fraction else .word s

/-- The digits of a JSON number with no fraction and no exponent. -/
def wholeDigits? (s : String) : Option (Bool × Nat) :=
  match s.toList with
  | '-' :: cs => (digitsIn? 10 cs).map (true, ·)
  | cs => (digitsIn? 10 cs).map (false, ·)

end EventWorker.Document
