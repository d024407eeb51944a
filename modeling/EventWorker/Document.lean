/-!
# Documents

A document is the tree that a text in one of the two data formats stands for. JSON yields
typed scalars and strings. YAML leaves a plain scalar untyped: what `5` or `yes` means is decided
by the reader of the value (`DocumentScalar`), so the tree keeps its text.

Two nodes stand for what a text says without giving a value. `broken` is the place where reading
stopped at a fault, so that what comes before it can still be judged first. `endless` is a
reference from inside a value to that value itself, harmless as long as nobody reads it.
-/

namespace EventWorker

inductive Document where
  | null
  | bool (value : Bool)
  /-- A number as it was written. -/
  | number (digits : String)
  | text (value : String)
  /-- A string with half of a surrogate pair in it, which is no text. -/
  | halfPair
  /-- A scalar written without quotes. -/
  | plain (value : String)
  | list (items : List Document)
  | record (fields : List (Document × Document))
  | tagged (tag : String) (value : Document)
  | broken
  | endless
  deriving Inhabited

namespace Document

/-- A record with texts as keys. -/
def object (fields : List (String × Document)) : Document :=
  record (fields.map fun f => (text f.1, f.2))

/-- A record of the fields that have a value. -/
def present (fields : List (String × Option Document)) : Document :=
  object (fields.filterMap fun f => f.2.map (f.1, ·))

def texts (values : List String) : Document :=
  list (values.map text)

def textOrNull : Option String → Document
  | none => null
  | some s => text s

def nat (n : Nat) : Document :=
  number (toString n)

def int (n : Int) : Document :=
  number (toString n)

/-- The value under any tags. -/
def untagged : Document → Document
  | tagged _ value => value.untagged
  | d => d

mutual

/-- Reading never stopped inside the value. -/
def isWhole : Document → Bool
  | broken => false
  | list items => areWhole items
  | record fields => fieldsWhole fields
  | tagged _ value => isWhole value
  | _ => true

def areWhole : List Document → Bool
  | [] => true
  | d :: ds => isWhole d && areWhole ds

def fieldsWhole : List (Document × Document) → Bool
  | [] => true
  | (k, v) :: fs => isWhole k && isWhole v && fieldsWhole fs

end

/-- The value of a text key. -/
def field? (key : String) : Document → Option Document
  | record fields => fields.findSome? fun
      | (text k, v) => if k = key then some v else none
      | _ => none
  | _ => none

end Document

end EventWorker
