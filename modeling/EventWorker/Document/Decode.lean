import EventWorker.Document.Scalar
import EventWorker.Table

/-!
# Decoding documents

A decoder turns a document into a value of a model, on terms that its format sets (`Terms`). It judges
a document from its beginning to its end: of two faults the first is reported.

`Shape` describes a model with named fields. Its decoder takes a record, the fields in any order and
those that are absent at their defaults, or, where the terms allow it, a list of the fields in the declared
order. A plain
scalar with nothing in it stands for the empty value of whatever is wanted: no text, no items, no
fields.
-/

namespace EventWorker

inductive DecodeError where
  /-- The text is not of its format, from some place on. -/
  | unreadable
  | mismatch
  | missing (field : String)
  | repeated (field : String)
  | unknown (field : String)
  | tooDeep
  | refused (reason : String)
  deriving DecidableEq

/-- The terms that a document is decoded on. -/
structure Terms where
  /-- How many levels of lists and records may still be entered. -/
  levels : Nat
  /-- A list of the fields of a record is as good as the record. -/
  lists : Bool

abbrev Decoder (α : Type) :=
  (terms : Terms) → Document → Except DecodeError α

namespace Decoder

open Document

variable {α β : Type}

/-- The fault of a document of the wrong kind. -/
def fault : Document → DecodeError
  | .broken => .unreadable
  | _ => .mismatch

/-- Goes on one level further down. -/
def enter (terms : Terms) (body : Terms → Except DecodeError α) : Except DecodeError α :=
  match terms.levels with
  | 0 => .error .tooDeep
  | n + 1 => body { terms with levels := n }

/-- A value that nobody wants: it only has to be readable. -/
def ignored (d : Document) : Except DecodeError Unit :=
  if d.isWhole then .ok () else .error .unreadable

def scalarText? (d : Document) : Option String :=
  match d.untagged with
  | .text s => some s
  | .plain s => some s
  | _ => none

def text : Decoder String := fun _ d =>
  match scalarText? d with
  | some s => .ok s
  | none => .error (fault d.untagged)

def flag : Decoder Bool := fun _ d =>
  match d.untagged with
  | .bool b => .ok b
  | .plain s => match boolWord? s with
    | some b => .ok b
    | none => .error .mismatch
  | d => .error (fault d)

/-- An integer with its sign; `-0` counts as signed. -/
def signed : Decoder (Bool × Nat) := fun _ d =>
  match d.untagged with
  | .number s => match wholeDigits? s with
    | some (negative, n) => if negative && n == 0 then .error .mismatch else .ok (negative, n)
    | none => .error .mismatch
  | .plain s => match integer? s with
    | some n => .ok n
    | none => .error .mismatch
  | d => .error (fault d)

/-- An integer without a minus sign, below the bound. -/
def natBelow (bound : Nat) : Decoder Nat := fun terms d => do
  let (negative, n) ← signed terms d
  if negative || n ≥ bound then .error .mismatch else .ok n

def int32 : Decoder Int32 := fun terms d => do
  let (negative, n) ← signed terms d
  if negative then
    if n ≤ Nat.pow 2 31 then .ok (.ofInt (-(n : Int))) else .error .mismatch
  else if n < Nat.pow 2 31 then .ok (.ofInt n) else .error .mismatch

/-- The tag of an explicit null. -/
def nullTag : String :=
  "tag:yaml.org,2002:null"

/-- A value or none, where none is null, nothing at all, or a word for it. -/
def optional (inner : Decoder α) : Decoder (Option α) := fun terms d =>
  match d with
  | .null => .ok none
  | .plain s => if s.isEmpty || isNullWord s then .ok none else some <$> inner terms d
  | .tagged tag (.plain s) =>
    if tag = nullTag then if isNullWord s then .ok none else .error .mismatch
    else some <$> inner terms d
  | d => some <$> inner terms d

/-- A value, where none stands for the empty one. -/
def orEmpty [Inhabited α] (inner : Decoder α) : Decoder α := fun terms d =>
  (·.getD default) <$> optional inner terms d

def each (inner : Decoder α) (terms : Terms) : List Document → Except DecodeError (List α)
  | [] => .ok []
  | d :: ds => do
    let a ← inner terms d
    let rest ← each inner terms ds
    .ok (a :: rest)

def listOf (inner : Decoder α) : Decoder (List α) := fun terms d =>
  match d.untagged with
  | .list items => enter terms fun terms => each inner terms items
  | .plain s => if s.isEmpty then .ok [] else .error .mismatch
  | d => .error (fault d)

def entries (inner : Decoder α) (terms : Terms) :
    List (Document × Document) → Except DecodeError (List (String × α))
  | [] => .ok []
  | (k, v) :: rest => do
    let key ← text terms k
    let value ← inner terms v
    let others ← entries inner terms rest
    .ok ((key, value) :: others)

/-- A record with any keys; of a repeated key the last value stays. -/
def tableOf (inner : Decoder α) : Decoder (Table α) := fun terms d =>
  match d.untagged with
  | .record fields => enter terms fun terms => Table.ofList <$> entries inner terms fields
  | .plain s => if s.isEmpty then .ok {} else .error .mismatch
  | d => .error (fault d)

/-- One of a fixed set of names. A name may also be given as a tag, or in JSON as the one key of a
record, with nothing beside it. -/
def oneOf (names : String → Option α) : Decoder α := fun terms d =>
  let named (s : String) : Except DecodeError α :=
    match names s with
    | some a => .ok a
    | none => .error .mismatch
  match d with
  | .text s => named s
  | .plain s => named s
  | .record [(.text s, .null)] => enter terms fun _ => named s
  | .tagged tag inner =>
    match tag.toList with
    | '!' :: c :: cs => match inner with
      | .plain s => if s.isEmpty || isNullWord s then named (String.ofList (c :: cs)) else .error .mismatch
      | d => .error (fault d)
    | _ => match scalarText? inner with
      | some s => named s
      | none => .error (fault inner)
  | d => .error (fault d)

end Decoder

/-- A model of which nothing is known but how it is read and written. -/
structure Codec (α : Type) where
  decode : Decoder α
  toDocument : α → Document

/-- A model with named fields. -/
structure Shape (σ : Type) where
  /-- The fields in declared order. -/
  fields : List String
  /-- The value before any field is set. -/
  initial : σ
  set : (terms : Terms) → (field : String) → Document → σ → Except DecodeError σ
  /-- The fields that a record must give. -/
  required : List String := []
  /-- The fields that a list must reach. -/
  listed : List String := required
  /-- No other fields are allowed. -/
  closed : Bool := false
  /-- A list of the fields may stand for the record, where the terms allow it. -/
  lists : Bool := true
  /-- A field may be given again, and the last value stays. -/
  repeats : Bool := false

namespace Shape

open Document

variable {σ : Type}

/-- Sets the fields of a record from its first to its last; `seen` are those already set. -/
def setFields (shape : Shape σ) (terms : Terms) :
    (seen : List String) → List (Document × Document) → σ → Except DecodeError (List String × σ)
  | seen, [], s => .ok (seen, s)
  | seen, (k, v) :: rest, s => do
    let key ← Decoder.text terms k
    if shape.fields.contains key then
      if seen.contains key && !shape.repeats then .error (.repeated key)
      else do
        let s ← shape.set terms key v s
        shape.setFields terms (key :: seen) rest s
    else if shape.closed then .error (.unknown key)
    else do
      Decoder.ignored v
      shape.setFields terms seen rest s

def ofFields (shape : Shape σ) (terms : Terms) (fields : List (Document × Document)) :
    Except DecodeError σ := do
  let (seen, s) ← shape.setFields terms [] fields shape.initial
  match shape.required.find? fun f => !seen.contains f with
  | some f => .error (.missing f)
  | none => .ok s

def ofItems (shape : Shape σ) (terms : Terms) :
    (fields : List String) → List Document → σ → Except DecodeError σ
  | fields, [], s =>
    match fields.find? fun f => shape.listed.contains f with
    | some f => .error (.missing f)
    | none => .ok s
  | [], _ :: _, _ => .error .mismatch
  | f :: fields, d :: ds, s => do
    let s ← shape.set terms f d s
    shape.ofItems terms fields ds s

def decode (shape : Shape σ) : Decoder σ := fun terms d =>
  match d.untagged with
  | .record fields => Decoder.enter terms fun terms => shape.ofFields terms fields
  | .list items =>
    if shape.lists && terms.lists then
      Decoder.enter terms fun terms => shape.ofItems terms shape.fields items shape.initial
    else .error .mismatch
  | .plain s => if s.isEmpty then shape.ofFields terms [] else .error .mismatch
  | d => .error (Decoder.fault d)

end Shape

end EventWorker
