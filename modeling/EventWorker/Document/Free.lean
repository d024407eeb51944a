import EventWorker.Document.Decode

/-!
# Values of no fixed type

Where a value may be of one form or of another, it is first taken as whatever it is and then
matched with the forms in turn. To be taken at all it has to be readable to its last corner
(`isFree`): every string a text, every number within range, no nesting beyond the levels left, no
tag of one's own. A scalar is a text only if it is no null, truth value or number (`freeText?`).
-/

namespace EventWorker.Document

/-- A tag that names a form of one's own rather than a type of the format. -/
def isOwnTag (tag : String) : Bool :=
  match tag.toList with
  | '!' :: _ :: _ => true
  | _ => false

def coreTag (name : String) : String :=
  "tag:yaml.org,2002:" ++ name

/-- The type of a scalar under a tag: four tags of the format ask for theirs, and under any other tag
a scalar is a text. -/
def taggedType? (tag : String) (s : String) : Option FreeType :=
  if tag = coreTag "bool" then (boolWord? s).map .truth
  else if tag = coreTag "int" then (integer? s).map fun (negative, n) => .integer negative n
  else if tag = coreTag "float" then if isFractionWord s then some .fraction else none
  else if tag = coreTag "null" then if isNullWord s then some .nothing else none
  else some (.word s)

/-- The type of a scalar, and `none` for anything else. -/
def scalarType? : Document → Option FreeType
  | null => some .nothing
  | bool b => some (.truth b)
  | number _ => some .fraction
  | text s => some (.word s)
  | plain s => some (freeType s)
  | tagged tag (plain s) => if isOwnTag tag then none else taggedType? tag s
  | tagged tag (text s) => if isOwnTag tag then none else taggedType? tag s
  | _ => none

mutual

/-- The value can be taken whatever it is. -/
def isFree : (levels : Nat) → Document → Bool
  | _, number s => (decimal? s.toList).any fun d => !d.isInfinite
  | _, halfPair => false
  | _, broken => false
  | _, endless => false
  | levels, list items => levels != 0 && areFree (levels - 1) items
  | levels, record fields => levels != 0 && fieldsFree (levels - 1) fields
  | levels, tagged tag d =>
    !isOwnTag tag && isFree levels d &&
      match d with
      | plain s => (taggedType? tag s).isSome
      | text s => (taggedType? tag s).isSome
      | _ => true
  | _, _ => true

def areFree : (levels : Nat) → List Document → Bool
  | _, [] => true
  | levels, d :: ds => isFree levels d && areFree levels ds

def fieldsFree : (levels : Nat) → List (Document × Document) → Bool
  | _, [] => true
  | levels, (k, v) :: fs => isFree levels k && isFree levels v && fieldsFree levels fs

end

/-- A scalar that is a text and nothing else. -/
def freeText? (d : Document) : Option String :=
  match scalarType? d with
  | some (.word s) => some s
  | _ => none

/-- The field that a key means: by name, or by its place in the declared order. -/
def freeKey? (names : List String) (d : Document) : Option String :=
  match scalarType? d with
  | some (.word s) => some s
  | some (.integer false n) => some (names[n]?.getD "")
  | _ => none

/-- The values of the named fields of a record taken as it is. A name given twice or a key that is
no name at all makes the record unusable. -/
def freeFields? (names : List String) (fields : List (Document × Document)) :
    Option (List (String × Document)) :=
  fields.foldlM (fun found (k, v) => do
    let key ← freeKey? names k
    if !names.contains key then some found
    else if found.any (·.1 == key) then none
    else some (found ++ [(key, v)])) []

end EventWorker.Document
