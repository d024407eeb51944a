import EventWorker.Document.Free

/-!
# Environment values

The value of an environment variable is written out or is a reference to a key of a secret or of a
config map, resolved by the cluster. In a document the first is a text and the others are records of
one field that matters. The three forms are tried in this order, on a value taken as it is
(`Document.isFree`), and whatever else a record holds is left aside.
-/

namespace EventWorker

inductive EnvValue where
  | literal (value : String)
  | secretRef (name key : String)
  | configMapRef (name key : String)
  deriving DecidableEq, Inhabited

namespace EnvValue

open Document

def keyRefDocument (name key : String) : Document :=
  .object [("name", .text name), ("key", .text key)]

def toDocument : EnvValue → Document
  | literal value => .text value
  | secretRef name key => .object [("secretKeyRef", keyRefDocument name key)]
  | configMapRef name key => .object [("configMapKeyRef", keyRefDocument name key)]

/-- The name and the key of a reference, from a record or a list of the two. -/
def keyRef? (d : Document) : Option (String × String) :=
  match d.untagged with
  | .record fields => do
    let found ← freeFields? ["name", "key"] fields
    let name ← found.lookup "name" >>= freeText?
    let key ← found.lookup "key" >>= freeText?
    some (name, key)
  | .list [name, key] => do
    let name ← freeText? name
    let key ← freeText? key
    some (name, key)
  | _ => none

/-- The reference under the one field of the given name. -/
def refUnder? (field : String) (d : Document) : Option (String × String) :=
  match d.untagged with
  | .record fields => do
    let found ← freeFields? [field] fields
    found.lookup field >>= keyRef?
  | _ => none

def ofFree? (d : Document) : Option EnvValue :=
  match freeText? d with
  | some value => some (literal value)
  | none =>
    match refUnder? "secretKeyRef" d with
    | some (name, key) => some (secretRef name key)
    | none => (refUnder? "configMapKeyRef" d).map fun (name, key) => configMapRef name key

def decode : Decoder EnvValue := fun terms d =>
  if !isFree terms.levels d then .error (if d.isWhole then .mismatch else .unreadable)
  else
    match ofFree? d with
    | some v => .ok v
    | none => .error .mismatch

end EnvValue

end EventWorker
