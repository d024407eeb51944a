import EventWorker.Document.Decode

/-!
# Metadata of cluster resources

The name, namespace and labels of a resource, and what all resources have in common when they are
written and read: fields without a value are left out, a missing or null field is the empty value, a
field given again replaces the earlier one, and a record is never given as a list of its fields.
-/

namespace EventWorker

def Document.ofTable {α : Type} (f : α → Document) (t : Table α) : Document :=
  .object (t.entries.map fun e => (e.1, f e.2))

namespace Resource

/-- A shape with the rules of cluster resources. -/
def shape {σ : Type} [Inhabited σ] (fields : List String)
    (set : Terms → String → Document → σ → Except DecodeError σ) : Shape σ where
  fields
  initial := default
  set
  lists := false
  repeats := true

/-- A text that has to be the given one where it is given at all. -/
def fixed (expected : String) : Decoder Unit := fun terms d => do
  let s ← Decoder.text terms d
  if s = expected then .ok () else .error .mismatch

structure Metadata where
  name : Option String := none
  namespaceName : Option String := none
  labels : Option (Table String) := none
  annotations : Option (Table String) := none
  deriving Inhabited

namespace Metadata

/-- The name, empty where there is none. -/
def nameText (m : Metadata) : String :=
  m.name.getD ""

def namespaceText (m : Metadata) : String :=
  m.namespaceName.getD "default"

def toDocument (m : Metadata) : Document :=
  .present [
    ("name", m.name.map .text),
    ("namespace", m.namespaceName.map .text),
    ("labels", m.labels.map (.ofTable .text)),
    ("annotations", m.annotations.map (.ofTable .text))]

def decode : Decoder Metadata :=
  (shape ["name", "namespace", "labels", "annotations"] fun terms field d m => do
    match field with
    | "name" => return { m with name := ← Decoder.optional Decoder.text terms d }
    | "namespace" => return { m with namespaceName := ← Decoder.optional Decoder.text terms d }
    | "labels" =>
      return { m with labels := ← Decoder.optional (Decoder.tableOf Decoder.text) terms d }
    | "annotations" =>
      return { m with annotations := ← Decoder.optional (Decoder.tableOf Decoder.text) terms d }
    | _ => return m).decode

end Metadata

end Resource

end EventWorker
