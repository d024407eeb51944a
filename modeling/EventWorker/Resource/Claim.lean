import EventWorker.Resource.Metadata

/-!
# Volume claims

A claim asks the cluster for a persistent volume: how it may be accessed, how large it is, and of
which storage class.
-/

namespace EventWorker.Resource

open Decoder

/-- Amounts of resources by name, asked for and allowed at most. -/
structure Quantities where
  requests : Option (Table String) := none
  limits : Option (Table String) := none
  deriving Inhabited

def Quantities.toDocument (q : Quantities) : Document :=
  .present [("requests", q.requests.map (Document.ofTable .text)),
    ("limits", q.limits.map (Document.ofTable .text))]

def Quantities.decode : Decoder Quantities :=
  (shape ["requests", "limits"] fun terms field d q => do
    match field with
    | "requests" => return { q with requests := ← optional (tableOf text) terms d }
    | "limits" => return { q with limits := ← optional (tableOf text) terms d }
    | _ => return q).decode

structure ClaimSpec where
  accessModes : Option (List String) := none
  resources : Option Quantities := none
  storageClassName : Option String := none
  deriving Inhabited

def ClaimSpec.toDocument (s : ClaimSpec) : Document :=
  .present [("accessModes", s.accessModes.map .texts),
    ("resources", s.resources.map Quantities.toDocument),
    ("storageClassName", s.storageClassName.map .text)]

def ClaimSpec.decode : Decoder ClaimSpec :=
  (shape ["accessModes", "resources", "storageClassName"] fun terms field d s => do
    match field with
    | "accessModes" => return { s with accessModes := ← optional (listOf text) terms d }
    | "resources" => return { s with resources := ← optional Quantities.decode terms d }
    | "storageClassName" => return { s with storageClassName := ← optional text terms d }
    | _ => return s).decode

structure Claim where
  metadata : Metadata := {}
  spec : Option ClaimSpec := none
  deriving Inhabited

/-- The kind of resource that a claim is. -/
def Claim.kindName : String :=
  "PersistentVolumeClaim"

namespace Claim

def name (c : Claim) : String :=
  c.metadata.nameText

def toDocument (c : Claim) : Document :=
  .present [("apiVersion", some (.text "v1")), ("kind", some (.text kindName)),
    ("metadata", some c.metadata.toDocument), ("spec", c.spec.map ClaimSpec.toDocument)]

def decode : Decoder Claim :=
  (shape ["apiVersion", "kind", "metadata", "spec"] fun terms field d c => do
    match field with
    | "apiVersion" => do fixed "v1" terms d; return c
    | "kind" => do fixed kindName terms d; return c
    | "metadata" => return { c with metadata := ← orEmpty Metadata.decode terms d }
    | "spec" => return { c with spec := ← optional ClaimSpec.decode terms d }
    | _ => return c).decode

end Claim

end EventWorker.Resource
