import EventWorker.Resource.Metadata
import EventWorker.Text.Base64

/-!
# Secrets

A secret is a table of byte strings. Each is written in base64.
-/

namespace EventWorker.Resource

open Decoder

structure Secret where
  metadata : Metadata := {}
  kind : Option String := none
  data : Option (Table (List UInt8)) := none
  deriving Inhabited

def bytesDecoder : Decoder (List UInt8) := fun terms d => do
  match Text.Base64.decode? (← text terms d) with
  | some bytes => .ok bytes
  | none => .error .mismatch

namespace Secret

def toDocument (s : Secret) : Document :=
  .present [("apiVersion", some (.text "v1")), ("kind", some (.text "Secret")),
    ("metadata", some s.metadata.toDocument), ("type", s.kind.map .text),
    ("data", s.data.map (Document.ofTable fun bytes => .text (Text.Base64.encode bytes)))]

def decode : Decoder Secret :=
  (shape ["apiVersion", "kind", "metadata", "type", "data"] fun terms field d s => do
    match field with
    | "apiVersion" => do fixed "v1" terms d; return s
    | "kind" => do fixed "Secret" terms d; return s
    | "metadata" => return { s with metadata := ← orEmpty Metadata.decode terms d }
    | "type" => return { s with kind := ← optional text terms d }
    | "data" => return { s with data := ← optional (tableOf bytesDecoder) terms d }
    | _ => return s).decode

end Secret

end EventWorker.Resource
