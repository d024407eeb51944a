import EventWorker.Document.Decode
import EventWorker.Document.Json
import EventWorker.Document.Yaml

/-!
# Decoding texts

A model from a text in JSON or YAML. A text in JSON is read to its end before it is decoded. In YAML
what comes first in the text is complained about first, be it a fault of the text or of the model,
and the text has to be a single document.
-/

namespace EventWorker.Decoder

open Document

variable {α : Type}

/-- What holds for a JSON text. -/
def jsonTerms : Terms :=
  { levels := 127, lists := true }

/-- What holds for a YAML text. -/
def yamlTerms : Terms :=
  { levels := 128, lists := false }

def ofJson (decoder : Decoder α) (s : String) : Except DecodeError α :=
  match ofJson? s with
  | some d => decoder jsonTerms d
  | none => .error .unreadable

def ofYaml (decoder : Decoder α) (s : String) : Except DecodeError α := do
  let (d, alone) := Document.ofYaml s
  let a ← decoder yamlTerms d
  if d.isWhole && alone then .ok a else .error .unreadable

end EventWorker.Decoder
