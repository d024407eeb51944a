import EventWorker.Document.Format
import EventWorker.Text.Blank
import EventWorker.Text.Lines

/-!
# Log lines

A body in which every line is an entry of a log. The log is the messages of the entries, each on a line
of its own. A line that is no entry is left out.
-/

namespace EventWorker.LogLines

open Decoder

/-- An entry has a message, and may say when it was made. -/
def entry : Shape String where
  fields := ["time", "message"]
  initial := ""
  set := fun terms field d s => do
    match field with
    | "message" => text terms d
    | _ => do
      discard (optional text terms d)
      return s
  required := ["message"]

def message? (line : String) : Option String :=
  if Text.isBlankText line then none else (entry.decode.ofJson line).toOption

/-- The log that a body holds. -/
def read (body : String) : String :=
  String.join (((Text.lines body).filterMap message?).map (· ++ "\n"))

end EventWorker.LogLines
