import EventWorker.Bus
import EventWorker.Document.Format
import EventWorker.Step

/-!
# Handler files

A handler file declares, in YAML, which step runs for the events of which source and type. A file is
accepted if it decodes, no two handlers are for the same events, and every job in it is properly
named. The handlers are checked in their order, each for the events it takes before its jobs.
-/

namespace EventWorker

open Decoder

structure HandlerDecl where
  source : String := ""
  type : String := ""
  run : Step Job := default
  deriving Inhabited

namespace HandlerDecl

def key (h : HandlerDecl) : EventKey :=
  (h.source, h.type)

def shape : Shape HandlerDecl where
  fields := ["source", "type", "run"]
  initial := {}
  set := fun terms field d h => do
    match field with
    | "source" => return { h with source := ← text terms d }
    | "type" => return { h with type := ← text terms d }
    | "run" => return { h with run := ← Step.decode terms d }
    | _ => return h
  required := ["source", "type", "run"]

end HandlerDecl

structure HandlerFile where
  handlers : List HandlerDecl := []
  deriving Inhabited

namespace HandlerFile

def shape : Shape HandlerFile where
  fields := ["handlers"]
  initial := {}
  set := fun terms field d f => do
    match field with
    | "handlers" => return { f with handlers := ← listOf HandlerDecl.shape.decode terms d }
    | _ => return f
  required := ["handlers"]

def decode : Decoder HandlerFile :=
  shape.decode

def checkJobs : List Job → Except ConfigError Unit
  | [] => .ok ()
  | j :: js => do
    j.validate.mapError .invalidJob
    checkJobs js

/-- Checks handlers that follow others with the keys `seen`. -/
def checkHandlers : (seen : List EventKey) → List HandlerDecl → Except ConfigError Unit
  | _, [] => .ok ()
  | seen, h :: hs => do
    if seen.contains h.key then
      throw (.invalid (h.source ++ "/" ++ h.type) "handler declared twice")
    checkJobs h.run.jobs
    checkHandlers (h.key :: seen) hs

def check (f : HandlerFile) : Except ConfigError Unit :=
  checkHandlers [] f.handlers

/-- The handlers that a text declares. -/
def parse (s : String) : Except ConfigError HandlerFile := do
  let f ← (Decoder.ofYaml decode s).mapError .handlers
  f.check
  return f

def jobCount (f : HandlerFile) : Nat :=
  (f.handlers.flatMap fun h => h.run.jobs).length

/-- Registers all handlers on a bus, each as what `handler` makes of its step. -/
def register {H : Type} (handler : Step Job → H) (f : HandlerFile) (bus : Bus H) : Bus H :=
  f.handlers.foldl (fun bus h => bus.on h.key (handler h.run)) bus

end HandlerFile

end EventWorker
