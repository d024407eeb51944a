import EventWorker.Job

/-!
# Steps

What a handler runs: a job, or a group of steps. The members of a serial group run one after another,
those of a concurrent group together, and those of a batched group in batches of a limited size. A
step is a tree over whatever its leaves are; for a handler they are jobs.

A step is declared as a record with exactly one of four fields, the others absent or null.
-/

namespace EventWorker

inductive Step (α : Type) where
  | job (a : α)
  | serial (steps : List (Step α))
  | concurrent (steps : List (Step α))
  | batched (limit : Nat) (steps : List (Step α))
  deriving Inhabited

namespace Step

variable {α : Type}

mutual

/-- The leaves from left to right. -/
def jobs : Step α → List α
  | job a => [a]
  | serial steps => jobsOfAll steps
  | concurrent steps => jobsOfAll steps
  | batched _ steps => jobsOfAll steps

def jobsOfAll : List (Step α) → List α
  | [] => []
  | s :: rest => jobs s ++ jobsOfAll rest

end

mutual

def toDocument (f : α → Document) : Step α → Document
  | job a => .object [("job", f a)]
  | serial steps => .object [("serial", .list (toDocuments f steps))]
  | concurrent steps => .object [("concurrent", .list (toDocuments f steps))]
  | batched limit steps =>
    .object [("batched", .object [("max", .nat limit), ("steps", .list (toDocuments f steps))])]

def toDocuments (f : α → Document) : List (Step α) → List Document
  | [] => []
  | s :: rest => toDocument f s :: toDocuments f rest

end

mutual

/-- The tree on one line, given the names of its leaves. -/
def outline (name : α → String) : Step α → String
  | job a => name a
  | serial steps => "serial[" ++ outlines name steps ++ "]"
  | concurrent steps => "concurrent[" ++ outlines name steps ++ "]"
  | batched limit steps =>
    "batched(" ++ toString limit ++ ")[" ++ outlines name steps ++ "]"

def outlines (name : α → String) : List (Step α) → String
  | [] => ""
  | [s] => outline name s
  | s :: rest => outline name s ++ ", " ++ outlines name rest

end

/-! ## Declarations -/

/-- A batched group as declared. -/
structure BatchFields where
  limit : Nat := 1
  steps : List (Step Job) := []

/-- The fields of a step as declared. -/
structure Fields where
  job : Option Job := none
  serial : Option (List (Step Job)) := none
  concurrent : Option (List (Step Job)) := none
  batched : Option BatchFields := none

/-- Exactly one field has to be given. -/
def ofFields : Fields → Except DecodeError (Step Job)
  | ⟨some j, none, none, none⟩ => .ok (.job j)
  | ⟨none, some steps, none, none⟩ => .ok (.serial steps)
  | ⟨none, none, some steps, none⟩ => .ok (.concurrent steps)
  | ⟨none, none, none, some b⟩ => .ok (.batched b.limit b.steps)
  | ⟨none, none, none, none⟩ =>
    .error (.refused "step must be one of job, serial, concurrent or batched")
  | _ => .error (.refused "step declares more than one of job, serial, concurrent, batched")

open Decoder

/-- A batched group, given how to decode its members. -/
def batchShape (inner : Decoder (Step Job)) : Shape BatchFields where
  fields := ["maxConcurrent", "steps"]
  initial := {}
  set := fun terms field d b => do
    match field with
    | "maxConcurrent" => return { b with limit := ← natBelow UInt64.size terms d }
    | "steps" => return { b with steps := ← listOf inner terms d }
    | _ => return b
  required := ["steps"]

def shape (inner : Decoder (Step Job)) : Shape Fields where
  fields := ["job", "serial", "concurrent", "batched"]
  initial := {}
  set := fun terms field d f => do
    match field with
    | "job" => return { f with job := ← optional Job.decode terms d }
    | "serial" => return { f with serial := ← optional (listOf inner) terms d }
    | "concurrent" => return { f with concurrent := ← optional (listOf inner) terms d }
    | "batched" => return { f with batched := ← optional (batchShape inner).decode terms d }
    | _ => return f
  listed := ["job", "serial", "concurrent", "batched"]
  closed := true

/-- Decodes steps that nest less deep than the bound. -/
def decodeWithin : (bound : Nat) → Decoder (Step Job)
  | 0 => fun _ _ => .error .tooDeep
  | bound + 1 => fun terms d => do
    ofFields (← (shape (decodeWithin bound)).decode terms d)

/-- Every step takes a level of its own, so the levels bound the nesting of steps. -/
def decode : Decoder (Step Job) := fun terms d =>
  decodeWithin (terms.levels + 1) terms d

end Step

end EventWorker
