import EventWorker.Run.Backend
import EventWorker.Step

/-!
# Running jobs and steps

A job is submitted, observed until it is in a final phase, and reported on: that it has started, that
it was submitted, and what came of it. A step runs its jobs in the way its groups say. Nothing is
called off when a job fails; a serial group does not start what comes after it, nor a batched group
the batches after its own.
-/

namespace EventWorker

open Activity

namespace Step

variable {α σ ε φ : Type}

mutual

/-- Runs a step, given how to run a leaf. -/
def run (perform : α → Activity σ ε (Except φ Unit)) : Step α → Activity σ ε (Except φ Unit)
  | job a => perform a
  | serial steps => inOrder (runs perform steps)
  | concurrent steps => together (runs perform steps)
  | batched limit steps => inBatches limit (runs perform steps)

def runs (perform : α → Activity σ ε (Except φ Unit)) :
    List (Step α) → List (Activity σ ε (Except φ Unit))
  | [] => []
  | s :: rest => run perform s :: runs perform rest

end

end Step

namespace Job

variable {σ : Type}

/-- A job succeeds in one phase only. -/
def judge (j : Job) : Phase → Except JobError Unit
  | .succeeded => .ok ()
  | .timedOut => .error (.timedOut j.name j.timeout)
  | p => .error (.failed j.name p)

/-- Submits a job and waits for its end. The unit is given as soon as there is one. -/
def execute (b : Backend σ) (scope : RunScope) (j : Job) :
    Work σ (Option UnitRef × Except JobError Unit) := do
  match ← Work.see (b.submit j scope) with
  | .error e => return (none, .error e)
  | .ok u =>
    Work.report (.submitted j.name u.toText)
    match ← Work.see (b.observe j u) with
    | .error e => return (some u, .error e)
    | .ok p => return (some u, j.judge p)

/-- Runs a job and reports on it. -/
def schedule (b : Backend σ) (scope : RunScope) (j : Job) :
    Work σ (Option UnitRef × Except JobError Unit) := do
  let start ← now
  Work.report (.started j.name)
  let (unit, result) ← j.execute b scope
  let took : Duration := ⟨(← now).millis - start.millis⟩
  match result with
  | .ok () => Work.report (.completed j.name .succeeded took)
  | .error e => Work.report (.failed j.name e.message took)
  return (unit, result)

/-- Runs a job for its result alone. -/
def run (b : Backend σ) (scope : RunScope) (j : Job) : Work σ (Except JobError Unit) := do
  return (← j.schedule b scope).2

/-- The log of a job, given the unit that it was submitted as. -/
def logs (b : Backend σ) (j : Job) : Option UnitRef → Work σ (Except JobError String)
  | none => return .error (.notStarted j.name)
  | some u => Work.see (b.logs u)

end Job

end EventWorker
