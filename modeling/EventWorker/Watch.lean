import EventWorker.Error
import EventWorker.Timeline
import EventWorker.UnitRef

/-!
# Watching units

A watcher observes a unit until it is in a final phase or its time is up, and fetches its log. It
remembers in a ledger the last phase of every unit that it has seen: a unit that was canceled before
it ran has no log, and a fixed text stands in its place.

There are two ways to observe. A polling watcher reads the phase at fixed intervals
(`Watch.poll`). A streaming watcher subscribes to the phases as they come, and subscribes again after
a disruption (`Watch.stream`). Both are told by a `Source` what becomes of a reading or a subscription
and how long it takes; times are milliseconds since the observation began.
-/

namespace EventWorker

/-! ## The ledger -/

/-- The last phase of each unit, the latest entry first. -/
abbrev Ledger := List (UnitRef × Phase)

namespace Ledger

def record (l : Ledger) (u : UnitRef) (p : Phase) : Ledger :=
  (u, p) :: l.filter (·.1 != u)

/-- The last phase of a unit. All four parts of its reference count. -/
def last? (l : Ledger) (u : UnitRef) : Option Phase :=
  l.lookup u

end Ledger

/-! ## Sources of phases -/

/-- One look at a unit: it may take time, and may find that the unit is not visible yet. -/
structure Reading where
  delay : Nat := 0
  result : Except ClusterError (Option Phase)

/-- What a subscription yields: phases and at most one fault at the end that counts, each after a
delay. A feed ends after its last item, or is held open without another one. -/
structure Feed where
  items : List (Nat × Except ClusterError Phase) := []
  held : Bool := false

/-- Where a watcher looks. A look may change what the next one finds. -/
structure Source (σ : Type) where
  read : UnitRef → StateM σ Reading
  subscribe : UnitRef → StateM σ (Except ClusterError Feed)
  logs : UnitRef → StateM σ (Except ClusterError String)

/-- A place to look at together with what has been seen there. -/
structure Seen (σ : Type) where
  source : σ
  ledger : Ledger := []

namespace Seen

variable {σ α : Type}

def look (f : StateM σ α) : StateM (Seen σ) α :=
  modifyGet fun s => let (a, source) := f s.source; (a, { s with source })

def record (u : UnitRef) (p : Phase) : StateM (Seen σ) Unit :=
  modify fun s => { s with ledger := s.ledger.record u p }

end Seen

/-! ## Observation -/

/-- The end of an observation. -/
structure Verdict where
  outcome : Except WatchError Phase
  /-- How long it took. -/
  elapsed : Nat
  /-- The time was up first. -/
  late : Bool := false

namespace Watch

variable {σ : Type}

/-- The time is up: so it is remembered. -/
def giveUp (u : UnitRef) (timeout : Nat) : StateM (Seen σ) Verdict := do
  Seen.record u .timedOut
  return { outcome := .ok .timedOut, elapsed := timeout, late := true }

/-- Reads at the time `due`, or when the reading before is done if that is later, and goes on every
`interval` until a reading decides. A reading that is not done in time is dropped. -/
def pollFrom (source : Source σ) (u : UnitRef) (interval timeout : Nat) :
    (bound : Nat) → (due ready : Nat) → StateM (Seen σ) Verdict
  | 0, _, _ => giveUp u timeout
  | bound + 1, due, ready => do
    let start := max due ready
    if start ≥ timeout then giveUp u timeout
    else
      let reading ← Seen.look (source.read u)
      let done := start + reading.delay
      if done ≥ timeout then giveUp u timeout
      else
        match reading.result with
        | .ok (some p) =>
          Seen.record u p
          if p.isFinal then return { outcome := .ok p, elapsed := done }
          else pollFrom source u interval timeout bound (due + interval) done
        | .ok none => pollFrom source u interval timeout bound (due + interval) done
        | .error e =>
          if e.isNotFound then pollFrom source u interval timeout bound (due + interval) done
          else return { outcome := .error (.cluster e), elapsed := done }

/-- Observes a unit by reading its phase at once and then at every interval. -/
def poll (source : Source σ) (interval : Nat) (u : UnitRef) (timeout : Nat) :
    StateM (Seen σ) Verdict :=
  if interval = 0 then
    return { outcome := .error (.task u.toText "the interval is zero"), elapsed := 0 }
  else pollFrom source u interval timeout (timeout / interval + 2) 0 0

/-- What comes of the items of a feed. -/
inductive FeedEnd where
  | final (phase : Phase) (time : Nat)
  | disrupted (progress : Bool) (time : Nat)
  | late

/-- Takes the items of a feed from a time on; `progress` tells whether it has yielded a phase. -/
def follow (u : UnitRef) (timeout : Nat) (held : Bool) : (progress : Bool) → (time : Nat) →
    List (Nat × Except ClusterError Phase) → StateM (Seen σ) FeedEnd
  | progress, time, [] => return if held then .late else .disrupted progress time
  | progress, time, (delay, item) :: items => do
    let time := time + delay
    if time ≥ timeout then return .late
    else
      match item with
      | .error _ => return .disrupted progress time
      | .ok p =>
        Seen.record u p
        if p.isFinal then return .final p time else follow u timeout held true time items

/-- How a streaming watcher subscribes again. -/
structure Reconnect where
  /-- How many disruptions without progress between them are put up with. -/
  max : Nat := 5
  delay : Duration := .ofSeconds 1
  deriving Inhabited

/-- Subscribes at a time when `count` disruptions have been put up with, and again after each one that
is. -/
def streamFrom (source : Source σ) (u : UnitRef) (reconnect : Reconnect) (fallible : Bool)
    (timeout : Nat) : (bound : Nat) → (count time : Nat) → StateM (Seen σ) Verdict
  | 0, _, _ => giveUp u timeout
  | bound + 1, count, time => do
    if time ≥ timeout then giveUp u timeout
    else
      let fate ← match ← Seen.look (source.subscribe u) with
        | .error _ => pure (FeedEnd.disrupted false time)
        | .ok feed => follow u timeout feed.held false time feed.items
      match fate with
      | .late => giveUp u timeout
      | .final p time => return { outcome := .ok p, elapsed := time }
      | .disrupted progress time =>
        if fallible then return { outcome := .ok .succeeded, elapsed := time }
        else
          let count := if progress then 0 else count
          if count ≥ reconnect.max then
            return { outcome := .error (.disrupted u.toText count), elapsed := time }
          else
            streamFrom source u reconnect fallible timeout bound (count + 1)
              (time + reconnect.delay.millis)

/-- How many subscriptions there may be in one millisecond, if no delay lies between them. -/
def mostAtOnce : Nat := UInt32.size

/-- Observes a unit by subscribing to its phases. -/
def stream (source : Source σ) (reconnect : Reconnect) (u : UnitRef) (fallible : Bool)
    (timeout : Nat) : StateM (Seen σ) Verdict :=
  streamFrom source u reconnect fallible timeout ((timeout + 1) * mostAtOnce) 0 0

/-- What the log of a canceled unit is given as. -/
def canceledLogs : String :=
  "Job was canceled before it was scheduled; no logs are available."

/-- The log of a unit. -/
def logs (source : Source σ) (u : UnitRef) : StateM (Seen σ) (Except WatchError String) := do
  if (← get).ledger.last? u = some .canceled then return .ok canceledLogs
  else return (← Seen.look (source.logs u)).mapError .cluster

end Watch

/-- The moment at which an observation that began at `start` is over. The observer is work of its own,
which is waited for; when the time is up it has to be called off first. -/
def Verdict.finish (v : Verdict) (start : Moment) : Moment :=
  let m := start.after v.elapsed
  if v.late || v.elapsed = 0 then m.next.next else m.next

/-- A way to observe units. -/
inductive Watcher where
  | polling (interval : Duration)
  | streaming (reconnect : Watch.Reconnect)
  deriving Inhabited

namespace Watcher

variable {σ : Type}

def defaultInterval : Duration := .ofSeconds 2

def observe (w : Watcher) (source : Source σ) (u : UnitRef) (fallible : Bool)
    (timeout : Duration) : StateM (Seen σ) Verdict :=
  match w with
  | .polling interval => Watch.poll source interval.millis u timeout.millis
  | .streaming reconnect => Watch.stream source reconnect u fallible timeout.millis

end Watcher

end EventWorker
