/-!
# Timelines

Work that takes time and happens side by side, without a clock. An activity acts on a scene: the time
it is, the world it works on, and a log of what has happened when. Time passes only where an activity
waits, so an activity is a plain function and can be run as often as one likes.

Members of a group that run `together` all start at the same moment. Each is run to its end as if it
were alone, and time goes on from the end of the one that takes longest. The log is then no longer in
the order of time; `Scene.history` puts it in that order, and keeps the order of entries that belong
to the same moment.

Within one millisecond things happen in turns. Work that has been set off begins in the next turn, and
whoever waits for it goes on in the turn after its end. A group in which everybody waits lets others
go first, and once two of its members have done so a group leaves the members that have not begun for
a later turn, the later the deeper it stands in other groups (`Opening`).

What goes on side by side shares the world, and there it happens in the order in which it is run here,
whatever the moments are. A member of a group finds the world as the members before it in the list have left
it at their ends: of readings and failures that are laid down beforehand for all of them it takes those that
the others have left over; where several ask for one claim, the first in the list makes it, with the size
that it asks for; and what is stored twice under one name is stored as the last of them has it. Work that has
been set off is run to its end before whoever set it off goes on, so it finds and leaves the world in that
order as well, even if it ends after the volume of the run has been given back. The moments, the log and what
a member does to a part of the world that it has for itself do not depend on this.
-/

namespace EventWorker

structure Moment where
  millis : Nat := 0
  turn : Nat := 0
  deriving DecidableEq, Inhabited

namespace Moment

def le (a b : Moment) : Bool :=
  a.millis < b.millis || (a.millis == b.millis && a.turn ≤ b.turn)

def latest (a b : Moment) : Moment :=
  if a.le b then b else a

/-- The next turn of the same millisecond. -/
def next (m : Moment) : Moment :=
  { m with turn := m.turn + 1 }

/-- The moment at which a timer that is set now rings. No time at all needs no timer. -/
def after (m : Moment) (millis : Nat) : Moment :=
  if millis = 0 then m else ⟨m.millis + millis, 0⟩

theorem le_iff {a b : Moment} :
    a.le b ↔ a.millis < b.millis ∨ (a.millis = b.millis ∧ a.turn ≤ b.turn) := by
  simp only [le, Bool.or_eq_true, Bool.and_eq_true, decide_eq_true_eq, beq_iff_eq]

@[simp] theorem le_refl (m : Moment) : m.le m := by
  rw [le_iff]
  omega

theorem le_trans {a b c : Moment} (hab : a.le b) (hbc : b.le c) : a.le c := by
  rw [le_iff] at *
  omega

theorem le_of_not_le {a b : Moment} (h : ¬ a.le b) : b.le a := by
  rw [le_iff] at *
  omega

@[simp] theorem le_next (m : Moment) : m.le m.next := by
  rw [le_iff]
  exact Or.inr ⟨rfl, Nat.le_succ _⟩

/-- The next turn is a later one. -/
theorem not_le_of_next_le {a b : Moment} (h : a.next.le b) : ¬ b.le a := by
  rw [le_iff] at *
  simp only [next] at h
  omega

theorem le_after (m : Moment) (millis : Nat) : m.le (m.after millis) := by
  unfold after
  split
  · exact le_refl m
  · rw [le_iff]
    exact Or.inl (by show m.millis < m.millis + millis; omega)

theorem le_latest_left (a b : Moment) : a.le (a.latest b) := by
  unfold latest
  split
  · assumption
  · exact le_refl a

theorem le_latest_right (a b : Moment) : b.le (a.latest b) := by
  unfold latest
  split
  · exact le_refl b
  · exact le_of_not_le (by assumption)

end Moment

/-- What an activity acts on. -/
structure Scene (σ ε : Type) where
  now : Moment := {}
  world : σ
  log : List (Moment × ε) := []
  /-- How many groups stand around what is going on. -/
  depth : Nat := 0
  /-- The first millisecond in which a group has let others go first, since this was last forgotten. -/
  gaveWay : Option Nat := none

/-- The entries of the log in the order of time. -/
def Scene.history {σ ε : Type} (s : Scene σ ε) : List ε :=
  (s.log.mergeSort fun a b => a.1.le b.1).map (·.2)

/-- The entries of the log up to now. Work that nobody has waited for may have written later ones. -/
def Scene.past {σ ε : Type} (s : Scene σ ε) : Scene σ ε :=
  { s with log := s.log.filter fun e => e.1.le s.now }

abbrev Activity (σ ε α : Type) :=
  StateM (Scene σ ε) α

namespace Activity

variable {σ ε φ α : Type}

def now : Activity σ ε Moment :=
  return (← get).now

/-- Goes on at another moment. -/
def goTo (m : Moment) : Activity σ ε Unit :=
  modify fun s => { s with now := m }

def world : Activity σ ε σ :=
  return (← get).world

/-- Acts on the world in no time. -/
def act (f : σ → α × σ) : Activity σ ε α :=
  modifyGet fun s => let (a, world) := f s.world; (a, { s with world })

/-- Writes an entry into the log. -/
def emit (e : ε) : Activity σ ε Unit :=
  modify fun s => { s with log := s.log ++ [(s.now, e)] }

def emitAll : List ε → Activity σ ε Unit
  | [] => pure ()
  | e :: es => do
    emit e
    emitAll es

def sleep (millis : Nat) : Activity σ ε Unit := do
  goTo ((← now).after millis)

/-- Lets others go first. -/
def pause : Activity σ ε Unit := do
  goTo (← now).next

/-- Waits until a moment, and for a turn more if it is still to come. -/
def waitFor (m : Moment) : Activity σ ε Unit := do
  if !m.le (← now) then goTo m.next

/-- Sets off work that begins in the next turn, and goes on at once. Gives what the work came to and
when it ended. -/
def fork (work : Activity σ ε α) : Activity σ ε (α × Moment) := do
  let start ← now
  pause
  let a ← work
  let finish ← now
  goTo start
  return (a, finish)

/-- Runs work of its own and waits for its end. -/
def await (work : Activity σ ε α) : Activity σ ε α := do
  pause
  let a ← work
  pause
  return a

/-! ## Groups -/

/-- Runs members one after another up to the first that fails. -/
def inOrder : List (Activity σ ε (Except φ Unit)) → Activity σ ε (Except φ Unit)
  | [] => return .ok ()
  | m :: ms => do
    match ← m with
    | .ok () => inOrder ms
    | .error e => return .error e

/-- How the members of a group have begun. -/
structure Opening where
  /-- How many times two members have let others go first. -/
  waves : Nat := 0
  /-- One more member has let others go first. -/
  odd : Bool := false
  /-- A member is waiting for something. -/
  waiting : Bool := false
  /-- A member was done at once after another one had begun to wait. -/
  mixed : Bool := false

namespace Opening

/-- Takes note of a member: whether it was done at once, and whether it let others go first. -/
def add (o : Opening) (done gaveWay : Bool) : Opening :=
  if done then { o with odd := false, mixed := o.waiting }
  else
    { o with
      waves := if gaveWay && o.odd then o.waves + 1 else o.waves
      odd := o.odd != gaveWay
      waiting := true }

/-- Whether the group itself lets others go first. -/
def givesWay (o : Opening) : Bool :=
  o.waves != 0 || (o.waiting && !o.mixed)

/-- The moment at which the next member begins, where the group stands in `depth` others. -/
def next (o : Opening) (start : Moment) (depth : Nat) : Moment :=
  { start with turn := start.turn + o.waves * (depth + 1) }

end Opening

/-- Runs a member of a group from a moment on, with its end and whether it let others go first. -/
def member (start : Moment) (m : Activity σ ε α) : Activity σ ε (α × Moment × Bool) := do
  modify fun s => { s with now := start, depth := s.depth + 1, gaveWay := none }
  let a ← m
  modifyGet fun s =>
    ((a, s.now, s.gaveWay == some start.millis), { s with depth := s.depth - 1 })

/-- Runs each member of a group that began at `start`, and gives its result and its end. -/
def each (start : Moment) (o : Opening) : List (Activity σ ε α) →
    Activity σ ε (List (α × Moment) × Opening)
  | [] => return ([], o)
  | m :: ms => do
    let begun := o.next start (← get).depth
    let (a, finish, gaveWay) ← member begun m
    let (others, o) ← each start (o.add (finish == begun) gaveWay) ms
    return ((a, finish) :: others, o)

/-- Of the results that are failures the one that came first; of several at once the first in the
list. -/
def firstFailure : List (Except φ Unit × Moment) → Option (φ × Moment)
  | [] => none
  | (.ok (), _) :: rest => firstFailure rest
  | (.error e, m) :: rest =>
    match firstFailure rest with
    | some (e', m') => if m.le m' then some (e, m) else some (e', m')
    | none => some (e, m)

def latestOf (start : Moment) (results : List (α × Moment)) : Moment :=
  results.foldl (fun m r => m.latest r.2) start

/-- Runs members side by side and waits for all of them, also when some fail. -/
def together (members : List (Activity σ ε (Except φ Unit))) : Activity σ ε (Except φ Unit) := do
  let before ← get
  let start := before.now
  let (results, o) ← each start {} members
  modify fun s => { s with
    now := latestOf start results
    gaveWay := before.gaveWay.or (if o.givesWay then some start.millis else none) }
  match firstFailure results with
  | some (e, _) => return .error e
  | none => return .ok ()

/-- Pieces of `n` items in order, of one item if `n` is zero; the last piece may be shorter. -/
def chunks (n : Nat) : List α → List (List α)
  | [] => []
  | a :: as => (a :: as.take (n - 1)) :: chunks n (as.drop (n - 1))
termination_by items => items.length
decreasing_by
  simp only [List.length_drop, List.length_cons]
  omega

/-- Runs members in batches of `n`, one batch after another up to the first in which one fails. -/
def inBatches (n : Nat) (members : List (Activity σ ε (Except φ Unit))) :
    Activity σ ε (Except φ Unit) :=
  inOrder ((chunks n members).map together)

end Activity

end EventWorker
