import Mathlib.Logic.Function.Iterate
import EventWorker.Proofs.Related
import EventWorker.Watch

/-!
# The ledger decides about logs

A watcher observes many units at once, and all its observations write to the same ledger. What an observation
does is cut into steps here (`Observation`): it reads the phase, subscribes to it, learns of a phase, or finds
that its time is up. Observations that are begun at any time take their steps in any order, and logs are
fetched in between (`Lookout.course`). Left to itself, an observation comes to what `Watcher.observe` does
(`Observation.exists_iterate`).

Whether the log of a unit is asked for is decided by the last phase that has been sighted of it, whoever has
done so, where a time that was up counts as a phase. Only a step of an observation of the same unit, which
agrees in all four parts of the reference, makes a difference to that.

Main statement: `Watcher.logs_of_course`.
-/

namespace EventWorker

/-! ### The ledger -/

/-- What has been recorded of one unit does not change what is known of another. -/
theorem Ledger.last?_record (l : Ledger) (u : UnitRef) (p : Phase) (v : UnitRef) :
    (l.record u p).last? v = if u = v then some p else l.last? v := by
  show List.lookup v ((u, p) :: l.filter (·.1 != u)) = _
  rw [List.lookup_cons, lookup_filter_ne]
  by_cases h : u = v
  · subst h
    rw [beq_self_eq_true]
    exact (if_pos rfl).symm
  · rw [if_neg h, if_neg h, beq_eq_false_iff_ne.2 (Ne.symm h)]
    rfl

theorem Ledger.last?_record_self (l : Ledger) (u : UnitRef) (p : Phase) :
    (l.record u p).last? u = some p := by
  rw [last?_record, if_pos rfl]

/-- The reader of logs is asked unless the unit is known to be canceled. -/
theorem Watch.logs_eq {σ : Type} (source : Source σ) (u : UnitRef) (s : Seen σ) : logs source u s =
    if s.ledger.last? u = some .canceled then (.ok canceledLogs, s)
    else ((source.logs u s.source).1.mapError .cluster,
      { s with source := (source.logs u s.source).2 }) := by
  show (if s.ledger.last? u = some .canceled then _ else _ : StateM (Seen σ) _) s = _
  split <;> rfl

/-! ### Observations step by step -/

/-- What is still to come of an observation. -/
inductive Observation where
  | settled (v : Verdict)
  /-- The time is up. -/
  | late (timeout : Nat)
  | read (next : Reading → Observation)
  | subscribe (next : Except ClusterError Feed → Observation)
  /-- A phase has been read, or a subscription has delivered it. -/
  | sight (p : Phase) (next : Observation)

namespace Observation

variable {σ : Type} (source : Source σ) (u : UnitRef)

/-- All steps, one after another. -/
def run : Observation → StateM (Seen σ) Verdict
  | settled v => return v
  | late timeout => Watch.giveUp u timeout
  | read next => do run (next (← Seen.look (source.read u)))
  | subscribe next => do run (next (← Seen.look (source.subscribe u)))
  | sight p next => do
    Seen.record u p
    run next

/-- The next step. -/
def advance : Observation → StateM (Seen σ) Observation
  | settled v => return settled v
  | late timeout => return settled (← Watch.giveUp u timeout)
  | read next => return next (← Seen.look (source.read u))
  | subscribe next => return next (← Seen.look (source.subscribe u))
  | sight p next => do
    Seen.record u p
    return next

/-- The phase that is sighted in the next step, if it is one in which this happens. -/
def sighted? : Observation → Option Phase
  | late _ => some .timedOut
  | sight p _ => some p
  | _ => none

/-- Step by step an observation comes to what it does when it is run. -/
theorem exists_iterate (o : Observation) : ∀ s : Seen σ, ∃ n,
    (fun x : Observation × Seen σ => x.1.advance source u x.2)^[n] (o, s) =
      (settled (o.run source u s).1, (o.run source u s).2) := by
  induction o with
  | settled v => exact fun s => ⟨0, rfl⟩
  | late timeout => exact fun s => ⟨1, rfl⟩
  | read next ih =>
    intro s
    obtain ⟨n, hn⟩ := ih (source.read u s.source).1 (Seen.look (source.read u) s).2
    exact ⟨n + 1, hn⟩
  | subscribe next ih =>
    intro s
    obtain ⟨n, hn⟩ := ih (source.subscribe u s.source).1 (Seen.look (source.subscribe u) s).2
    exact ⟨n + 1, hn⟩
  | sight p next ih =>
    intro s
    obtain ⟨n, hn⟩ := ih (Seen.record u p s).2
    exact ⟨n + 1, hn⟩

/-- A step changes the ledger exactly if a phase is sighted in it. -/
theorem ledger_advance (o : Observation) (s : Seen σ) : (o.advance source u s).2.ledger =
    match o.sighted? with
    | some p => s.ledger.record u p
    | none => s.ledger := by
  cases o <;> rfl

/-! ### What a watcher does -/

/-- Reads from a time on, as a polling watcher does. -/
def pollFrom (interval timeout : Nat) : (bound : Nat) → (due ready : Nat) → Observation
  | 0, _, _ => late timeout
  | bound + 1, due, ready =>
    let start := max due ready
    if start ≥ timeout then late timeout
    else
      read fun reading =>
        let done := start + reading.delay
        if done ≥ timeout then late timeout
        else
          match reading.result with
          | .ok (some p) =>
            sight p <|
              if p.isFinal then settled { outcome := .ok p, elapsed := done }
              else pollFrom interval timeout bound (due + interval) done
          | .ok none => pollFrom interval timeout bound (due + interval) done
          | .error e =>
            if e.isNotFound then pollFrom interval timeout bound (due + interval) done
            else settled { outcome := .error (.cluster e), elapsed := done }

def poll (interval timeout : Nat) : Observation :=
  if interval = 0 then settled { outcome := .error (.task u.toText "the interval is zero"), elapsed := 0 }
  else pollFrom interval timeout (timeout / interval + 2) 0 0

/-- Takes the items of a feed, and goes on with what has come of them. -/
def follow (timeout : Nat) (held : Bool) (next : Watch.FeedEnd → Observation) :
    (progress : Bool) → (time : Nat) → List (Nat × Except ClusterError Phase) → Observation
  | progress, time, [] => next (if held then .late else .disrupted progress time)
  | progress, time, (delay, item) :: items =>
    let time := time + delay
    if time ≥ timeout then next .late
    else
      match item with
      | .error _ => next (.disrupted progress time)
      | .ok p =>
        sight p <|
          if p.isFinal then next (.final p time) else follow timeout held next true time items

/-- What comes after a feed, where `again` is to subscribe again after so many disruptions at a time. -/
def resume (reconnect : Watch.Reconnect) (fallible : Bool) (timeout : Nat)
    (again : (count time : Nat) → Observation) (count : Nat) : Watch.FeedEnd → Observation
  | .late => late timeout
  | .final p time => settled { outcome := .ok p, elapsed := time }
  | .disrupted progress time =>
    if fallible then settled { outcome := .ok .succeeded, elapsed := time }
    else
      let count := if progress then 0 else count
      if count ≥ reconnect.max then
        settled { outcome := .error (.disrupted u.toText count), elapsed := time }
      else again (count + 1) (time + reconnect.delay.millis)

/-- Subscribes from a time on, as a streaming watcher does. -/
def streamFrom (reconnect : Watch.Reconnect) (fallible : Bool) (timeout : Nat) :
    (bound : Nat) → (count time : Nat) → Observation
  | 0, _, _ => late timeout
  | bound + 1, count, time =>
    if time ≥ timeout then late timeout
    else
      let next := resume u reconnect fallible timeout (streamFrom reconnect fallible timeout bound) count
      subscribe fun
        | .error _ => next (.disrupted false time)
        | .ok feed => follow timeout feed.held next false time feed.items

def stream (reconnect : Watch.Reconnect) (fallible : Bool) (timeout : Nat) : Observation :=
  streamFrom u reconnect fallible timeout ((timeout + 1) * Watch.mostAtOnce) 0 0

variable {source u}

/-- What is to be run is decided before it is run. -/
theorem run_ite {c : Prop} [Decidable c] (o o' : Observation) :
    (if c then o else o').run source u = if c then o.run source u else o'.run source u := by
  split <;> rfl

theorem run_pollFrom (interval timeout bound : Nat) : ∀ due ready : Nat,
    (pollFrom interval timeout bound due ready).run source u =
      Watch.pollFrom source u interval timeout bound due ready := by
  induction bound with
  | zero => exact fun _ _ => rfl
  | succ bound ih =>
    intro due ready
    rw [pollFrom, Watch.pollFrom]
    dsimp only
    rw [run_ite]
    refine congrArg (ite _ _) ?_
    rw [run]
    refine congrArg _ (funext fun reading => ?_)
    rw [run_ite]
    refine congrArg (ite _ _) ?_
    cases reading.result with
    | error e =>
      dsimp only
      rw [run_ite, ih]
      rfl
    | ok phase? =>
      cases phase? with
      | none => exact ih _ _
      | some p =>
        dsimp only
        rw [run, run_ite, ih]
        rfl

theorem run_poll (interval timeout : Nat) :
    (poll u interval timeout).run source u = Watch.poll source interval u timeout := by
  rw [poll, Watch.poll, run_ite, run_pollFrom]
  rfl

theorem run_follow (timeout : Nat) (held : Bool) (next : Watch.FeedEnd → Observation)
    (items : List (Nat × Except ClusterError Phase)) : ∀ (progress : Bool) (time : Nat),
    (follow timeout held next progress time items).run source u =
      Watch.follow u timeout held progress time items >>= fun fate => (next fate).run source u := by
  induction items with
  | nil => exact fun _ _ => rfl
  | cons item items ih =>
    obtain ⟨delay, item⟩ := item
    intro progress time
    cases item with
    | error e =>
      rw [follow, Watch.follow, run_ite]
      split <;> rfl
    | ok p =>
      rw [follow, Watch.follow, run_ite]
      split
      · rfl
      · rw [run, run_ite, ih, bind_assoc]
        refine congrArg _ (funext fun _ => ?_)
        split <;> rfl

theorem run_streamFrom (reconnect : Watch.Reconnect) (fallible : Bool) (timeout bound : Nat) :
    ∀ count time : Nat, (streamFrom u reconnect fallible timeout bound count time).run source u =
      Watch.streamFrom source u reconnect fallible timeout bound count time := by
  induction bound with
  | zero => exact fun _ _ => rfl
  | succ bound ih =>
    intro count time
    rw [streamFrom, Watch.streamFrom]
    dsimp only
    rw [run_ite]
    refine congrArg (ite _ _) ?_
    rw [run]
    refine congrArg _ (funext fun subscribed => ?_)
    cases subscribed with
    | error e =>
      dsimp only
      rw [pure_bind, resume]
      dsimp only
      rw [run_ite, run_ite, ih]
      rfl
    | ok feed =>
      dsimp only
      rw [run_follow]
      refine congrArg _ (funext fun fate => ?_)
      cases fate with
      | late => rfl
      | final p time => rfl
      | disrupted progress time =>
        rw [resume]
        dsimp only
        rw [run_ite, run_ite, ih]
        rfl

theorem run_stream (reconnect : Watch.Reconnect) (fallible : Bool) (timeout : Nat) :
    (stream u reconnect fallible timeout).run source u =
      Watch.stream source reconnect u fallible timeout :=
  run_streamFrom reconnect fallible timeout _ 0 0

/-! ### What is sighted -/

/-- What a reading has answered, as far as it counts. -/
def ofReading (r : Reading) : List (Except ClusterError Phase) :=
  match r.result with
  | .ok (some p) => [.ok p]
  | _ => []

/-- What a subscription delivers, in this order. -/
def ofFeed : Except ClusterError Feed → List (Except ClusterError Phase)
  | .ok feed => feed.items.map (·.2)
  | .error e => [.error e]

/-- No phase is next. -/
def Exhausted (given : List (Except ClusterError Phase)) : Prop :=
  ∀ p, given.head? ≠ some (.ok p)

theorem exhausted_nil : Exhausted [] :=
  fun _ h => by cases h

/-- Of what has been given to the observation it takes one phase after another, up to one that is final, and
sights it before it asks for more or comes to a verdict, unless its time is up. It sights nothing else. -/
def Candid : Observation → (given : List (Except ClusterError Phase)) → Prop
  | settled _, given => Exhausted given
  | late _, _ => True
  | read next, given => Exhausted given ∧ ∀ r, (next r).Candid (ofReading r)
  | subscribe next, given => Exhausted given ∧ ∀ answer, (next answer).Candid (ofFeed answer)
  | sight p next, given => ∃ rest, given = .ok p :: rest ∧ next.Candid (if p.isFinal then [] else rest)

theorem candid_pollFrom (interval timeout bound : Nat) : ∀ (due ready : Nat)
    {given : List (Except ClusterError Phase)}, Exhausted given →
    (pollFrom interval timeout bound due ready).Candid given := by
  induction bound with
  | zero => exact fun _ _ _ _ => trivial
  | succ bound ih =>
    intro due ready given hgiven
    rw [pollFrom]
    dsimp only
    split
    · trivial
    refine ⟨hgiven, fun reading => ?_⟩
    dsimp only
    split
    · trivial
    rw [ofReading]
    cases reading.result with
    | error e =>
      dsimp only
      split
      · exact ih _ _ exhausted_nil
      · exact exhausted_nil
    | ok phase? =>
      cases phase? with
      | none => exact ih _ _ exhausted_nil
      | some p =>
        refine ⟨[], rfl, ?_⟩
        split
        · exact exhausted_nil
        · exact ih _ _ exhausted_nil

theorem candid_follow (timeout : Nat) (held : Bool) {next : Watch.FeedEnd → Observation}
    (hlate : ∀ given, (next .late).Candid given)
    (hnext : ∀ fate given, Exhausted given → (next fate).Candid given)
    (items : List (Nat × Except ClusterError Phase)) : ∀ (progress : Bool) (time : Nat),
    (follow timeout held next progress time items).Candid (items.map (·.2)) := by
  induction items with
  | nil => exact fun _ _ => hnext _ _ exhausted_nil
  | cons item items ih =>
    obtain ⟨delay, item⟩ := item
    intro progress time
    rw [List.map_cons]
    cases item with
    | error e =>
      rw [follow]
      split
      · exact hlate _
      · exact hnext _ _ fun p h => by cases h
    | ok p =>
      rw [follow]
      split
      · exact hlate _
      · refine ⟨_, rfl, ?_⟩
        split
        · exact hnext _ _ exhausted_nil
        · exact ih _ _

theorem candid_streamFrom (reconnect : Watch.Reconnect) (fallible : Bool) (timeout bound : Nat) :
    ∀ (count time : Nat) {given : List (Except ClusterError Phase)}, Exhausted given →
      (streamFrom u reconnect fallible timeout bound count time).Candid given := by
  induction bound with
  | zero => exact fun _ _ _ _ => trivial
  | succ bound ih =>
    intro count time given hgiven
    have hresume : ∀ fate given, Exhausted given → (resume u reconnect fallible timeout
        (streamFrom u reconnect fallible timeout bound) count fate).Candid given := by
      intro fate given hgiven
      cases fate with
      | late => trivial
      | final p time => exact hgiven
      | disrupted progress time =>
        rw [resume]
        dsimp only
        split_ifs
        · exact hgiven
        · exact hgiven
        · exact ih _ _ hgiven
        · exact hgiven
        · exact ih _ _ hgiven
    rw [streamFrom]
    dsimp only
    split
    · trivial
    refine ⟨hgiven, fun answer => ?_⟩
    cases answer with
    | error e => exact hresume _ _ fun p h => by cases h
    | ok feed =>
      refine candid_follow timeout feed.held ?_ hresume feed.items _ _
      exact fun _ => trivial

end Observation

namespace Watcher

/-- What the watcher does to observe a unit. -/
def observation (w : Watcher) (u : UnitRef) (fallible : Bool) (timeout : Duration) : Observation :=
  match w with
  | .polling interval => .poll u interval.millis timeout.millis
  | .streaming reconnect => .stream u reconnect fallible timeout.millis

theorem run_observation {σ : Type} (w : Watcher) (source : Source σ) (u : UnitRef) (fallible : Bool)
    (timeout : Duration) :
    (w.observation u fallible timeout).run source u = w.observe source u fallible timeout := by
  cases w with
  | polling interval => exact Observation.run_poll interval.millis timeout.millis
  | streaming reconnect => exact Observation.run_stream reconnect fallible timeout.millis

/-- All that a watcher reads or is delivered is sighted, and nothing else is. -/
theorem candid_observation (w : Watcher) (u : UnitRef) (fallible : Bool) (timeout : Duration) :
    (w.observation u fallible timeout).Candid [] := by
  cases w with
  | polling interval =>
    show (Observation.poll u interval.millis timeout.millis).Candid []
    rw [Observation.poll]
    split
    · exact Observation.exhausted_nil
    · exact Observation.candid_pollFrom _ _ _ _ _ Observation.exhausted_nil
  | streaming reconnect =>
    exact Observation.candid_streamFrom reconnect fallible _ _ _ _ Observation.exhausted_nil

end Watcher

/-! ### Many observations -/

/-- A watcher at work. -/
structure Lookout (σ : Type) where
  seen : Seen σ
  /-- The observations that have been begun, each with its unit. -/
  observations : List (UnitRef × Observation) := []
  /-- The phases that have been sighted, the latest last. -/
  sightings : List (UnitRef × Phase) := []

namespace Lookout

/-- What may happen next. -/
inductive Move where
  | begin (u : UnitRef) (fallible : Bool) (timeout : Duration)
  /-- An observation takes its next step. -/
  | advance (i : Nat)
  | fetch (u : UnitRef)

variable {σ : Type} (w : Watcher) (source : Source σ)

/-- The phase of a unit that was sighted last. -/
def lastOf (x : Lookout σ) (u : UnitRef) : Option Phase :=
  (x.sightings.filter (·.1 = u)).getLast?.map (·.2)

def play (x : Lookout σ) : Move → Lookout σ
  | .begin u fallible timeout =>
    { x with observations := x.observations ++ [(u, w.observation u fallible timeout)] }
  | .advance i =>
    match x.observations[i]? with
    | none => x
    | some (u, o) =>
      let (o', seen) := o.advance source u x.seen
      { seen
        observations := x.observations.set i (u, o')
        sightings := x.sightings ++ (o.sighted?.map (u, ·)).toList }
  | .fetch u => { x with seen := (Watch.logs source u x.seen).2 }

/-- Moves one after another, where the ledger is empty at first. -/
def course (start : σ) (moves : List Move) : Lookout σ :=
  moves.foldl (play w source) { seen := { source := start } }

/-- The unit whose observation takes a step. -/
def Move.subject? (x : Lookout σ) : Move → Option UnitRef
  | .advance i => x.observations[i]?.map (·.1)
  | _ => none

/-- The ledger knows what has been sighted. -/
def Sound (x : Lookout σ) : Prop :=
  ∀ u, x.seen.ledger.last? u = x.lastOf u

theorem lastOf_append (x : Lookout σ) (u v : UnitRef) (p : Phase) :
    ({ x with sightings := x.sightings ++ [(u, p)] } : Lookout σ).lastOf v =
      if u = v then some p else x.lastOf v := by
  rw [lastOf, List.filter_append]
  by_cases h : u = v
  · rw [if_pos h, List.filter_cons_of_pos (by simpa using h), List.filter_nil, List.getLast?_concat]
    rfl
  · rw [if_neg h, List.filter_cons_of_neg (by simpa using h), List.filter_nil, List.append_nil]
    rfl

variable {w source}

theorem sound_play {x : Lookout σ} (h : x.Sound) (m : Move) : (x.play w source m).Sound := by
  cases m with
  | begin u fallible timeout => exact h
  | fetch u =>
    have hledger : (Watch.logs source u x.seen).2.ledger = x.seen.ledger := by
      rw [Watch.logs_eq]
      split <;> rfl
    intro v
    show (Watch.logs source u x.seen).2.ledger.last? v = x.lastOf v
    rw [hledger, h v]
  | advance i =>
    rw [play]
    split
    · exact h
    · next u o _ =>
      intro v
      show (o.advance source u x.seen).2.ledger.last? v =
        ({ x with sightings := x.sightings ++ (o.sighted?.map (u, ·)).toList } : Lookout σ).lastOf v
      rw [Observation.ledger_advance]
      cases o.sighted? with
      | none =>
        rw [Option.map_none, Option.toList_none, List.append_nil]
        exact h v
      | some p =>
        show (x.seen.ledger.record u p).last? v = _
        rw [Ledger.last?_record, h v]
        exact (lastOf_append x u v p).symm

theorem sound_course (start : σ) (moves : List Move) : (course w source start moves).Sound :=
  List.foldlRecOn moves (play w source) (fun _ => rfl) fun _ h m _ => sound_play h m

/-- Only a step of an observation of the unit makes a difference to what was sighted of it last. -/
theorem lastOf_play (x : Lookout σ) (m : Move) {u : UnitRef} (h : m.subject? x ≠ some u) :
    (x.play w source m).lastOf u = x.lastOf u := by
  cases m with
  | begin v fallible timeout => rfl
  | fetch v => rfl
  | advance i =>
    rw [Move.subject?] at h
    rw [play]
    split
    · rfl
    · next v o hi =>
      rw [hi, Option.map_some] at h
      have hne : v ≠ u := fun heq => h (congrArg some heq)
      show ({ x with sightings := x.sightings ++ (o.sighted?.map (v, ·)).toList } : Lookout σ).lastOf u = _
      cases o.sighted? with
      | none =>
        rw [Option.map_none, Option.toList_none, List.append_nil]
      | some p =>
        exact (lastOf_append x v u p).trans (if_neg hne)

end Lookout

open Lookout in
/-- **Whether a log is asked for is decided by what was sighted last.** Whatever observations have been begun
and however their steps and the fetching of logs have followed on each other: if the phase of the unit that
was sighted last is that it was canceled, where a time that was up counts as a phase, the fixed text is given
for its log, and whoever reads logs is not asked; otherwise they are, and their answer is given. No move
changes this for a unit other than the one that it is about. As to the observations, each sights the phases
that it reads or that are delivered to it, and no others, and if it takes its steps without others in
between, it does what the watcher does to observe the unit. -/
theorem Watcher.logs_of_course {σ : Type} (w : Watcher) (source : Source σ) (start : σ)
    (moves : List Move) :
    let x := course w source start moves
    (∀ u, (∀ reader, Watch.logs { source with logs := reader } u x.seen =
      (.ok Watch.canceledLogs, x.seen)) ↔ x.lastOf u = some .canceled) ∧
    (∀ u, Watch.logs source u x.seen =
      if x.lastOf u = some .canceled then (.ok Watch.canceledLogs, x.seen)
      else ((source.logs u x.seen.source).1.mapError .cluster,
        { x.seen with source := (source.logs u x.seen.source).2 })) ∧
    (∀ (m : Move) u, m.subject? x ≠ some u → (x.play w source m).lastOf u = x.lastOf u) ∧
    (∀ u fallible timeout, (w.observation u fallible timeout).Candid [] ∧ ∃ n,
      (fun y : Observation × Seen σ => y.1.advance source u y.2)^[n]
          (w.observation u fallible timeout, x.seen) =
        (.settled (w.observe source u fallible timeout x.seen).1,
          (w.observe source u fallible timeout x.seen).2)) := by
  intro x
  have hsound : x.Sound := sound_course start moves
  have hlogs : ∀ (source : Source σ) u, Watch.logs source u x.seen =
      if x.lastOf u = some .canceled then (.ok Watch.canceledLogs, x.seen)
      else ((source.logs u x.seen.source).1.mapError .cluster,
        { x.seen with source := (source.logs u x.seen.source).2 }) := fun source u => by
    rw [Watch.logs_eq, hsound u]
  refine ⟨fun u => ⟨fun h => ?_, fun h reader => ?_⟩, hlogs source, fun m u h => lastOf_play x m h,
    fun u fallible timeout => ?_⟩
  · by_contra hne
    -- a reader that always answers with an empty log gives it away
    have hempty := h fun _ => pure (.ok "")
    rw [hlogs, if_neg hne] at hempty
    exact absurd (Except.ok.inj (Prod.mk.inj hempty).1) (by decide)
  · rw [hlogs, if_pos h]
  · refine ⟨w.candid_observation u fallible timeout, ?_⟩
    rw [← w.run_observation source u fallible timeout]
    exact Observation.exists_iterate source u _ x.seen

end EventWorker
