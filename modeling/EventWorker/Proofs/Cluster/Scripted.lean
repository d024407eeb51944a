import EventWorker.Cluster.Memory
import EventWorker.Proofs.Watch.Ledger

/-!
# Scripted units, polled and streamed

What a unit goes through may be scripted as phases that readings find one after another, or as a feed of
phases. A watcher that polls takes the former, a reading at every tick, and one that streams takes the
latter all at once; both stop at the first phase that is final. So from one and the same list they learn
the same, as long as there is time for the polling watcher to get there.

Both loops are followed on any source that yields the phases (`pollFrom_of_yields`,
`stream_of_subscribe`), and a cluster in memory is such a source (`yields_scripted`,
`subscribe_scripted`).

Main statement: `MemoryCluster.observe_scripted`.
-/

namespace EventWorker

namespace Source

variable {σ : Type}

/-- Readings one after another find these phases, each at once. -/
inductive Yields (source : Source σ) (u : UnitRef) : σ → List Phase → σ → Prop
  | nil (s : σ) : Yields source u s [] s
  | cons {s s' s'' : σ} {p : Phase} {phases : List Phase}
      (read : source.read u s = ({ result := .ok (some p) }, s')) (rest : Yields source u s' phases s'') :
      Yields source u s (p :: phases) s''

end Source

namespace Watch

variable {σ : Type} {source : Source σ} {u : UnitRef} {s s' : σ} {p : Phase} {before rest : List Phase}
  {interval timeout : Nat}

/-! ### Polling -/

/-- A phase that is found at once ends the observation if it is final. -/
theorem pollFrom_of_phase (hread : source.read u s = ({ result := .ok (some p) }, s')) (bound : Nat)
    {due ready : Nat} (h : max due ready < timeout) (ledger : Ledger) :
    pollFrom source u interval timeout (bound + 1) due ready ⟨s, ledger⟩ =
      if p.isFinal then (⟨.ok p, max due ready, false⟩, ⟨s', ledger.record u p⟩)
      else pollFrom source u interval timeout bound (due + interval) (max due ready)
        ⟨s', ledger.record u p⟩ := by
  have hlook : Seen.look (source.read u) ⟨s, ledger⟩ =
      ({ result := .ok (some p) }, ⟨s', ledger⟩) := by
    show ((source.read u s).1, (⟨(source.read u s).2, ledger⟩ : Seen σ)) = _
    rw [hread]
  rw [pollFrom, if_neg (Nat.not_le.2 h)]
  simp only [bind, StateT.bind, hlook, Nat.add_zero, if_neg (Nat.not_le.2 h)]
  cases hp : p.isFinal with
  | true => rfl
  | false => rfl

/-- **Polling takes one reading a tick up to the first final phase**, if there is time for them. -/
theorem pollFrom_of_yields (hyields : source.Yields u s (before ++ [p]) s')
    (hbefore : ∀ q ∈ before, q.isFinal = false) (hp : p.isFinal = true) {due ready bound : Nat}
    (hready : ready ≤ due) (htime : due + before.length * interval < timeout)
    (hbound : before.length < bound) (ledger : Ledger) :
    ∃ ledger', pollFrom source u interval timeout bound due ready ⟨s, ledger⟩ =
        (⟨.ok p, due + before.length * interval, false⟩, ⟨s', ledger'⟩) ∧
      ledger'.last? u = some p := by
  induction before generalizing s due ready bound ledger with
  | nil =>
    obtain ⟨bound, rfl⟩ := Nat.exists_eq_succ_of_ne_zero (Nat.ne_of_gt hbound)
    cases hyields with
    | cons hread hrest =>
      cases hrest
      rw [List.length_nil, Nat.zero_mul, Nat.add_zero] at htime ⊢
      rw [pollFrom_of_phase hread bound (by omega), if_pos hp, Nat.max_eq_left hready]
      exact ⟨_, rfl, ledger.last?_record_self u p⟩
  | cons q before ih =>
    obtain ⟨bound, rfl⟩ := Nat.exists_eq_succ_of_ne_zero (Nat.ne_of_gt (Nat.zero_lt_of_lt hbound))
    cases hyields with
    | cons hread hrest =>
      have hq : q.isFinal = false := hbefore q List.mem_cons_self
      rw [List.length_cons, Nat.succ_mul] at htime ⊢
      rw [pollFrom_of_phase hread bound (by omega), if_neg (by rw [hq]; exact Bool.false_ne_true),
        Nat.max_eq_left hready]
      have htime' : due + interval + before.length * interval < timeout := by omega
      obtain ⟨ledger', hpoll, hlast⟩ := ih hrest (fun r hr => hbefore r (List.mem_cons_of_mem q hr))
        (Nat.le_add_right due interval) htime' (Nat.lt_of_succ_lt_succ hbound) (ledger.record u q)
      refine ⟨ledger', ?_, hlast⟩
      rw [hpoll]
      congr 2
      omega

/-! ### Streaming -/

/-- The items of a feed that yields phases at once. -/
def atOnce (phases : List Phase) : List (Nat × Except ClusterError Phase) :=
  phases.map fun p => (0, .ok p)

/-- **A feed is followed up to the first final phase.** -/
theorem follow_atOnce (hbefore : ∀ q ∈ before, q.isFinal = false) (hp : p.isFinal = true)
    (rest : List Phase) (held progress : Bool) {time : Nat} (htime : time < timeout)
    (ledger : Ledger) :
    ∃ ledger', follow u timeout held progress time (atOnce (before ++ p :: rest)) ⟨s, ledger⟩ =
        (.final p time, ⟨s, ledger'⟩) ∧
      ledger'.last? u = some p := by
  have hlate : ¬ time + 0 ≥ timeout := Nat.not_le.2 htime
  induction before generalizing progress ledger with
  | nil =>
    refine ⟨_, ?_, ledger.last?_record_self u p⟩
    simp only [List.nil_append, atOnce, List.map_cons, follow, if_neg hlate, hp, if_true]
    rfl
  | cons q before ih =>
    have hq : q.isFinal = false := hbefore q List.mem_cons_self
    obtain ⟨ledger', hfollow, hlast⟩ :=
      ih (fun r hr => hbefore r (List.mem_cons_of_mem q hr)) true (ledger.record u q)
    refine ⟨ledger', ?_, hlast⟩
    simp only [List.cons_append, atOnce, List.map_cons, follow, if_neg hlate, hq, Bool.false_eq_true,
      if_false]
    exact hfollow

/-- **Streaming takes one subscription** if that yields a final phase. -/
theorem stream_of_subscribe
    (hsubscribe : source.subscribe u s = (.ok { items := atOnce (before ++ p :: rest) }, s'))
    (hbefore : ∀ q ∈ before, q.isFinal = false) (hp : p.isFinal = true) (r : Reconnect)
    (fallible : Bool) (htime : 0 < timeout) (ledger : Ledger) :
    ∃ ledger', stream source r u fallible timeout ⟨s, ledger⟩ = (⟨.ok p, 0, false⟩, ⟨s', ledger'⟩) ∧
      ledger'.last? u = some p := by
  obtain ⟨bound, hbound⟩ : ∃ bound, (timeout + 1) * mostAtOnce = bound + 1 :=
    Nat.exists_eq_succ_of_ne_zero (Nat.mul_ne_zero (Nat.succ_ne_zero _) (by decide))
  have hlook : Seen.look (source.subscribe u) ⟨s, ledger⟩ =
      (.ok { items := atOnce (before ++ p :: rest) }, ⟨s', ledger⟩) := by
    show ((source.subscribe u s).1, (⟨(source.subscribe u s).2, ledger⟩ : Seen σ)) = _
    rw [hsubscribe]
  obtain ⟨ledger', hfollow, hlast⟩ :=
    follow_atOnce (s := s') (u := u) hbefore hp rest false false htime ledger
  refine ⟨ledger', ?_, hlast⟩
  rw [stream, hbound, streamFrom, if_neg (Nat.not_le.2 htime)]
  simp only [bind, StateT.bind, hlook, hfollow]
  rfl

end Watch

/-! ### A cluster in memory -/

namespace MemoryCluster

open Watch

variable {m : MemoryCluster} {u : UnitRef} {phases : List Phase}

theorem ofItems_phases (phases : List Phase) :
    Feed.ofItems (phases.map .phase) = { items := atOnce phases } := by
  induction phases with
  | nil => rfl
  | cons p phases ih =>
    rw [List.map_cons, Feed.ofItems, ih]
    rfl

/-- A subscription has taken the next feed, and these are left. -/
def withFeeds (m : MemoryCluster) (u : UnitRef) (later : List (List FeedItem)) : MemoryCluster :=
  { m with subscriptions := m.subscriptions + 1, feeds := m.feeds.insert u.name later }

/-- A reading has been made, and these phases are left, unless there has been only one. -/
def withPhases (m : MemoryCluster) (u : UnitRef) : List Phase → MemoryCluster
  | [] => { m with phaseReads := m.phaseReads + 1 }
  | left => { m with phaseReads := m.phaseReads + 1, phases := m.phases.insert u.name left }

/-- A feed that is scripted is what the next subscription gets. -/
theorem subscribe_scripted {later : List (List FeedItem)}
    (h : m.feeds.get? u.name = some (phases.map .phase :: later)) :
    ∃ m', cluster.source.subscribe u m = (.ok { items := atOnce phases }, m') ∧
      m'.subscriptions = m.subscriptions + 1 ∧ m'.phaseReads = m.phaseReads ∧ m'.logs = m.logs := by
  have hsubscribe : (subscribe u).run m = (.ok { items := atOnce phases }, m.withFeeds u later) := by
    simp only [subscribe, call, ExceptT.run, ExceptT.mk, h, ofItems_phases]
    rfl
  exact ⟨_, hsubscribe, rfl, rfl, rfl⟩

/-- A reading finds the first of the phases that are scripted, and takes it away unless it is the last. -/
theorem read_scripted {p : Phase} {rest : List Phase}
    (h : m.phases.get? u.name = some (p :: rest)) :
    ∃ m', cluster.source.read u m = ({ result := .ok (some p) }, m') ∧
      (rest ≠ [] → m'.phases.get? u.name = some rest) ∧
      m'.phaseReads = m.phaseReads + 1 ∧ m'.subscriptions = m.subscriptions ∧ m'.logs = m.logs := by
  have hread : ∀ {m'}, (readPhase u).run m = (.ok (some p), m') →
      cluster.source.read u m = ({ result := .ok (some p) }, m') := by
    intro m' hrun
    show Prod.map (fun r => ({ result := r } : Reading)) id ((readPhase u).run m) = _
    rw [hrun]
    rfl
  have hrun : (readPhase u).run m = (.ok (some p), m.withPhases u rest) := by
    simp only [readPhase, call, ExceptT.run, ExceptT.mk, h]
    cases rest <;> rfl
  cases rest with
  | nil => exact ⟨_, hread hrun, fun hne => absurd rfl hne, rfl, rfl, rfl⟩
  | cons q rest =>
    have hleft : (m.withPhases u (q :: rest)).phases.get? u.name = some (q :: rest) :=
      (Table.get?_insert _ _ _ _).trans (if_pos rfl)
    exact ⟨_, hread hrun, fun _ => hleft, rfl, rfl, rfl⟩

/-- Readings one after another find the phases that are scripted. -/
theorem yields_scripted {shown rest : List Phase} (h : m.phases.get? u.name = some (shown ++ rest)) :
    ∃ m', cluster.source.Yields u m shown m' ∧ m'.phaseReads = m.phaseReads + shown.length ∧
      m'.subscriptions = m.subscriptions ∧ m'.logs = m.logs := by
  induction shown generalizing m with
  | nil => exact ⟨m, .nil m, rfl, rfl, rfl⟩
  | cons p shown ih =>
    obtain ⟨m₁, hread, hleft, hreads, hsubscriptions, hlogs⟩ := read_scripted h
    cases shown with
    | nil => exact ⟨m₁, .cons hread (.nil m₁), hreads, hsubscriptions, hlogs⟩
    | cons q shown =>
      obtain ⟨m₂, hyields, hreads₂, hsubscriptions₂, hlogs₂⟩ :=
        ih (hleft (List.cons_ne_nil q (shown ++ rest)))
      refine ⟨m₂, .cons hread hyields, ?_, hsubscriptions₂.trans hsubscriptions, hlogs₂.trans hlogs⟩
      rw [hreads₂, hreads, List.length_cons (a := p)]
      omega

/-- The log that a watcher fetches depends on the last phase that it has seen. -/
theorem logs_eq {seen : Seen MemoryCluster} {p : Phase} (h : seen.ledger.last? u = some p) :
    (Watch.logs cluster.source u seen).1 =
      .ok (if p = .canceled then canceledLogs else (seen.source.logs.get? u.name).getD "") := by
  rw [Watch.logs_eq, h]
  by_cases hp : p = .canceled
  · rw [if_pos hp, if_pos (congrArg some hp)]
  · rw [if_neg hp, if_neg fun heq => hp (Option.some.inj heq)]
    rfl

/-- An observation of the unit has come to a phase, and the watcher remembers it. -/
structure Settles (u : UnitRef) (p : Phase) (observed : Verdict × Seen MemoryCluster) : Prop where
  outcome : observed.1.outcome = .ok p
  remembered : observed.2.ledger.last? u = some p

section Observed

variable {seen : Seen MemoryCluster} {p : Phase} {before rest : List Phase}
  (hbefore : ∀ q ∈ before, q.isFinal = false) (hp : p.isFinal = true) (fallible : Bool)

include hbefore hp

/-- A watcher that polls takes the phases up to the first final one. -/
theorem polling_scripted (hphases : seen.source.phases.get? u.name = some (before ++ p :: rest))
    {interval timeout : Duration} (hinterval : 0 < interval.millis)
    (htime : before.length * interval.millis < timeout.millis) :
    let observed := (Watcher.polling interval).observe cluster.source u fallible timeout seen
    Settles u p observed ∧ observed.2.source.phaseReads = seen.source.phaseReads + (before.length + 1) ∧
      observed.2.source.subscriptions = seen.source.subscriptions ∧
      observed.2.source.logs = seen.source.logs := by
  have hqueue : seen.source.phases.get? u.name = some ((before ++ [p]) ++ rest) := by
    rw [List.append_assoc]
    exact hphases
  obtain ⟨m, hyields, hreads, hsubscriptions, hlogs⟩ := yields_scripted hqueue
  have hbound : before.length < timeout.millis / interval.millis + 2 := by
    have hfits : before.length ≤ timeout.millis / interval.millis :=
      (Nat.le_div_iff_mul_le hinterval).2 (Nat.le_of_lt htime)
    omega
  have hticks : 0 + before.length * interval.millis < timeout.millis := by omega
  obtain ⟨ledger, hpoll, hlast⟩ :=
    pollFrom_of_yields hyields hbefore hp (Nat.le_refl 0) hticks hbound seen.ledger
  have hobserved : (Watcher.polling interval).observe cluster.source u fallible timeout seen =
      (⟨.ok p, 0 + before.length * interval.millis, false⟩, ⟨m, ledger⟩) := by
    show Watch.poll cluster.source interval.millis u timeout.millis seen = _
    rw [poll, if_neg (Nat.ne_of_gt hinterval)]
    exact hpoll
  rw [List.length_append] at hreads
  intro observed
  rw [show observed = _ from hobserved]
  exact ⟨⟨rfl, hlast⟩, hreads, hsubscriptions, hlogs⟩

/-- A watcher that streams gets them all from one subscription. -/
theorem streaming_scripted {later : List (List FeedItem)}
    (hfeeds : seen.source.feeds.get? u.name = some ((before ++ p :: rest).map .phase :: later))
    (r : Reconnect) {timeout : Duration} (htime : 0 < timeout.millis) :
    let observed := (Watcher.streaming r).observe cluster.source u fallible timeout seen
    Settles u p observed ∧ observed.2.source.subscriptions = seen.source.subscriptions + 1 ∧
      observed.2.source.phaseReads = seen.source.phaseReads ∧
      observed.2.source.logs = seen.source.logs := by
  obtain ⟨m, hsubscribe, hsubscriptions, hreads, hlogs⟩ := subscribe_scripted hfeeds
  obtain ⟨ledger, hstream, hlast⟩ :=
    stream_of_subscribe hsubscribe hbefore hp r fallible htime seen.ledger
  have hobserved : (Watcher.streaming r).observe cluster.source u fallible timeout seen =
      (⟨.ok p, 0, false⟩, ⟨m, ledger⟩) := hstream
  intro observed
  rw [show observed = _ from hobserved]
  exact ⟨⟨rfl, hlast⟩, hsubscriptions, hreads, hlogs⟩

end Observed

/-- **Polling and streaming come to the same** for a unit that is scripted with the same phases: the first
final one, if the polling watcher has the time to get there. -/
theorem observe_scripted {k : Nat} {p : Phase} (hk : phases[k]? = some p) (hp : p.isFinal = true)
    (hfirst : ∀ q ∈ phases.take k, q.isFinal = false) {interval timeout : Duration}
    (hinterval : 0 < interval.millis) (htime : k * interval.millis < timeout.millis)
    (r : Reconnect) (fallible : Bool) {here there : Seen MemoryCluster}
    (hphases : here.source.phases.get? u.name = some phases) {later : List (List FeedItem)}
    (hfeeds : there.source.feeds.get? u.name = some (phases.map .phase :: later)) :
    let polled := (Watcher.polling interval).observe cluster.source u fallible timeout here
    let streamed := (Watcher.streaming r).observe cluster.source u fallible timeout there
    Settles u p polled ∧ Settles u p streamed ∧
    (here.source.logs.get? u.name = there.source.logs.get? u.name →
      (Watch.logs cluster.source u polled.2).1 = (Watch.logs cluster.source u streamed.2).1) ∧
    polled.2.source.phaseReads = here.source.phaseReads + (k + 1) ∧
    polled.2.source.subscriptions = here.source.subscriptions ∧
    streamed.2.source.subscriptions = there.source.subscriptions + 1 ∧
    streamed.2.source.phaseReads = there.source.phaseReads := by
  have hsplit : phases = phases.take k ++ p :: phases.drop (k + 1) := by
    obtain ⟨hlt, rfl⟩ := List.getElem?_eq_some_iff.1 hk
    rw [← List.drop_eq_getElem_cons hlt, List.take_append_drop]
  have hlength : (phases.take k).length = k :=
    List.length_take_of_le (Nat.le_of_lt (List.getElem?_eq_some_iff.1 hk).1)
  rw [hsplit] at hphases hfeeds
  have hticks : (phases.take k).length * interval.millis < timeout.millis := by
    rw [hlength]
    exact htime
  obtain ⟨hpolled, hreads, hsubscriptions, hlogs⟩ :=
    polling_scripted hfirst hp fallible hphases hinterval hticks
  obtain ⟨hstreamed, hsubscriptions', hreads', hlogs'⟩ :=
    streaming_scripted hfirst hp fallible hfeeds r (Nat.zero_lt_of_lt htime)
  rw [hlength] at hreads
  refine ⟨hpolled, hstreamed, fun hsame => ?_, hreads, hsubscriptions, hsubscriptions', hreads'⟩
  rw [logs_eq hpolled.remembered, logs_eq hstreamed.remembered, hlogs, hlogs', hsame]

/-- A unit that is canceled, and is said to have succeeded after that. -/
def canceledCourse : List Phase :=
  [.pending, .running, .canceled, .succeeded]

def canceledUnit : UnitRef :=
  ⟨"ci", "build-run1", "build", "run1"⟩

/-- Three readings or one subscription tell that it is canceled, and there is just time for the three. -/
theorem observe_scripted_canceled :
    let polled := (Watcher.polling (.ofSeconds 1)).observe cluster.source canceledUnit true ⟨2001⟩
      { source := succeeding.scriptPhases "build-run1" canceledCourse }
    let streamed := (Watcher.streaming {}).observe cluster.source canceledUnit true ⟨2001⟩
      { source := succeeding.scriptFeed "build-run1" (canceledCourse.map .phase) }
    Settles canceledUnit .canceled polled ∧ Settles canceledUnit .canceled streamed ∧
    (Watch.logs cluster.source canceledUnit polled.2).1 =
      (Watch.logs cluster.source canceledUnit streamed.2).1 ∧
    polled.2.source.phaseReads = 3 ∧ streamed.2.source.subscriptions = 1 := by
  have hfirst : ∀ q ∈ canceledCourse.take 2, q.isFinal = false := by decide
  have hinterval : 0 < (Duration.ofSeconds 1).millis := by decide
  have htime : 2 * (Duration.ofSeconds 1).millis < (⟨2001⟩ : Duration).millis := by decide
  have hphases : ({ source := succeeding.scriptPhases "build-run1" canceledCourse } :
      Seen MemoryCluster).source.phases.get? canceledUnit.name = some canceledCourse :=
    (Table.get?_insert _ _ _ _).trans (if_pos rfl)
  have hfeeds : ({ source := succeeding.scriptFeed "build-run1" (canceledCourse.map .phase) } :
      Seen MemoryCluster).source.feeds.get? canceledUnit.name = some [canceledCourse.map .phase] :=
    (Table.get?_insert _ _ _ _).trans (if_pos rfl)
  obtain ⟨hpolled, hstreamed, hlogs, hreads, -, hsubscriptions, -⟩ :=
    observe_scripted (p := .canceled) rfl rfl hfirst hinterval htime {} true hphases hfeeds
  exact ⟨hpolled, hstreamed, hlogs rfl, hreads, hsubscriptions⟩

end MemoryCluster

end EventWorker
