import Mathlib.Order.Basic
import EventWorker.Watch.Script

/-!
# Polling observations

A polling watcher reads the phase at every tick of a clock, and a reading that is slow lets ticks go by
that are then made up for. Here an observation is measured by a timetable that knows nothing of the
watcher (`Readings.start`, `Readings.finish`): a reading begins at its tick, or when the one before is
done if that is later. The first reading that decides anything (`Readings.Decides`) and the time that
there is determine the verdict, and which readings are made (`Polled`).

The watcher keeps a bound on the number of readings besides the time. Since the timetable is never ahead
of the ticks (`tick_le_start`), it is the time that runs out first. What stands before a reading
(`Awaiting`) stands before the next one, or else the verdict is the right one (`pollFrom_of_awaiting`).

Main statement: `Watcher.observe_polling`.
-/

namespace EventWorker

/-! ### Timetables -/

/-- What a reading settles, if anything: a phase that no other follows, or a fault other than that the
unit is not there yet. -/
def Reading.decision? (r : Reading) : Option (Except WatchError Phase) :=
  match r.result with
  | .ok none => none
  | .ok (some p) => if p.isFinal then some (.ok p) else none
  | .error e => if e.isNotFound then none else some (.error (.cluster e))

/-- What readings one after another are answered with. -/
abbrev Readings := Nat → Reading

namespace Readings

variable (readings : Readings) (interval : Nat)

/-- When a reading begins, if there is one: at its tick, or when the one before is done if that is
later. -/
def start : Nat → Nat
  | 0 => 0
  | k + 1 => max ((k + 1) * interval) (start k + (readings k).delay)

/-- When a reading is done. -/
def finish (k : Nat) : Nat :=
  readings.start interval k + (readings k).delay

/-- A reading is the first to decide anything. -/
structure Decides (n : Nat) (o : Except WatchError Phase) : Prop where
  decided : (readings n).decision? = some o
  first : ∀ k < n, (readings k).decision? = none

/-- A reading begins before another one is done. At one and the same time readings begin and are done in
their order. -/
def BeginsBefore (k n : Nat) : Prop :=
  readings.start interval k < readings.finish interval n ∨
    (readings.start interval k = readings.finish interval n ∧ k ≤ n)

theorem start_succ (k : Nat) :
    readings.start interval (k + 1) = max ((k + 1) * interval) (readings.finish interval k) :=
  rfl

theorem start_le_finish (k : Nat) : readings.start interval k ≤ readings.finish interval k :=
  Nat.le_add_right _ _

theorem finish_le_start_succ (k : Nat) :
    readings.finish interval k ≤ readings.start interval (k + 1) :=
  Nat.le_max_right _ _

/-- No reading begins before its tick. -/
theorem tick_le_start (k : Nat) : k * interval ≤ readings.start interval k := by
  cases k with
  | zero => simp [start]
  | succ k => exact Nat.le_max_left _ _

theorem start_mono {k n : Nat} (h : k ≤ n) : readings.start interval k ≤ readings.start interval n := by
  induction h with
  | refl => exact Nat.le_refl _
  | @step n _ ih =>
    have hfinish := readings.start_le_finish interval n
    have hnext := readings.finish_le_start_succ interval n
    exact Nat.le_trans ih (Nat.le_trans hfinish hnext)

/-- A reading that comes after another one begins when that one is done, or later. -/
theorem finish_le_start {k n : Nat} (h : k < n) : readings.finish interval k ≤ readings.start interval n := by
  have hnext := readings.finish_le_start_succ interval k
  have hmono := readings.start_mono interval (Nat.succ_le_of_lt h)
  exact Nat.le_trans hnext hmono

variable {readings interval} {k n : Nat} {o o' : Except WatchError Phase}

theorem beginsBefore_iff : readings.BeginsBefore interval k n ↔ k ≤ n := by
  constructor
  · rintro (hlt | ⟨-, hle⟩)
    · by_contra hgt
      have hfinish := readings.finish_le_start interval (Nat.lt_of_not_le hgt)
      omega
    · exact hle
  · intro hle
    have hmono := readings.start_mono interval hle
    have hfinish := readings.start_le_finish interval n
    unfold BeginsBefore
    omega

theorem Decides.unique (h : readings.Decides n o) (h' : readings.Decides k o') : n = k ∧ o = o' := by
  have hnot : ¬ k < n := fun hlt => by simpa [h'.decided] using h.first k hlt
  have hnot' : ¬ n < k := fun hlt => by simpa [h.decided] using h'.first n hlt
  obtain rfl : n = k := by omega
  have ho := h.decided
  rw [h'.decided] at ho
  exact ⟨rfl, (Option.some.inj ho).symm⟩

end Readings

namespace Source

variable {σ : Type}

/-- What is watched after `n` readings and nothing else. -/
def afterReadings (source : Source σ) (u : UnitRef) (s : σ) : Nat → σ
  | 0 => s
  | n + 1 => (source.read u (source.afterReadings u s n)).2

/-- What readings are answered with, if nothing else is done in between. -/
def readings (source : Source σ) (u : UnitRef) (s : σ) : Readings :=
  fun n => (source.read u (source.afterReadings u s n)).1

end Source

namespace Watch

variable {σ : Type} {source : Source σ} {u : UnitRef} {interval timeout : Nat} {s : σ} {k : Nat}
  {seen : Seen σ}

/-! ### A single reading -/

theorem look_of_afterReadings (h : seen.source = source.afterReadings u s k) :
    Seen.look (source.read u) seen = (source.readings u s k,
      { source := source.afterReadings u s (k + 1), ledger := seen.ledger }) := by
  show ((source.read u seen.source).1, { seen with source := (source.read u seen.source).2 }) = _
  rw [h]
  rfl

/-- Where there is no time left, the next reading is not made. -/
theorem pollFrom_of_le (bound : Nat) {due ready : Nat} (h : timeout ≤ max due ready) :
    pollFrom source u interval timeout bound due ready seen = giveUp u timeout seen := by
  cases bound with
  | zero => rfl
  | succ bound => rw [pollFrom, if_pos h]

/-- What is left to be done after a reading that is done at a time, in the state that it leaves. -/
def afterReading (source : Source σ) (u : UnitRef) (interval timeout bound due finish : Nat)
    (r : Reading) (seen : Seen σ) : Verdict × Seen σ :=
  if timeout ≤ finish then giveUp u timeout seen
  else match r.decision? with
    | some o => (⟨o, finish, false⟩, seen)
    | none => pollFrom source u interval timeout bound (due + interval) finish seen

/-- A reading settles the matter, or the next one follows. It may leave a phase in the ledger. -/
theorem pollFrom_of_lt (interval bound : Nat) {due ready : Nat} (h : max due ready < timeout)
    (hs : seen.source = source.afterReadings u s k) :
    ∃ ledger, pollFrom source u interval timeout (bound + 1) due ready seen =
      afterReading source u interval timeout bound due (max due ready + (source.readings u s k).delay)
        (source.readings u s k) { source := source.afterReadings u s (k + 1), ledger } := by
  rw [pollFrom, if_neg (Nat.not_le.2 h)]
  simp only [bind, StateT.bind, look_of_afterReadings hs]
  by_cases hdone : timeout ≤ max due ready + (source.readings u s k).delay
  · refine ⟨seen.ledger, ?_⟩
    rw [if_pos hdone, afterReading, if_pos hdone]
  · rw [if_neg hdone]
    simp only [afterReading, if_neg hdone, Reading.decision?]
    cases (source.readings u s k).result with
    | error e =>
      refine ⟨seen.ledger, ?_⟩
      cases he : e.isNotFound with
      | true => simp only [he, if_true]
      | false =>
        simp only [he, Bool.false_eq_true, if_false]
        rfl
    | ok phase =>
      cases phase with
      | none => exact ⟨seen.ledger, rfl⟩
      | some p =>
        refine ⟨seen.ledger.record u p, ?_⟩
        cases hp : p.isFinal with
        | true =>
          simp only [hp, if_true]
          rfl
        | false =>
          simp only [hp, Bool.false_eq_true, if_false]
          rfl

/-! ### Observations and the readings that they consist of -/

/-- What is known of an observation that has begun so many readings. -/
structure Polled (interval timeout : Nat) (readings : Readings) (calls : Nat) (v : Verdict) : Prop where
  /-- If a reading decides before the time is up, so does the observation. -/
  decided : ∀ n o, readings.Decides n o → readings.finish interval n < timeout →
    v = ⟨o, readings.finish interval n, false⟩
  timedOut : (∀ n o, readings.Decides n o → timeout ≤ readings.finish interval n) →
    v = ⟨.ok .timedOut, timeout, true⟩
  /-- A reading is begun unless the time is up or one has decided before. -/
  begun : ∀ k, k < calls ↔ readings.start interval k < timeout ∧
    ∀ n o, readings.Decides n o → readings.BeginsBefore interval k n
  /-- No reading begins after the end. -/
  inTime : ∀ k < calls, readings.start interval k ≤ v.elapsed
  final : ∀ p, v.outcome = .ok p → p.isFinal

/-- What stands before a reading that is the next after `k` others. -/
structure Awaiting (source : Source σ) (u : UnitRef) (interval timeout : Nat) (s : σ)
    (due ready : Nat) (seen : Seen σ) (k : Nat) : Prop where
  state : seen.source = source.afterReadings u s k
  tick : due = k * interval
  start : max due ready = (source.readings u s).start interval k
  undecided : ∀ j < k, ((source.readings u s) j).decision? = none
  begun : ∀ j < k, (source.readings u s).start interval j < timeout

variable {readings : Readings} {due ready : Nat}

namespace Polled

theorem of_decides {n : Nat} {o : Except WatchError Phase} (h : readings.Decides n o)
    (ht : readings.finish interval n < timeout) :
    Polled interval timeout readings (n + 1) ⟨o, readings.finish interval n, false⟩ where
  decided n' o' h' _ := by
    obtain ⟨rfl, rfl⟩ := h.unique h'
    rfl
  timedOut hlate := absurd ht (Nat.not_lt.2 (hlate n o h))
  begun k := by
    have hfinish := readings.start_le_finish interval n
    constructor
    · intro hk
      have hmono := readings.start_mono interval (Nat.le_of_lt_succ hk)
      refine ⟨by omega, fun n' o' h' => ?_⟩
      obtain ⟨rfl, -⟩ := h.unique h'
      exact Readings.beginsBefore_iff.2 (Nat.le_of_lt_succ hk)
    · rintro ⟨-, hbefore⟩
      exact Nat.lt_succ_of_le (Readings.beginsBefore_iff.1 (hbefore n o h))
  inTime k hk := by
    have hmono := readings.start_mono interval (Nat.le_of_lt_succ hk)
    exact Nat.le_trans hmono (readings.start_le_finish interval n)
  final p hp := by
    have hdecided := h.decided
    unfold Reading.decision? at hdecided
    obtain rfl : o = .ok p := hp
    split at hdecided
    · cases hdecided
    · next q _ =>
      split at hdecided
      · next hq =>
        obtain rfl : q = p := by simpa using hdecided
        exact hq
      · cases hdecided
    · split at hdecided <;> simp at hdecided

/-- The time is up after so many readings of which none has decided in time. -/
theorem of_late {calls : Nat} (hopen : ∀ k < calls, (readings k).decision? = none ∨
      timeout ≤ readings.finish interval k)
    (hbegun : ∀ k < calls, readings.start interval k < timeout)
    (hlate : timeout ≤ readings.start interval calls) :
    Polled interval timeout readings calls ⟨.ok .timedOut, timeout, true⟩ := by
  have hall : ∀ n o, readings.Decides n o → timeout ≤ readings.finish interval n := by
    intro n o h
    rcases Nat.lt_or_ge n calls with hlt | hge
    · rcases hopen n hlt with hnone | hle
      · simp [h.decided] at hnone
      · exact hle
    · have hmono := readings.start_mono interval hge
      exact Nat.le_trans hlate (Nat.le_trans hmono (readings.start_le_finish interval n))
  refine ⟨fun n o h ht => absurd ht (Nat.not_lt.2 (hall n o h)), fun _ => rfl, fun k => ⟨?_, ?_⟩,
    fun k hk => Nat.le_of_lt (hbegun k hk), fun p hp => ?_⟩
  · intro hk
    have hstart := hbegun k hk
    -- what decides too late is not done when this one begins
    exact ⟨hstart, fun n o h => Or.inl (Nat.lt_of_lt_of_le hstart (hall n o h))⟩
  · rintro ⟨hstart, -⟩
    by_contra hge
    have hmono := readings.start_mono interval (Nat.le_of_not_lt hge)
    omega
  · obtain rfl : Phase.timedOut = p := by simpa using hp
    rfl

end Polled

namespace Awaiting

/-- If the time is up before a reading, it is not begun. -/
theorem polled_of_le (h : Awaiting source u interval timeout s due ready seen k)
    (hle : timeout ≤ (source.readings u s).start interval k) :
    Polled interval timeout (source.readings u s) k ⟨.ok .timedOut, timeout, true⟩ :=
  .of_late (fun j hj => Or.inl (h.undecided j hj)) h.begun hle

/-- If the time is up during a reading, no other one is begun. -/
theorem polled_of_late (h : Awaiting source u interval timeout s due ready seen k)
    (hlt : (source.readings u s).start interval k < timeout)
    (hle : timeout ≤ (source.readings u s).finish interval k) :
    Polled interval timeout (source.readings u s) (k + 1) ⟨.ok .timedOut, timeout, true⟩ := by
  have hnext := Nat.le_trans hle ((source.readings u s).finish_le_start_succ interval k)
  refine .of_late (fun j hj => ?_) (fun j hj => ?_) hnext
  · rcases Nat.lt_succ_iff_lt_or_eq.1 hj with hjk | rfl
    · exact Or.inl (h.undecided j hjk)
    · exact Or.inr hle
  · rcases Nat.lt_succ_iff_lt_or_eq.1 hj with hjk | rfl
    · exact h.begun j hjk
    · exact hlt

/-- After a reading that decides nothing the next one is awaited, at the next tick or at once. -/
theorem next (h : Awaiting source u interval timeout s due ready seen k)
    (hlt : (source.readings u s).start interval k < timeout)
    (hnone : ((source.readings u s) k).decision? = none) (ledger : Ledger) :
    Awaiting source u interval timeout s (due + interval) ((source.readings u s).finish interval k)
      { source := source.afterReadings u s (k + 1), ledger } (k + 1) := by
  have htick : due + interval = (k + 1) * interval := by rw [h.tick, Nat.succ_mul]
  refine ⟨rfl, htick, by rw [htick, Readings.start_succ], fun j hj => ?_, fun j hj => ?_⟩
  · rcases Nat.lt_succ_iff_lt_or_eq.1 hj with hjk | rfl
    · exact h.undecided j hjk
    · exact hnone
  · rcases Nat.lt_succ_iff_lt_or_eq.1 hj with hjk | rfl
    · exact h.begun j hjk
    · exact hlt

end Awaiting

/-- **An observation comes to its verdict**, if the ticks that there may still be go beyond the time. -/
theorem pollFrom_of_awaiting (bound : Nat) :
    ∀ {due ready seen k}, Awaiting source u interval timeout s due ready seen k →
      timeout ≤ (k + bound) * interval →
      ∃ calls, (pollFrom source u interval timeout bound due ready seen).2.source =
          source.afterReadings u s calls ∧
        Polled interval timeout (source.readings u s) calls
          (pollFrom source u interval timeout bound due ready seen).1 := by
  induction bound with
  | zero =>
    intro due ready seen k h hbound
    have htick := (source.readings u s).tick_le_start interval k
    exact ⟨k, h.state, h.polled_of_le (Nat.le_trans hbound htick)⟩
  | succ bound ih =>
    intro due ready seen k h hbound
    by_cases hle : timeout ≤ max due ready
    · rw [pollFrom_of_le _ hle]
      exact ⟨k, h.state, h.polled_of_le (h.start ▸ hle)⟩
    · have hlt : (source.readings u s).start interval k < timeout := by
        rw [← h.start]
        exact Nat.lt_of_not_le hle
      obtain ⟨ledger, hpoll⟩ := pollFrom_of_lt interval bound (Nat.lt_of_not_le hle) h.state
      rw [hpoll, h.start]
      show ∃ calls, (afterReading source u interval timeout bound due
        ((source.readings u s).finish interval k) _ _).2.source = _ ∧ Polled _ _ _ _
          (afterReading source u interval timeout bound due
            ((source.readings u s).finish interval k) _ _).1
      by_cases hdone : timeout ≤ (source.readings u s).finish interval k
      · rw [afterReading, if_pos hdone]
        exact ⟨k + 1, rfl, h.polled_of_late hlt hdone⟩
      · rw [afterReading, if_neg hdone]
        cases hdec : ((source.readings u s) k).decision? with
        | some o =>
          exact ⟨k + 1, rfl, .of_decides ⟨hdec, h.undecided⟩ (Nat.lt_of_not_le hdone)⟩
        | none =>
          have hbound' : timeout ≤ (k + 1 + bound) * interval := by
            rw [Nat.add_right_comm]
            exact hbound
          exact ih (h.next hlt hdec ledger) hbound'

/-- So many ticks go beyond the time. -/
theorem le_ticks (hi : 0 < interval) (timeout : Nat) :
    timeout ≤ (0 + (timeout / interval + 2)) * interval := by
  have hdiv := Nat.lt_div_mul_add (a := timeout) hi
  have hmul : (0 + (timeout / interval + 2)) * interval =
      timeout / interval * interval + (interval + interval) := by
    rw [Nat.zero_add, Nat.add_mul, Nat.two_mul]
  rw [hmul]
  omega

end Watch

namespace Watcher

open Watch

variable {σ : Type}

/-- **Observing by readings** ends with the first reading that decides, or else with the time. Those
readings are made that the timetable has before the one and the other, and it is the same whether the
unit may fail or not. -/
theorem observe_polling (source : Source σ) (u : UnitRef) (interval timeout : Duration)
    (start : Seen σ) (hi : 0 < interval.millis) :
    ∃ calls, ∀ fallible,
      ((polling interval).observe source u fallible timeout start).2.source =
        source.afterReadings u start.source calls ∧
      Polled interval.millis timeout.millis (source.readings u start.source) calls
        ((polling interval).observe source u fallible timeout start).1 := by
  have hawaiting : Awaiting source u interval.millis timeout.millis start.source 0 0 start 0 :=
    ⟨rfl, (Nat.zero_mul _).symm, rfl, fun j hj => absurd hj (Nat.not_lt_zero j),
      fun j hj => absurd hj (Nat.not_lt_zero j)⟩
  obtain ⟨calls, hpolled⟩ := pollFrom_of_awaiting _ hawaiting (le_ticks hi timeout.millis)
  refine ⟨calls, fun fallible => ?_⟩
  have hobserve : (polling interval).observe source u fallible timeout start =
      pollFrom source u interval.millis timeout.millis (timeout.millis / interval.millis + 2) 0 0
        start := by
    show poll source interval.millis u timeout.millis start = _
    rw [poll, if_neg (Nat.pos_iff_ne_zero.1 hi)]
  rw [hobserve]
  exact hpolled

/-- The first reading takes two and a half ticks. The three after it make up for them. -/
def sluggish : Script where
  readings := [{ delay := 25, result := .ok (some .running) },
    { result := .error (.notFound "Pod" "build-run1") }, { result := .ok none },
    { delay := 4, result := .ok (some .succeeded) }]

/-- The second reading hangs. -/
def hanging : Script where
  readings := [{ delay := 5, result := .ok (some .pending) },
    { delay := 100, result := .ok (some .succeeded) }]

def sluggishUnit : UnitRef :=
  ⟨"ci", "build-run1", "build", "run1"⟩

/-- The fourth reading of the first script succeeds, and the second of the other one is too late. -/
theorem observe_sluggish :
    0 < (⟨10⟩ : Duration).millis ∧
      (∀ fallible, ((polling ⟨10⟩).observe Script.source sluggishUnit fallible ⟨1000⟩
          { source := sluggish }).1 = ⟨.ok .succeeded, 34, false⟩ ∧
        ((polling ⟨10⟩).observe Script.source sluggishUnit fallible ⟨1000⟩
          { source := sluggish }).2.source.looks = 4) ∧
      ∀ fallible, ((polling ⟨10⟩).observe Script.source sluggishUnit fallible ⟨50⟩
          { source := hanging }).1 = ⟨.ok .timedOut, 50, true⟩ ∧
        ((polling ⟨10⟩).observe Script.source sluggishUnit fallible ⟨50⟩
          { source := hanging }).2.source.looks = 2 := by
  have hi : 0 < (⟨10⟩ : Duration).millis := by decide
  refine ⟨hi, fun fallible => ?_, fun fallible => ?_⟩
  · have hdecides : (Script.source.readings sluggishUnit sluggish).Decides 3 (.ok .succeeded) :=
      ⟨rfl, by decide⟩
    obtain ⟨calls, hpolled⟩ :=
      observe_polling Script.source sluggishUnit ⟨10⟩ ⟨1000⟩ { source := sluggish } hi
    obtain ⟨hstate, hobserved⟩ := hpolled fallible
    have hv := hobserved.decided 3 _ hdecides (by decide)
    have hfourth : 3 < calls := (hobserved.begun 3).2 ⟨by decide, fun n o h => by
      obtain ⟨rfl, -⟩ := hdecides.unique h
      exact Readings.beginsBefore_iff.2 (Nat.le_refl 3)⟩
    have hfifth : ¬ 4 < calls := fun h =>
      absurd (Readings.beginsBefore_iff.1 (((hobserved.begun 4).1 h).2 3 _ hdecides)) (by decide)
    obtain rfl : calls = 4 := by omega
    refine ⟨hv, ?_⟩
    rw [hstate]
    rfl
  · have hdecides : (Script.source.readings sluggishUnit hanging).Decides 1 (.ok .succeeded) :=
      ⟨rfl, by decide⟩
    obtain ⟨calls, hpolled⟩ :=
      observe_polling Script.source sluggishUnit ⟨10⟩ ⟨50⟩ { source := hanging } hi
    obtain ⟨hstate, hobserved⟩ := hpolled fallible
    have hv := hobserved.timedOut fun n o h => by
      obtain ⟨rfl, -⟩ := hdecides.unique h
      decide
    have hsecond : 1 < calls := (hobserved.begun 1).2 ⟨by decide, fun n o h => by
      obtain ⟨rfl, -⟩ := hdecides.unique h
      exact Readings.beginsBefore_iff.2 (Nat.le_refl 1)⟩
    have hthird : ¬ 2 < calls := fun h => absurd ((hobserved.begun 2).1 h).1 (by decide)
    obtain rfl : calls = 2 := by omega
    refine ⟨hv, ?_⟩
    rw [hstate]
    rfl

end Watcher

end EventWorker
