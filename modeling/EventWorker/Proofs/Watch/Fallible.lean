import EventWorker.Proofs.Watch.Stream

/-!
# Fallible jobs

A streaming watcher takes a disruption for a success if the job that it watches is fallible. Two
observations of the same unit are compared here that differ in nothing else: a strict one, and a lenient
one for a fallible job. Up to the first disruption both do the same. With it the lenient observation is
over, so that it never subscribes again, and what subscriptions there would be left makes no difference.

* `Answers.disruptedIn_iff`: if there is a disruption in time at all, there is one of the first
  subscription.
* `stream_of_final`, `stream_of_late`, `stream_of_disrupted`: what comes of the first subscription.

Main statement: `Watcher.observe_fallible`.
-/

namespace EventWorker

namespace Answers

variable {answers : Answers} {r : Watch.Reconnect} {timeout : Nat}

/-- Before the time is up, a subscription is disrupted. As it has been opened, all before it have been
disrupted too, and none of them has come to a final phase. -/
def DisruptedIn (answers : Answers) (r : Watch.Reconnect) (timeout : Nat) : Prop :=
  ∃ n t after, answers.Opens r n t ∧ Fate.ofAnswer (answers n) = .disrupted after ∧ t + after < timeout

/-- Nothing comes of the first subscription before the time is up. -/
def NothingIn (answers : Answers) (timeout : Nat) : Prop :=
  ∀ after < timeout, Fate.ofAnswer (answers 0) ≠ .disrupted after ∧
    ∀ p, Fate.ofAnswer (answers 0) ≠ .final p after

/-- A first disruption is that of the first subscription, however often there is a next one. -/
theorem disruptedIn_iff : answers.DisruptedIn r timeout ↔
    ∃ after < timeout, Fate.ofAnswer (answers 0) = .disrupted after := by
  constructor
  · rintro ⟨n, t, after, hopens, hd, hlt⟩
    cases n with
    | zero =>
      obtain rfl := hopens.unique .first
      exact ⟨after, by omega, hd⟩
    | succ n =>
      obtain ⟨-, t', first, -, hfirst, hle⟩ := hopens.before 0 n.succ_pos
      exact ⟨first, by omega, hfirst⟩
  · rintro ⟨after, hlt, hd⟩
    exact ⟨0, 0, after, .first, hd, by omega⟩

/-- The first subscription is disrupted in time, or comes to a final phase in time, or neither. -/
theorem first_cases (answers : Answers) (timeout : Nat) :
    (∃ after < timeout, Fate.ofAnswer (answers 0) = .disrupted after) ∨
    (∃ after < timeout, ∃ p, Fate.ofAnswer (answers 0) = .final p after) ∨
    answers.NothingIn timeout := by
  by_cases hd : ∃ after < timeout, Fate.ofAnswer (answers 0) = .disrupted after
  · exact Or.inl hd
  by_cases hf : ∃ after < timeout, ∃ p, Fate.ofAnswer (answers 0) = .final p after
  · exact Or.inr (Or.inl hf)
  · refine Or.inr (Or.inr fun after hlt => ⟨fun h => hd ⟨after, hlt, h⟩, fun p h => ?_⟩)
    exact hf ⟨after, hlt, p, h⟩

end Answers

/-! ### What comes of the first subscription -/

namespace Watch

variable {σ : Type} {source : Source σ} {u : UnitRef} {r : Reconnect} {timeout : Nat} {start : Seen σ}

/-- An observation whose first pass comes to a verdict ends with it. -/
theorem stream_of_pass {fallible : Bool} {v : Verdict} {seen : Seen σ}
    (h : pass source u r timeout fallible 0 0 start = (.inl v, seen)) :
    stream source r u fallible timeout start = (v, seen) := by
  have hpos : (timeout + 1) * mostAtOnce ≠ 0 := Nat.mul_ne_zero (Nat.succ_ne_zero _) (by decide)
  obtain ⟨bound, hbound⟩ := Nat.exists_eq_succ_of_ne_zero hpos
  rw [stream, hbound, streamFrom_succ]
  simp only [bind, StateT.bind, h]
  rfl

/-- The first pass responds to what becomes of the first subscription. -/
theorem exists_first_pass (ht : 0 < timeout) :
    ∃ seen : Seen σ, seen.source = source.after u start.source 1 ∧
      ∀ fallible, pass source u r timeout fallible 0 0 start =
        respond u r timeout fallible 0 ((Fate.ofAnswer (source.answers u start.source 0)).within
          timeout 0 (productive (source.answers u start.source 0))) seen := by
  have hstart : start.source = source.after u start.source 0 := rfl
  obtain ⟨ledger, hpass⟩ := pass_eq (r := r) ht hstart
  exact ⟨_, rfl, fun fallible => hpass fallible 0⟩

/-- A final phase that comes in time is what every observation ends with. -/
theorem stream_of_final {p : Phase} {after : Nat}
    (hf : Fate.ofAnswer (source.answers u start.source 0) = .final p after) (ht : after < timeout) :
    ∃ seen : Seen σ, seen.source = source.after u start.source 1 ∧
      ∀ fallible, stream source r u fallible timeout start = (⟨.ok p, after, false⟩, seen) := by
  obtain ⟨seen, hseen, hpass⟩ := exists_first_pass (Nat.zero_lt_of_lt ht)
  refine ⟨seen, hseen, fun fallible => stream_of_pass ?_⟩
  rw [hpass, hf, Fate.within, Nat.zero_add, if_pos ht]
  rfl

/-- Where nothing comes of the first subscription in time, every observation waits for it until the time
is up. -/
theorem stream_of_late (hlate : (source.answers u start.source).NothingIn timeout) :
    ∃ seen : Seen σ, (∃ calls ≤ 1, seen.source = source.after u start.source calls) ∧
      ∀ fallible, stream source r u fallible timeout start =
        (⟨.ok .timedOut, timeout, true⟩, seen) := by
  by_cases hzero : timeout = 0
  · -- there is no time to subscribe even once
    refine ⟨(giveUp u timeout start).2, ⟨0, Nat.zero_le 1, rfl⟩, fun fallible => stream_of_pass ?_⟩
    rw [pass, if_pos (Nat.le_of_eq hzero)]
    rfl
  · obtain ⟨seen, hseen, hpass⟩ := exists_first_pass (Nat.pos_of_ne_zero hzero)
    have hend : (Fate.ofAnswer (source.answers u start.source 0)).within timeout 0
        (productive (source.answers u start.source 0)) = .late := by
      cases hf : Fate.ofAnswer (source.answers u start.source 0) with
      | final p after => exact if_neg fun hlt => (hlate after (by omega)).2 p hf
      | disrupted after => exact if_neg fun hlt => (hlate after (by omega)).1 hf
      | held => rfl
    refine ⟨(giveUp u timeout seen).2, ⟨1, Nat.le_refl 1, hseen⟩, fun fallible => stream_of_pass ?_⟩
    rw [hpass, hend]
    rfl

/-- The observation for a fallible job ends with the first disruption. -/
theorem stream_of_disrupted {after : Nat}
    (hd : Fate.ofAnswer (source.answers u start.source 0) = .disrupted after) (ht : after < timeout) :
    ∃ seen : Seen σ, seen.source = source.after u start.source 1 ∧
      stream source r u true timeout start = (⟨.ok .succeeded, after, false⟩, seen) := by
  obtain ⟨seen, hseen, hpass⟩ := exists_first_pass (Nat.zero_lt_of_lt ht)
  refine ⟨seen, hseen, stream_of_pass ?_⟩
  rw [hpass, hd, Fate.within, Nat.zero_add, if_pos ht]
  rfl

end Watch

/-! ### Lenient and strict observations -/

namespace Watcher

open Watch

variable {σ : Type} {source : Source σ} {u : UnitRef} {r : Reconnect} {timeout : Nat} {start : Seen σ}

/-- What a lenient observation is beside a strict one. -/
structure Lenient (source : Source σ) (u : UnitRef) (r : Reconnect) (timeout : Nat) (start : Seen σ)
    (lenient strict : Verdict × Seen σ) : Prop where
  /-- A disruption in time is a success, and the first one ends the observation. -/
  disrupted : (source.answers u start.source).DisruptedIn r timeout →
    ∃ after, Fate.ofAnswer (source.answers u start.source 0) = .disrupted after ∧
      lenient.1 = ⟨.ok .succeeded, after, false⟩
  /-- Without one it makes no difference that the job is fallible. -/
  otherwise : ¬ (source.answers u start.source).DisruptedIn r timeout → lenient = strict
  neverFails : ∃ p, lenient.1.outcome = .ok p
  /-- A final phase is not hidden, whichever it is. -/
  final : ∀ p, ∀ after < timeout,
    Fate.ofAnswer (source.answers u start.source 0) = .final p after →
      lenient.1 = ⟨.ok p, after, false⟩
  /-- Nor is it that the time was up before anything else came. -/
  late : (source.answers u start.source).NothingIn timeout →
    lenient.1 = ⟨.ok .timedOut, timeout, true⟩
  subscribesOnce : ∃ calls ≤ 1, lenient.2.source = source.after u start.source calls
  succeeds : strict.1.outcome = .ok .succeeded → lenient.1.outcome = .ok .succeeded

/-- **That a job is fallible only ever turns a disruption into a success.** Otherwise its observation is
the same as that of any other job, down to what is remembered of it. -/
theorem observe_fallible (source : Source σ) (u : UnitRef) (r : Reconnect) (timeout : Duration)
    (start : Seen σ) :
    Lenient source u r timeout.millis start ((streaming r).observe source u true timeout start)
      ((streaming r).observe source u false timeout start) := by
  show Lenient source u r timeout.millis start (stream source r u true timeout.millis start)
    (stream source r u false timeout.millis start)
  rcases (source.answers u start.source).first_cases timeout.millis with
    ⟨after, hlt, hd⟩ | ⟨after, hlt, p, hf⟩ | hlate
  · obtain ⟨seen, hseen, hlenient⟩ := stream_of_disrupted (r := r) hd hlt
    rw [hlenient]
    exact {
      disrupted := fun _ => ⟨after, hd, rfl⟩
      otherwise := fun hno => absurd (Answers.disruptedIn_iff.2 ⟨after, hlt, hd⟩) hno
      neverFails := ⟨.succeeded, rfl⟩
      final := fun p _ _ hf => absurd (hd.symm.trans hf) nofun
      late := fun hlate => absurd hd (hlate after hlt).1
      subscribesOnce := ⟨1, Nat.le_refl 1, hseen⟩
      succeeds := fun _ => rfl }
  · obtain ⟨seen, hseen, heither⟩ := stream_of_final (r := r) hf hlt
    rw [heither true, heither false]
    exact {
      disrupted := fun hin => by
        obtain ⟨t, -, hd⟩ := Answers.disruptedIn_iff.1 hin
        exact absurd (hf.symm.trans hd) nofun
      otherwise := fun _ => rfl
      neverFails := ⟨p, rfl⟩
      final := fun q t _ hq => by
        obtain ⟨rfl, rfl⟩ := Fate.final.inj (hf.symm.trans hq)
        rfl
      late := fun hlate => absurd hf ((hlate after hlt).2 p)
      subscribesOnce := ⟨1, Nat.le_refl 1, hseen⟩
      succeeds := id }
  · obtain ⟨seen, hcalls, heither⟩ := stream_of_late (r := r) hlate
    rw [heither true, heither false]
    exact {
      disrupted := fun hin => by
        obtain ⟨t, hlt, hd⟩ := Answers.disruptedIn_iff.1 hin
        exact absurd hd (hlate t hlt).1
      otherwise := fun _ => rfl
      neverFails := ⟨.timedOut, rfl⟩
      final := fun p t hlt hf => absurd hf ((hlate t hlt).2 p)
      late := fun _ => rfl
      subscribesOnce := hcalls
      succeeds := id }

end Watcher

end EventWorker
