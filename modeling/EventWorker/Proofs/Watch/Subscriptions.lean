import EventWorker.Watch

/-!
# Sequences of subscriptions

What comes of subscriptions that are opened one after another, if each is waited for as long as it
takes: told without a watcher and its loop, so that the loop can be measured by it.

* `Answers.Opens`: when a subscription is opened. After a disruption the next one is, some time later,
  unless the disruptions have exhausted the watcher's patience (`Answers.Exhausts`).
* `Answers.Concludes`: how the sequence ends by itself. It does so in at most one way
  (`Answers.Concludes.unique`).
* `Answers.exhausts_iff_lt_tally`: patience is exhausted exactly if a counter that starts afresh after
  every phase says so.
-/

namespace EventWorker

/-! ### A single subscription -/

/-- What a subscription comes to in the end, and how long after it was opened. -/
inductive Fate where
  | final (phase : Phase) (after : Nat)
  | disrupted (after : Nat)
  /-- It is held open for ever. -/
  | held

namespace Fate

/-- The same after a delay. -/
def later (delay : Nat) : Fate → Fate
  | final p after => final p (delay + after)
  | disrupted after => disrupted (delay + after)
  | held => held

/-- What items come to, if all of them are waited for. -/
def ofItems (hold : Bool) : List (Nat × Except ClusterError Phase) → Fate
  | [] => if hold then held else disrupted 0
  | (delay, .error _) :: _ => disrupted delay
  | (delay, .ok p) :: items => if p.isFinal then final p delay else (ofItems hold items).later delay

/-- A subscription that is refused is disrupted at once. -/
def ofAnswer : Except ClusterError Feed → Fate
  | .error _ => disrupted 0
  | .ok feed => ofItems feed.held feed.items

end Fate

/-- Whether the first of some items is a phase. If it is not, none of them counts. -/
def yieldsPhase : List (Nat × Except ClusterError Phase) → Bool
  | [] => false
  | (_, .error _) :: _ => false
  | (_, .ok _) :: _ => true

/-- Whether a subscription yields a phase. -/
def productive : Except ClusterError Feed → Bool
  | .error _ => false
  | .ok feed => yieldsPhase feed.items

/-! ### One subscription after another -/

/-- What subscriptions are answered with, one after another. -/
abbrev Answers := Nat → Except ClusterError Feed

namespace Answers

variable {answers : Answers} {max n k : Nat}

/-- Of the first `n` subscriptions the last `max` have not yielded a phase, and there were others. -/
def Exhausts (answers : Answers) (max n : Nat) : Prop :=
  max < n ∧ ∀ k, n - max ≤ k → k < n → productive (answers k) = false

/-- How many disruptions there have been in `n` subscriptions, that of the last one that yielded a phase
included and those before it left out. -/
def tally (answers : Answers) : Nat → Nat
  | 0 => 0
  | n + 1 => (if productive (answers n) then 0 else tally answers n) + 1

theorem not_exhausts_zero : ¬ answers.Exhausts max 0 :=
  fun h => Nat.not_lt_zero max h.1

/-- Unless there was no patience to begin with, a subscription that yields a phase renews it. -/
theorem exhausts_succ_of_productive (h : productive (answers n) = true) :
    answers.Exhausts max (n + 1) ↔ max = 0 := by
  constructor
  · intro hex
    rcases Nat.eq_zero_or_pos max with hzero | hpos
    · exact hzero
    · have hn := hex.2 n (by omega) n.lt_succ_self
      rw [h] at hn
      cases hn
  · rintro rfl
    exact ⟨n.succ_pos, fun k hk hlt => by omega⟩

theorem exhausts_succ_of_not_productive (h : productive (answers n) = false) :
    answers.Exhausts (max + 1) (n + 1) ↔ answers.Exhausts max n := by
  unfold Exhausts
  constructor
  · rintro ⟨hlt, hall⟩
    exact ⟨by omega, fun k hk hkn => hall k (by omega) (by omega)⟩
  · rintro ⟨hlt, hall⟩
    refine ⟨by omega, fun k hk hkn => ?_⟩
    by_cases hkn' : k = n
    · rw [hkn', h]
    · exact hall k (by omega) (by omega)

/-- **The counter tells when patience is exhausted.** -/
theorem exhausts_iff_lt_tally : ∀ max, answers.Exhausts max n ↔ max < tally answers n := by
  induction n with
  | zero => exact fun max => iff_of_false not_exhausts_zero (Nat.not_lt_zero max)
  | succ n ih =>
    intro max
    rw [tally]
    cases h : productive (answers n) with
    | true =>
      rw [exhausts_succ_of_productive h, if_pos rfl]
      omega
    | false =>
      rw [if_neg Bool.false_ne_true]
      cases max with
      | zero => exact iff_of_true ⟨n.succ_pos, fun k hk hlt => by omega⟩ (Nat.succ_pos _)
      | succ max =>
        rw [exhausts_succ_of_not_productive h, ih max]
        omega

instance (answers : Answers) (max n : Nat) : Decidable (answers.Exhausts max n) :=
  decidable_of_iff _ (exhausts_iff_lt_tally max).symm

/-- Subscription number `n`, counted from zero, is opened at a time. -/
inductive Opens (answers : Answers) (r : Watch.Reconnect) : Nat → Nat → Prop where
  | first : Opens answers r 0 0
  | next {n t after : Nat} (before : Opens answers r n t)
      (disrupted : Fate.ofAnswer (answers n) = .disrupted after)
      (patient : ¬ answers.Exhausts r.max (n + 1)) :
      Opens answers r (n + 1) (t + after + r.delay.millis)

/-- The observation of a unit ends by itself, after a number of subscriptions, at a time, and with an
outcome. -/
inductive Concludes (answers : Answers) (r : Watch.Reconnect) (u : UnitRef) :
    Nat → Nat → Except WatchError Phase → Prop where
  | final {n t after : Nat} {p : Phase} (opened : Opens answers r n t)
      (final : Fate.ofAnswer (answers n) = .final p after) :
      Concludes answers r u (n + 1) (t + after) (.ok p)
  | exhausted {n t after : Nat} (opened : Opens answers r n t)
      (disrupted : Fate.ofAnswer (answers n) = .disrupted after)
      (exhausted : answers.Exhausts r.max (n + 1)) :
      Concludes answers r u (n + 1) (t + after) (.error (.disrupted u.toText r.max))

variable {r : Watch.Reconnect} {u : UnitRef} {t t' : Nat} {o o' : Except WatchError Phase}

namespace Opens

/-- All subscriptions before have been disrupted, and patience was not exhausted by them. -/
theorem before (h : Opens answers r n t) :
    ∀ k < n, ¬ answers.Exhausts r.max (k + 1) ∧ ∃ t' after, Opens answers r k t' ∧
      Fate.ofAnswer (answers k) = .disrupted after ∧ t' + after + r.delay.millis ≤ t := by
  induction h with
  | first => exact fun k hk => absurd hk (Nat.not_lt_zero k)
  | next hn hd hp ih =>
    intro k hk
    rcases Nat.lt_succ_iff_lt_or_eq.1 hk with hk | rfl
    · obtain ⟨hpatient, t', after, ho, hf, hle⟩ := ih k hk
      exact ⟨hpatient, t', after, ho, hf, by omega⟩
    · exact ⟨hp, _, _, hn, hd, Nat.le_refl _⟩

theorem not_exhausts (h : Opens answers r n t) (hk : k ≤ n) : ¬ answers.Exhausts r.max k := by
  cases k with
  | zero => exact not_exhausts_zero
  | succ k => exact (h.before k hk).1

theorem unique (h : Opens answers r n t) : ∀ {t'}, Opens answers r n t' → t = t' := by
  induction h with
  | first =>
    intro t' h'
    cases h'
    rfl
  | next _ hd _ ih =>
    intro t' h'
    cases h' with
    | next hn' hd' _ =>
      obtain rfl := ih hn'
      obtain rfl := Fate.disrupted.inj (hd.symm.trans hd')
      rfl

theorem exists_of_le (h : Opens answers r n t) (hk : k ≤ n) : ∃ t', Opens answers r k t' ∧ t' ≤ t := by
  rcases Nat.lt_or_eq_of_le hk with hlt | rfl
  · obtain ⟨-, t', after, ho, -, hle⟩ := h.before k hlt
    exact ⟨t', ho, by omega⟩
  · exact ⟨t, h, Nat.le_refl t⟩

theorem mono (h : Opens answers r n t) (h' : Opens answers r k t') (hk : k ≤ n) : t' ≤ t := by
  obtain ⟨t'', ho, hle⟩ := h.exists_of_le hk
  rwa [ho.unique h'] at hle

end Opens

namespace Concludes

/-- The sequence ends with a subscription that has been opened. -/
theorem opened (h : Concludes answers r u n t o) :
    ∃ k t', n = k + 1 ∧ Opens answers r k t' ∧ t' ≤ t := by
  cases h with
  | final ho _ => exact ⟨_, _, rfl, ho, Nat.le_add_right _ _⟩
  | exhausted ho _ _ => exact ⟨_, _, rfl, ho, Nat.le_add_right _ _⟩

/-- No subscription is opened after the end. -/
theorem lt_of_opens (h : Concludes answers r u n t o) (hk : Opens answers r k t') : k < n := by
  rcases Nat.lt_or_ge k n with hlt | hle
  · exact hlt
  · cases h with
    | @final n _ _ _ _ hf =>
      obtain ⟨-, _, _, -, hd, -⟩ := hk.before n hle
      rw [hf] at hd
      cases hd
    | @exhausted n _ _ _ _ he => exact absurd he (hk.before n hle).1

theorem unique (h : Concludes answers r u n t o) (h' : Concludes answers r u k t' o') :
    n = k ∧ t = t' ∧ o = o' := by
  obtain ⟨i, a, rfl, hi, -⟩ := h.opened
  obtain ⟨j, b, rfl, hj, -⟩ := h'.opened
  have hij := h'.lt_of_opens hi
  have hji := h.lt_of_opens hj
  obtain rfl : i = j := by omega
  cases h with
  | final ho hf =>
    cases h' with
    | final ho' hf' =>
      obtain rfl := ho.unique ho'
      obtain ⟨rfl, rfl⟩ := Fate.final.inj (hf.symm.trans hf')
      exact ⟨rfl, rfl, rfl⟩
    | exhausted _ hd _ => cases hf.symm.trans hd
  | exhausted ho hd _ =>
    cases h' with
    | final _ hf' => cases hd.symm.trans hf'
    | exhausted ho' hd' _ =>
      obtain rfl := ho.unique ho'
      obtain rfl := Fate.disrupted.inj (hd.symm.trans hd')
      exact ⟨rfl, rfl, rfl⟩

end Concludes

end Answers

end EventWorker
