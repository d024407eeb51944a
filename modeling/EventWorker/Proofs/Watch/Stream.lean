import EventWorker.Proofs.Watch.Subscriptions
import EventWorker.Watch.Script

/-!
# Streaming observations

A streaming watcher subscribes again and again in a loop with a counter, and stops when its time is up.
Here it is measured by what its subscriptions come to of themselves (`Answers.Concludes`).

The loop is taken apart into passes (`pass`, `streamFrom_succ`). What stands at the beginning of each
pass (`Standing`) stands at the beginning of the next, or else the pass has come to the verdict that it
should (`pass_of_standing`). As there is a delay before each pass, the loop is not left for any other
reason.

Main statement: `Watcher.observe_streaming`.
-/

namespace EventWorker

namespace Source

variable {σ : Type}

/-- What is watched after `n` subscriptions and nothing else. -/
def after (source : Source σ) (u : UnitRef) (s : σ) : Nat → σ
  | 0 => s
  | n + 1 => (source.subscribe u (source.after u s n)).2

/-- What subscriptions are answered with, if nothing else is done in between. -/
def answers (source : Source σ) (u : UnitRef) (s : σ) : Answers :=
  fun n => (source.subscribe u (source.after u s n)).1

end Source

namespace Fate

/-- What is left of a fate if there is only so much time; `progress` tells of a phase. -/
def within (timeout time : Nat) (progress : Bool) : Fate → Watch.FeedEnd
  | final p after => if time + after < timeout then .final p (time + after) else .late
  | disrupted after =>
    if time + after < timeout then .disrupted progress (time + after) else .late
  | held => .late

theorem within_later (timeout time delay : Nat) (progress : Bool) (f : Fate) :
    (f.later delay).within timeout time progress = f.within timeout (time + delay) progress := by
  cases f <;> simp only [later, within, Nat.add_assoc]

theorem within_of_le {timeout time : Nat} (h : timeout ≤ time) (progress : Bool) (f : Fate) :
    f.within timeout time progress = .late := by
  cases f with
  | final p after => exact if_neg (by omega)
  | disrupted after => exact if_neg (by omega)
  | held => rfl

theorem of_within_eq_final {timeout time t : Nat} {progress : Bool} {f : Fate} {p : Phase}
    (h : f.within timeout time progress = .final p t) :
    ∃ after, f = final p after ∧ t = time + after ∧ t < timeout := by
  cases f with
  | final q after =>
    rw [within] at h
    split at h
    · next ht =>
      obtain ⟨rfl, rfl⟩ := Watch.FeedEnd.final.inj h
      exact ⟨after, rfl, rfl, ht⟩
    · cases h
  | disrupted after =>
    rw [within] at h
    split at h <;> cases h
  | held => cases h

theorem of_within_eq_disrupted {timeout time t : Nat} {progress progress' : Bool} {f : Fate}
    (h : f.within timeout time progress = .disrupted progress' t) :
    ∃ after, f = disrupted after ∧ progress' = progress ∧ t = time + after ∧ t < timeout := by
  cases f with
  | final q after =>
    rw [within] at h
    split at h <;> cases h
  | disrupted after =>
    rw [within] at h
    split at h
    · next ht =>
      obtain ⟨rfl, rfl⟩ := Watch.FeedEnd.disrupted.inj h
      exact ⟨after, rfl, rfl, rfl, ht⟩
    · cases h
  | held => cases h

/-- If a fate does not come about in time, then it does so when the time is up, or never. -/
theorem le_of_within_eq_late {timeout time after : Nat} {progress : Bool} {f : Fate}
    (h : f.within timeout time progress = .late)
    (hf : f = disrupted after ∨ ∃ p, f = final p after) : timeout ≤ time + after := by
  rcases Nat.lt_or_ge (time + after) timeout with hlt | hle
  · rcases hf with rfl | ⟨p, rfl⟩
    · rw [within, if_pos hlt] at h
      cases h
    · rw [within, if_pos hlt] at h
      cases h
  · exact hle

end Fate

namespace Watch

variable {σ : Type} (source : Source σ) (u : UnitRef) (r : Reconnect) (timeout : Nat)

/-! ### A single subscription -/

/-- Following a feed comes to what its fate leaves in time, and touches the ledger alone. -/
theorem follow_eq (hold : Bool) (items : List (Nat × Except ClusterError Phase)) :
    ∀ (progress : Bool) (time : Nat) (s : Seen σ), time < timeout →
      ∃ ledger, follow u timeout hold progress time items s =
        ((Fate.ofItems hold items).within timeout time (progress || yieldsPhase items),
          { s with ledger }) := by
  induction items with
  | nil =>
    intro progress time s ht
    refine ⟨s.ledger, ?_⟩
    cases hold with
    | true => rfl
    | false =>
      have hend : (Fate.ofItems false []).within timeout time progress = .disrupted progress time :=
        if_pos ht
      rw [yieldsPhase, Bool.or_false, hend]
      rfl
  | cons item items ih =>
    obtain ⟨delay, item⟩ := item
    intro progress time s ht
    cases item with
    | error e =>
      refine ⟨s.ledger, ?_⟩
      rw [follow, yieldsPhase, Bool.or_false, Fate.ofItems, Fate.within]
      by_cases hdue : time + delay ≥ timeout
      · rw [if_pos hdue, if_neg (Nat.not_lt.2 hdue)]
        rfl
      · rw [if_neg hdue, if_pos (Nat.lt_of_not_le hdue)]
        rfl
    | ok p =>
      rw [follow, yieldsPhase, Bool.or_true, Fate.ofItems]
      by_cases hdue : time + delay ≥ timeout
      · refine ⟨s.ledger, ?_⟩
        have hlate : (if p.isFinal then Fate.final p delay else (Fate.ofItems hold items).later delay).within
            timeout time true = .late := by
          split
          · exact if_neg (Nat.not_lt.2 hdue)
          · rw [Fate.within_later, Fate.within_of_le hdue]
        rw [if_pos hdue, hlate]
        rfl
      · have hlt : time + delay < timeout := Nat.lt_of_not_le hdue
        rw [if_neg hdue]
        cases hp : p.isFinal with
        | true =>
          refine ⟨s.ledger.record u p, ?_⟩
          have hend : (Fate.final p delay).within timeout time true = .final p (time + delay) :=
            if_pos hlt
          rw [if_pos rfl, if_pos rfl, hend]
          rfl
        | false =>
          obtain ⟨ledger, hrest⟩ := ih true (time + delay) { s with ledger := s.ledger.record u p } hlt
          refine ⟨ledger, ?_⟩
          rw [if_neg Bool.false_ne_true, if_neg Bool.false_ne_true, Fate.within_later]
          exact hrest

/-- Subscribes, and takes what comes of it. -/
def attend (time : Nat) : StateM (Seen σ) FeedEnd := do
  match ← Seen.look (source.subscribe u) with
  | .error _ => return .disrupted false time
  | .ok feed => follow u timeout feed.held false time feed.items

variable {source u r timeout} in
theorem attend_eq {s : σ} {k time : Nat} {seen : Seen σ} (ht : time < timeout)
    (hs : seen.source = source.after u s k) :
    ∃ ledger, attend source u timeout time seen =
      ((Fate.ofAnswer (source.answers u s k)).within timeout time (productive (source.answers u s k)),
        { source := source.after u s (k + 1), ledger }) := by
  have hlook : Seen.look (source.subscribe u) seen =
      (source.answers u s k, { source := source.after u s (k + 1), ledger := seen.ledger }) := by
    show ((source.subscribe u seen.source).1, { seen with source := (source.subscribe u seen.source).2 }) = _
    rw [hs]
    rfl
  simp only [attend, bind, StateT.bind, hlook]
  cases source.answers u s k with
  | error e =>
    refine ⟨seen.ledger, ?_⟩
    have hend : (Fate.ofAnswer (.error e)).within timeout time (productive (.error e)) =
        .disrupted false time := if_pos ht
    rw [hend]
    rfl
  | ok feed => exact follow_eq u timeout feed.held feed.items false time _ ht

/-! ### A single pass of the loop -/

/-- What the end of a subscription comes to: a verdict, or the number of disruptions put up with by then
and the time at which to subscribe again. -/
def respond (fallible : Bool) (count : Nat) : FeedEnd → StateM (Seen σ) (Verdict ⊕ Nat × Nat)
  | .late => do return .inl (← giveUp u timeout)
  | .final p time => return .inl { outcome := .ok p, elapsed := time }
  | .disrupted progress time =>
    if fallible then return .inl { outcome := .ok .succeeded, elapsed := time }
    else
      let count := if progress then 0 else count
      if count ≥ r.max then
        return .inl { outcome := .error (.disrupted u.toText count), elapsed := time }
      else return .inr (count + 1, time + r.delay.millis)

/-- One pass of the loop. -/
def pass (fallible : Bool) (count time : Nat) : StateM (Seen σ) (Verdict ⊕ Nat × Nat) :=
  if time ≥ timeout then do return .inl (← giveUp u timeout)
  else do respond u r timeout fallible count (← attend source u timeout time)

/-- Goes on after a pass, unless it came to a verdict. -/
def goOn (fallible : Bool) (bound : Nat) : Verdict ⊕ Nat × Nat → StateM (Seen σ) Verdict
  | .inl v => return v
  | .inr (count, time) => streamFrom source u r fallible timeout bound count time

/-- Observing is making one pass after another until one comes to a verdict. -/
theorem streamFrom_succ (fallible : Bool) (bound count time : Nat) :
    streamFrom source u r fallible timeout (bound + 1) count time =
      pass source u r timeout fallible count time >>= goOn source u r timeout fallible bound := by
  rw [streamFrom, pass]
  by_cases hlate : time ≥ timeout
  · rw [if_pos hlate, if_pos hlate]
    rfl
  · rw [if_neg hlate, if_neg hlate, bind_assoc, attend, bind_assoc]
    refine bind_congr fun answer => ?_
    -- either way of subscribing comes to a fate, and from there on they are alike
    cases answer
    all_goals
      refine bind_congr fun fate => ?_
      cases fate with
      | late => rfl
      | final p time => rfl
      | disrupted progress time =>
        simp only [respond]
        cases fallible with
        | true => rfl
        | false =>
          by_cases hmax : (if progress then 0 else count) ≥ r.max
          · simp only [if_pos hmax]
            rfl
          · simp only [if_neg hmax]
            rfl

/-! ### Observations and the passes that they consist of -/

/-- What is known of an observation that has subscribed so many times. -/
structure Observed (answers : Answers) (calls : Nat) (v : Verdict) : Prop where
  /-- If the subscriptions come to an end before the time is up, so does the observation. -/
  concluded : ∀ n t o, answers.Concludes r u n t o → t < timeout → v = ⟨o, t, false⟩ ∧ calls = n
  timedOut : (∀ n t o, answers.Concludes r u n t o → timeout ≤ t) →
    v = ⟨.ok .timedOut, timeout, true⟩
  /-- A subscription is opened at its time, unless the time is up. -/
  opened : ∀ k, k < calls ↔ ∃ t, answers.Opens r k t ∧ t < timeout
  /-- Nothing but the disruption that exhausts patience makes an observation fail. -/
  failed : ∀ e, v.outcome = .error e → e = .disrupted u.toText r.max ∧
    answers.Exhausts r.max calls ∧ ∀ k < calls, ¬ answers.Exhausts r.max k
  inTime : v.elapsed ≤ timeout

/-- What stands before a pass that is the next after `k` others. -/
structure Standing (s : σ) (count time : Nat) (seen : Seen σ) (k : Nat) : Prop where
  state : seen.source = source.after u s k
  opens : (source.answers u s).Opens r k time
  tallied : count = (source.answers u s).tally k
  begun : ∀ j < k, ∃ t, (source.answers u s).Opens r j t ∧ t < timeout

variable {source u r timeout} {answers : Answers} {s : σ} {count time k : Nat} {seen : Seen σ}

namespace Observed

theorem of_concludes {n t : Nat} {o : Except WatchError Phase} (h : answers.Concludes r u n t o)
    (ht : t < timeout) : Observed u r timeout answers n ⟨o, t, false⟩ where
  concluded n' t' o' h' _ := by
    obtain ⟨rfl, rfl, rfl⟩ := h.unique h'
    exact ⟨rfl, rfl⟩
  timedOut hlate := absurd ht (Nat.not_lt.2 (hlate n t o h))
  opened k := by
    constructor
    · intro hk
      obtain ⟨j, t', rfl, hj, hle⟩ := h.opened
      obtain ⟨t'', hopens, hle'⟩ := hj.exists_of_le (Nat.le_of_lt_succ hk)
      exact ⟨t'', hopens, by omega⟩
    · exact fun ⟨_, hopens, _⟩ => h.lt_of_opens hopens
  failed e he := by
    cases h with
    | final _ _ => cases he
    | exhausted ho _ hex =>
      obtain rfl := Except.error.inj he
      exact ⟨rfl, hex, fun k hk => ho.not_exhausts (Nat.le_of_lt_succ hk)⟩
  inTime := Nat.le_of_lt ht

theorem of_late {calls : Nat} (hlate : ∀ n t o, answers.Concludes r u n t o → timeout ≤ t)
    (hopened : ∀ k, k < calls ↔ ∃ t, answers.Opens r k t ∧ t < timeout) :
    Observed u r timeout answers calls ⟨.ok .timedOut, timeout, true⟩ where
  concluded n t o h ht := absurd ht (Nat.not_lt.2 (hlate n t o h))
  timedOut _ := rfl
  opened := hopened
  failed e he := by cases he
  inTime := Nat.le_refl timeout

end Observed

namespace Standing

/-- The counter never goes beyond its limit. -/
theorem count_le (h : Standing source u r timeout s count time seen k) : count ≤ r.max := by
  rw [h.tallied]
  exact Nat.le_of_not_lt fun hlt =>
    h.opens.not_exhausts (Nat.le_refl k) ((Answers.exhausts_iff_lt_tally r.max).2 hlt)

/-- If the time is up before a pass, then before the subscription of the pass is opened. -/
theorem observed_of_le (h : Standing source u r timeout s count time seen k) (hle : timeout ≤ time) :
    Observed u r timeout (source.answers u s) k ⟨.ok .timedOut, timeout, true⟩ := by
  refine .of_late (fun n t o hc => ?_) fun j => ⟨h.begun j, fun ⟨t, hj, ht⟩ => ?_⟩
  · obtain ⟨j, t', rfl, hj, hle'⟩ := hc.opened
    have hmono := hj.mono h.opens (Nat.le_of_lt_succ (hc.lt_of_opens h.opens))
    omega
  · rcases Nat.lt_or_ge j k with hlt | hge
    · exact hlt
    · have hmono := hj.mono h.opens hge
      omega

/-- If the time is up while a pass waits for its subscription, nothing comes after. -/
theorem observed_of_late (h : Standing source u r timeout s count time seen k) (ht : time < timeout)
    {progress : Bool}
    (hlate : (Fate.ofAnswer (source.answers u s k)).within timeout time progress = .late) :
    Observed u r timeout (source.answers u s) (k + 1) ⟨.ok .timedOut, timeout, true⟩ := by
  -- a later subscription is opened only after this one has been disrupted
  have hlater : ∀ j t, k < j → (source.answers u s).Opens r j t → timeout ≤ t := by
    intro j t hkj hj
    obtain ⟨-, t', after, hk, hd, hle⟩ := hj.before k hkj
    obtain rfl := h.opens.unique hk
    have hdue := Fate.le_of_within_eq_late hlate (Or.inl hd)
    omega
  refine .of_late (fun n t o hc => ?_) fun j => ⟨fun hj => ?_, fun ⟨t, hj, htj⟩ => ?_⟩
  · have hkn := hc.lt_of_opens h.opens
    cases hc with
    | @final j t after p ho hf =>
      rcases Nat.lt_or_eq_of_le (Nat.le_of_lt_succ hkn) with hlt | rfl
      · have hle := hlater j t hlt ho
        omega
      · obtain rfl := h.opens.unique ho
        exact Fate.le_of_within_eq_late hlate (Or.inr ⟨p, hf⟩)
    | @exhausted j t after ho hd _ =>
      rcases Nat.lt_or_eq_of_le (Nat.le_of_lt_succ hkn) with hlt | rfl
      · have hle := hlater j t hlt ho
        omega
      · obtain rfl := h.opens.unique ho
        exact Fate.le_of_within_eq_late hlate (Or.inl hd)
  · rcases Nat.lt_or_eq_of_le (Nat.le_of_lt_succ hj) with hlt | rfl
    · exact h.begun j hlt
    · exact ⟨time, h.opens, ht⟩
  · rcases Nat.lt_or_ge k j with hlt | hge
    · have hle := hlater j t hlt hj
      omega
    · exact Nat.lt_succ_of_le hge

/-- Where a disruption is not put up with, the counter has just come to its limit. -/
theorem exhausts_of_le (h : Standing source u r timeout s count time seen k)
    (hmax : r.max ≤ if productive (source.answers u s k) then 0 else count) :
    (if productive (source.answers u s k) then 0 else count) = r.max ∧
      (source.answers u s).Exhausts r.max (k + 1) := by
  constructor
  · have hle := h.count_le
    split at hmax
    · next hp => rw [if_pos hp]; omega
    · next hp => rw [if_neg hp]; omega
  · rw [Answers.exhausts_iff_lt_tally, Answers.tally, ← h.tallied]
    omega

/-- After a disruption that is put up with, the next pass begins with the next subscription. -/
theorem next (h : Standing source u r timeout s count time seen k) (ht : time < timeout) {after : Nat}
    {ledger : Ledger} (hd : Fate.ofAnswer (source.answers u s k) = .disrupted after)
    (hcount : (if productive (source.answers u s k) then 0 else count) < r.max) :
    Standing source u r timeout s ((if productive (source.answers u s k) then 0 else count) + 1)
      (time + after + r.delay.millis) { source := source.after u s (k + 1), ledger } (k + 1) := by
  have htally : (source.answers u s).tally (k + 1) =
      (if productive (source.answers u s k) then 0 else count) + 1 := by
    rw [Answers.tally, h.tallied]
  refine ⟨rfl, .next h.opens hd ?_, htally.symm, fun j hj => ?_⟩
  · rw [Answers.exhausts_iff_lt_tally, htally]
    omega
  · rcases Nat.lt_or_eq_of_le (Nat.le_of_lt_succ hj) with hlt | rfl
    · exact h.begun j hlt
    · exact ⟨time, h.opens, ht⟩

end Standing

/-- A pass that begins in time responds to what the fate of its subscription leaves in time. What it has
seen by then does not hang on whether disruptions are put up with. -/
theorem pass_eq (ht : time < timeout) (hs : seen.source = source.after u s k) :
    ∃ ledger, ∀ fallible count, pass source u r timeout fallible count time seen =
      respond u r timeout fallible count ((Fate.ofAnswer (source.answers u s k)).within timeout time
        (productive (source.answers u s k))) { source := source.after u s (k + 1), ledger } := by
  obtain ⟨ledger, hattend⟩ := attend_eq ht hs
  refine ⟨ledger, fun fallible count => ?_⟩
  rw [pass, if_neg (Nat.not_le.2 ht)]
  simp only [bind, StateT.bind, hattend]

/-- **What a pass comes to**: the verdict that it should, or what stands before the next one. -/
theorem pass_of_standing (h : Standing source u r timeout s count time seen k) :
    (∃ v seen' n, pass source u r timeout false count time seen = (.inl v, seen') ∧
      seen'.source = source.after u s n ∧ Observed u r timeout (source.answers u s) n v) ∨
    (∃ count' time' seen', pass source u r timeout false count time seen = (.inr (count', time'), seen') ∧
      Standing source u r timeout s count' time' seen' (k + 1) ∧ time + r.delay.millis ≤ time') := by
  by_cases hle : time ≥ timeout
  · have hpass : pass source u r timeout false count time seen =
        (.inl ⟨.ok .timedOut, timeout, true⟩, (giveUp u timeout seen).2) := by
      rw [pass, if_pos hle]
      rfl
    exact Or.inl ⟨_, _, k, hpass, h.state, h.observed_of_le hle⟩
  · have ht : time < timeout := Nat.lt_of_not_le hle
    obtain ⟨ledger, hpass⟩ := pass_eq ht h.state
    rw [hpass]
    cases hend : (Fate.ofAnswer (source.answers u s k)).within timeout time
      (productive (source.answers u s k)) with
    | late =>
      exact Or.inl ⟨⟨.ok .timedOut, timeout, true⟩, _, k + 1, rfl, rfl, h.observed_of_late ht hend⟩
    | final p t =>
      obtain ⟨after, hf, rfl, ht'⟩ := Fate.of_within_eq_final hend
      exact Or.inl ⟨_, _, k + 1, rfl, rfl, .of_concludes (.final h.opens hf) ht'⟩
    | disrupted progress t =>
      obtain ⟨after, hd, rfl, rfl, ht'⟩ := Fate.of_within_eq_disrupted hend
      simp only [respond, if_neg Bool.false_ne_true]
      by_cases hmax : (if productive (source.answers u s k) then 0 else count) ≥ r.max
      · obtain ⟨hcount, hexhausted⟩ := h.exhausts_of_le hmax
        rw [if_pos hmax, hcount]
        exact Or.inl ⟨_, _, k + 1, rfl, rfl, .of_concludes (.exhausted h.opens hd hexhausted) ht'⟩
      · rw [if_neg hmax]
        refine Or.inr ⟨_, _, _, rfl, h.next ht hd (Nat.lt_of_not_le hmax), ?_⟩
        omega

/-- **An observation comes to its verdict**, if there is a delay between subscriptions and the loop may
be gone through until the time is up. -/
theorem streamFrom_of_standing (hd : 0 < r.delay.millis) (bound : Nat) :
    ∀ {count time seen k}, Standing source u r timeout s count time seen k → timeout ≤ time + bound →
      ∃ v seen' n, streamFrom source u r false timeout bound count time seen = (v, seen') ∧
        seen'.source = source.after u s n ∧ Observed u r timeout (source.answers u s) n v := by
  induction bound with
  | zero =>
    intro count time seen k h hbound
    exact ⟨_, _, k, rfl, h.state, h.observed_of_le hbound⟩
  | succ bound ih =>
    intro count time seen k h hbound
    rw [streamFrom_succ]
    rcases pass_of_standing h with ⟨v, seen', n, hpass, hv⟩ | ⟨count', time', seen', hpass, h', hle⟩
    · refine ⟨v, seen', n, ?_, hv⟩
      simp only [bind, StateT.bind, hpass]
      rfl
    · obtain ⟨v, seen'', n, hrest, hv⟩ := ih h' (by omega)
      refine ⟨v, seen'', n, ?_, hv⟩
      simp only [bind, StateT.bind, hpass]
      exact hrest

variable (source u r timeout) in
/-- The passes of an observation: how many disruptions have been put up with before each, when it
begins, and in what state. -/
inductive Reached (start : Seen σ) : Nat → Nat → Seen σ → Prop where
  | start : Reached start 0 0 start
  | next {count time count' time' : Nat} {seen seen' : Seen σ} (before : Reached start count time seen)
      (pass : pass source u r timeout false count time seen = (.inr (count', time'), seen')) :
      Reached start count' time' seen'

variable (source u r timeout) in
theorem standing_zero (start : Seen σ) : Standing source u r timeout start.source 0 0 start 0 :=
  ⟨rfl, .first, rfl, fun j hj => absurd hj (Nat.not_lt_zero j)⟩

theorem Reached.standing {start : Seen σ} (h : Reached source u r timeout start count time seen) :
    ∃ k, Standing source u r timeout start.source count time seen k := by
  induction h with
  | start => exact ⟨0, standing_zero source u r timeout start⟩
  | next _ hpass ih =>
    obtain ⟨k, hk⟩ := ih
    rcases pass_of_standing hk with ⟨v, seen', n, hpass', -⟩ | ⟨_, _, _, hpass', hnext, -⟩
    · rw [hpass] at hpass'
      cases hpass'
    · rw [hpass] at hpass'
      cases hpass'
      exact ⟨k + 1, hnext⟩

end Watch

namespace Script

theorem after_source (u : UnitRef) (s : Script) (n : Nat) :
    source.after u s n = { s with feeds := s.feeds.drop n, looks := s.looks + n } := by
  induction n with
  | zero => rfl
  | succ n ih =>
    rw [Source.after, ih]
    show (nextFeed { s with feeds := s.feeds.drop n, looks := s.looks + n }).2 = _
    rw [← List.drop_drop]
    cases hfeeds : s.feeds.drop n with
    | nil => rfl
    | cons f rest => rfl

/-- A script gives its subscriptions in order, and empty ones when there are no more. -/
theorem answers_source (u : UnitRef) (s : Script) :
    source.answers u s = fun n => s.feeds.getD n (.ok {}) := by
  funext n
  show (nextFeed (source.after u s n)).1 = _
  rw [after_source, List.getD_eq_getElem?_getD, ← List.head?_drop]
  cases hfeeds : s.feeds.drop n with
  | nil => simp only [nextFeed, List.head?_nil, Option.getD_none]
  | cons f rest => simp only [nextFeed, List.head?_cons, Option.getD_some]

end Script

namespace Watcher

open Watch

variable {σ : Type}

/-- **Observing by subscriptions** ends with whatever comes first: what the subscriptions come to of
themselves, or the time. They are opened in order, with the delay after each disruption, and none is
opened after the end. The counter of disruptions stays within its limit all the time. -/
theorem observe_streaming (source : Source σ) (u : UnitRef) (r : Reconnect) (timeout : Duration)
    (start : Seen σ) (hd : 0 < r.delay.millis) :
    (∃ calls,
      ((streaming r).observe source u false timeout start).2.source = source.after u start.source calls ∧
      Observed u r timeout.millis (source.answers u start.source) calls
        ((streaming r).observe source u false timeout start).1) ∧
    ∀ count time seen, Reached source u r timeout.millis start count time seen → count ≤ r.max ∧
      ∃ k, seen.source = source.after u start.source k ∧
        (source.answers u start.source).Opens r k time := by
  constructor
  · have hbound : timeout.millis ≤ 0 + (timeout.millis + 1) * mostAtOnce := by
      have hpos : 1 ≤ mostAtOnce := by decide
      have hmul := Nat.mul_le_mul_left (timeout.millis + 1) hpos
      omega
    obtain ⟨v, seen, n, hrun, hsource, hv⟩ :=
      streamFrom_of_standing hd ((timeout.millis + 1) * mostAtOnce)
        (standing_zero source u r timeout.millis start) hbound
    have hobserve : (streaming r).observe source u false timeout start = (v, seen) := hrun
    rw [hobserve]
    exact ⟨n, hsource, hv⟩
  · intro count time seen h
    obtain ⟨k, hk⟩ := h.standing
    exact ⟨hk.count_le, k, hk.state, hk.opens⟩

/-- Three subscriptions, of which only the first yields a phase, and a fourth that would succeed. -/
def fragile : Script where
  feeds := [.ok { items := [(5, .ok .running)] }, .error (.stream "reset"),
    .ok { items := [(3, .error (.stream "reset"))] }, .ok { items := [(0, .ok .succeeded)] }]

def twice : Reconnect :=
  { max := 2, delay := ⟨10⟩ }

def fragileUnit : UnitRef :=
  ⟨"ci", "build-run1", "build", "run1"⟩

/-- The second subscription and the third use up the patience for two, and the fourth is never
opened. -/
theorem observe_fragile :
    0 < twice.delay.millis ∧
      ((streaming twice).observe Script.source fragileUnit false ⟨1000⟩ { source := fragile }).1 =
        ⟨.error (.disrupted fragileUnit.toText 2), 28, false⟩ ∧
      ((streaming twice).observe Script.source fragileUnit false ⟨1000⟩
        { source := fragile }).2.source.looks = 3 := by
  have hd : 0 < twice.delay.millis := by decide
  have hpatient : ∀ n < 3, ¬ (Script.source.answers fragileUnit fragile).Exhausts twice.max n := by
    decide
  have hsecond : (Script.source.answers fragileUnit fragile).Opens twice 2 25 :=
    .next (.next .first rfl (hpatient 1 (by decide))) rfl (hpatient 2 (by decide))
  have hconcludes : (Script.source.answers fragileUnit fragile).Concludes twice fragileUnit 3 28
      (.error (.disrupted fragileUnit.toText 2)) :=
    .exhausted hsecond rfl (by decide)
  obtain ⟨⟨calls, hstate, hobserved⟩, -⟩ :=
    observe_streaming Script.source fragileUnit twice ⟨1000⟩ { source := fragile } hd
  obtain ⟨hv, rfl⟩ := hobserved.concluded _ _ _ hconcludes (by decide)
  refine ⟨hd, hv, ?_⟩
  rw [hstate, Script.after_source]
  rfl

end Watcher

end EventWorker
