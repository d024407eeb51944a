import EventWorker.Proofs.Run.Account
import EventWorker.Proofs.Run.Timed

/-!
# Between one at a time and all at once

A batched group whose limit is at most one runs its members like a serial group, and one whose limit is at
least the number of its members runs them like a concurrent group. In between, no more members are at work
at any moment than the limit allows.

The second is an equality of what is run. For the first it has to be said what makes no difference to a
member: that there is one group more around it (`Unaware`). It makes none to a job, whatever backend runs
it. A group inside of the group may begin a member in another turn, but in the same millisecond, and
nothing else changes if every job takes an assigned time (`Backend.Timed`).

* `Batched.atWork_le`: the members of a batched group that are at work at a moment.
* `agree_inBatches_inOrder`, `inBatches_eq_together`: the two ends.
* `Step.batched_between`: all of it, for steps of jobs.
-/

namespace EventWorker

open Activity

variable {σ ε α β φ κ : Type}

/-! ### At work -/

/-- The span has begun by a moment, and has not ended. -/
def Span.covers (m : Span φ) (t : Moment) : Bool :=
  m.begun.le t && !m.ended.le t

/-- The number of members that are at work at a moment. -/
def atWork (t : Moment) (members : List (Option (Span φ))) : Nat :=
  members.countP fun a => a.any (·.covers t)

theorem atWork_append (t : Moment) (as bs : List (Option (Span φ))) :
    atWork t (as ++ bs) = atWork t as + atWork t bs :=
  List.countP_append

/-- Nobody is at work if all were over by then. -/
theorem atWork_eq_zero {t : Moment} {members : List (Option (Span φ))}
    (h : ∀ a ∈ members, ∃ m, a = some m ∧ m.ended.le t) : atWork t members = 0 := by
  refine List.countP_eq_zero.2 fun a ha => ?_
  obtain ⟨m, rfl, hle⟩ := h a ha
  simp [Span.covers, hle]

/-- **No more members of a batched group are at work at any moment than the limit allows.** -/
theorem Batched.atWork_le {limit : Nat} {group : Span φ} {members : List (Option (Span φ))}
    {batches : List (Option (Span φ) × List (Option (Span φ)))}
    (h : Batched limit group members batches) (t : Moment) : atWork t members ≤ max limit 1 := by
  rw [← h.flatten]
  have hsize := h.size
  have horder := h.order
  clear h
  induction batches with
  | nil => exact Nat.zero_le _
  | cons b bs ih =>
    obtain ⟨⟨-, hb⟩, hbs⟩ := List.forall_mem_cons.1 hsize
    obtain ⟨hfirst, hrest⟩ := List.pairwise_cons.1 horder
    have hle := ih hbs hrest
    rw [List.map_cons, List.flatten_cons, atWork_append]
    by_cases hzero : atWork t (bs.map (·.2)).flatten = 0
    · have hcount : atWork t b.2 ≤ b.2.length := List.countP_le_length
      omega
    · -- a member of a later batch is at work, so all members of this one are over
      obtain ⟨a, ha, hcovers⟩ := List.countP_pos_iff.1 (Nat.pos_of_ne_zero hzero)
      obtain ⟨l, hl, ha⟩ := List.mem_flatten.1 ha
      obtain ⟨c, hc, rfl⟩ := List.mem_map.1 hl
      obtain ⟨n, rfl, hn⟩ := (Option.any_eq_true _ _).1 hcovers
      have hbegun : n.begun.le t = true := (Bool.and_eq_true_iff.1 hn).1
      have hover : atWork t b.2 = 0 := by
        refine atWork_eq_zero fun x hx => ?_
        obtain ⟨m, rfl, -, hm⟩ := hfirst c hc n ha x hx
        exact ⟨m, rfl, Moment.le_trans hm hbegun⟩
      omega

/-! ### Work that is not aware of the groups around it -/

/-- Two scenes are the same apart from what groups keep for themselves, and from what cannot be seen of the
moments in the journal. -/
structure Alike (look : Moment → κ) (s t : Scene σ ε) : Prop where
  now : s.now = t.now
  world : s.world = t.world
  log : s.log.map (fun e => (look e.1, e.2)) = t.log.map (fun e => (look e.1, e.2))

/-- From scenes that are alike two pieces of work come to the same result, and to scenes that are alike. -/
def Agree (look : Moment → κ) (m n : Activity σ ε α) : Prop :=
  ∀ s t, Alike look s t → (m s).1 = (n t).1 ∧ Alike look (m s).2 (n t).2

/-- Work to which it makes no difference what groups keep for themselves. -/
def Unaware (look : Moment → κ) (m : Activity σ ε α) : Prop :=
  Agree look m m

variable {look : Moment → κ}

theorem Alike.refl (s : Scene σ ε) : Alike look s s :=
  ⟨rfl, rfl, rfl⟩

theorem Alike.log_eq {s t : Scene σ ε} (h : Alike id s t) : s.log = t.log := by
  have hlog := h.log
  simpa only [id_eq, List.map_id'] using hlog

namespace Agree

theorem pure (a : α) : Agree look (Pure.pure a : Activity σ ε α) (Pure.pure a) :=
  fun _ _ h => ⟨rfl, h⟩

theorem bind {m n : Activity σ ε α} {f g : α → Activity σ ε β} (hm : Agree look m n)
    (hf : ∀ a, Agree look (f a) (g a)) : Agree look (m >>= f) (n >>= g) := by
  intro s t hst
  obtain ⟨hresult, halike⟩ := hm s t hst
  have hrest := hf (m s).1 _ _ halike
  show (f (m s).1 (m s).2).1 = (g (n t).1 (n t).2).1 ∧
    Alike look (f (m s).1 (m s).2).2 (g (n t).1 (n t).2).2
  rw [← hresult]
  exact hrest

theorem inOrder {ms ns : List (Activity σ ε (Except φ Unit))} (h : List.Forall₂ (Agree look) ms ns) :
    Agree look (Activity.inOrder ms) (Activity.inOrder ns) := by
  induction h with
  | nil => exact .pure _
  | cons hm _ ih =>
    refine .bind hm fun result => ?_
    cases result with
    | ok _ => exact ih
    | error e => exact .pure _

end Agree

namespace Unaware

theorem now : Unaware look (Activity.now : Activity σ ε Moment) :=
  fun _ _ h => ⟨h.now, h⟩

theorem emit (e : ε) : Unaware look (Activity.emit e : Activity σ ε Unit) := by
  intro s t h
  refine ⟨rfl, h.now, h.world, ?_⟩
  show (s.log ++ [(s.now, e)]).map _ = (t.log ++ [(t.now, e)]).map _
  rw [List.map_append, List.map_append, h.log, h.now]

/-- An errand is seen to on its own. -/
theorem see (e : Errand σ α) : Unaware look (Work.see e) := by
  intro s t h
  have hbegin : ({ now := s.now, world := s.world.seen } : Scene (Seen σ) String) =
      { now := t.now, world := t.world.seen } := by
    rw [h.now, h.world]
  let x := e { now := s.now, world := s.world.seen }
  let y := e { now := t.now, world := t.world.seen }
  have hxy : x = y := congrArg e hbegin
  refine ⟨?_, ?_, ?_, ?_⟩
  · show x.1 = y.1
    rw [hxy]
  · show s.now.latest x.2.now = t.now.latest y.2.now
    rw [hxy, h.now]
  · show { s.world with seen := x.2.world } = { t.world with seen := y.2.world }
    rw [hxy, h.world]
  · show (s.log ++ x.2.log.map _).map _ = (t.log ++ y.2.log.map _).map _
    rw [List.map_append, List.map_append, h.log, hxy]

/-- Timed work is not aware of groups, but for the turns. -/
theorem of_timed {m : Activity σ ε α} (h : Timed m) : Unaware Moment.millis m := by
  intro s t hst
  have hp := h s t ⟨congrArg Moment.millis hst.now, hst.world, hst.log⟩
  refine ⟨hp.result, ?_, hp.akin.world, hp.akin.diary⟩
  rcases hp.ends with ⟨hs, ht⟩ | ⟨k, -, hs, ht⟩
  · rw [hs, ht, hst.now]
  · rw [hs, ht]

end Unaware

theorem composes_unaware (look : Moment → κ) :
    Composes (fun m => Unaware look m : {β : Type} → Work σ β → Prop) where
  pure := .pure
  bind := .bind
  now := .now
  report _ := .emit _

/-- A job is not aware of groups, whatever its backend does. -/
theorem Job.unaware_run (b : Backend σ) (scope : RunScope) (j : Job) : Unaware look (j.run b scope) :=
  (composes_unaware look).run (.see _) fun _ => .see _

/-! ### One at a time -/

theorem next_first (start : Moment) (depth : Nat) : ({} : Opening).next start depth = start := by
  rw [Opening.next, Nat.zero_mul, Nat.add_zero]

/-- **A member that is run in a group of its own** is run as if it were alone. -/
theorem agree_together_single {m : Activity σ ε (Except φ Unit)} (h : Unaware look m)
    (hforward : ∀ s : Scene σ ε, s.now.le (m s).2.now) : Agree look (together [m]) m := by
  intro s t hst
  let before : Scene σ ε := { s with depth := s.depth + 1, gaveWay := none }
  obtain ⟨x, hx⟩ : ∃ x, m before = x := ⟨_, rfl⟩
  have heach := each_cons s.now {} m [] s (x := x) (by rw [next_first]; exact hx) rfl
  have hlatest : latestOf s.now [(x.1, x.2.now)] = x.2.now := by
    have hle : s.now.le x.2.now = true := hx ▸ hforward before
    show s.now.latest x.2.now = x.2.now
    rw [Moment.latest, if_pos hle]
  have hm : x.1 = (m t).1 ∧ Alike look x.2 (m t).2 := by
    rw [← hx]
    exact h before t ⟨hst.now, hst.world, hst.log⟩
  rw [together_eq, heach]
  refine ⟨?_, hlatest.trans hm.2.now, hm.2.world, hm.2.log⟩
  rw [← hm.1]
  dsimp only
  cases x.1 with
  | ok _ => rfl
  | error e => rfl

theorem chunks_of_le_one {n : Nat} (hn : n ≤ 1) (items : List α) :
    chunks n items = items.map fun a => [a] := by
  have hzero : n - 1 = 0 := by omega
  induction items with
  | nil => rw [chunks, List.map_nil]
  | cons a as ih => rw [chunks, hzero, List.take_zero, List.drop_zero, ih, List.map_cons]

/-- **With a limit of at most one** members are run one after another. -/
theorem agree_inBatches_inOrder {n : Nat} (hn : n ≤ 1) {members : List (Activity σ ε (Except φ Unit))}
    (h : ∀ m ∈ members, Unaware look m)
    (hforward : ∀ m ∈ members, ∀ s : Scene σ ε, s.now.le (m s).2.now) :
    Agree look (inBatches n members) (inOrder members) := by
  rw [inBatches, chunks_of_le_one hn, List.map_map]
  refine .inOrder ?_
  rw [List.forall₂_map_left_iff, List.forall₂_same]
  exact fun m hm => agree_together_single (h m hm) (hforward m hm)

/-! ### All at once -/

theorem chunks_of_length_le {n : Nat} {items : List α} (hn : items.length ≤ n) (hne : items ≠ []) :
    chunks n items = [items] := by
  cases items with
  | nil => exact absurd rfl hne
  | cons a as =>
    have hle : as.length ≤ n - 1 := by
      rw [List.length_cons] at hn
      omega
    rw [chunks, List.take_of_length_le hle, List.drop_of_length_le hle, chunks]

/-- A group without members is over at once. -/
theorem together_nil : together ([] : List (Activity σ ε (Except φ Unit))) = inOrder [] := by
  funext s
  rw [together_eq]
  show (_, { s with now := s.now, gaveWay := s.gaveWay.or none }) = (_, s)
  rw [Option.or_none]
  rfl

/-- **With a limit that no batch reaches** all members are run at once. -/
theorem inBatches_eq_together {n : Nat} {members : List (Activity σ ε (Except φ Unit))}
    (hn : members.length ≤ n) : inBatches n members = together members := by
  by_cases hne : members = []
  · rw [hne, together_nil, inBatches, chunks, List.map_nil]
  · rw [inBatches, chunks_of_length_le hn hne, List.map_singleton]
    funext s
    cases hresult : (together members s).1 with
    | ok _ =>
      rw [inOrder_of_ok hresult]
      exact Prod.ext hresult.symm rfl
    | error e =>
      rw [inOrder_of_error hresult]
      exact Prod.ext hresult.symm rfl

/-! ### Steps -/

/-- What there is to tell of the members of a group that was run in some way between two scenes. -/
structure Account.Tell (xs : List (Account α JobError)) (w : Way) (job : α → Job) (steps : List (Step α))
    (before after : Scene (World σ) Entry) (result : Except JobError Unit) : Prop where
  steps : Account.steps xs = steps
  lawful : ∀ x ∈ xs, x.Lawful
  law : w.Law ⟨before.now, after.now, result⟩ (xs.map Account.span)
  /-- The journal tells the same: each job that was run has begun and ended once, no other at all. -/
  reports : ∃ j : Journal, after.log = before.log ++ j ∧
    j.milestones = (Account.jobsOfAll xs).flatMap fun o => (job o.1).reports o.2

namespace Step

variable (backend : α → Backend σ) (scope : RunScope) (job : α → Job) (steps : List (Step α))

/-- Every run of a group can be told of. -/
theorem exists_tell (w : Way) (before : Scene (World σ) Entry) :
    ∃ xs, Account.Tell xs w job steps before
      ((w.step steps).run (leaf backend scope job) before).2
      ((w.step steps).run (leaf backend scope job) before).1 := by
  obtain ⟨xs, hxs, hlaw, j, hj, hread⟩ :=
    (Records.keptIn_run w fun s (_ : s ∈ steps) => kept backend scope job s).done before
  obtain ⟨hsteps, hlawful⟩ := Account.steps_eq_of_forall₂ hxs
  rw [run_way]
  refine ⟨xs, hsteps, hlawful, hlaw, j, hj, ?_⟩
  rw [Account.jobsOfAll_eq, List.flatMap_assoc]
  exact hread

/-- How a batched group stands between a serial and a concurrent one. -/
structure Between (limit : Nat) : Prop where
  /-- Jobs that are run one at a time: whatever the backends do, the result is that of a serial group, and
  so are the end, the world and the journal. -/
  serial : limit ≤ 1 → (∀ s ∈ steps, ∃ a, s = .job a) →
    Agree id ((Step.batched limit steps).run (leaf backend scope job))
      ((Step.serial steps).run (leaf backend scope job))
  /-- So the same members are started, and each of them begins and ends when it does in a serial group. -/
  spans : limit ≤ 1 → (∀ s ∈ steps, ∃ a, s = .job a) → ∀ before, ∃ xs,
    Account.Tell xs .serial job steps before
        ((Step.serial steps).run (leaf backend scope job) before).2
        ((Step.serial steps).run (leaf backend scope job) before).1 ∧
      Account.Tell xs .serial job steps before
        ((Step.batched limit steps).run (leaf backend scope job) before).2
        ((Step.batched limit steps).run (leaf backend scope job) before).1
  /-- If some of the members are groups, the same is true but for the turns in which entries of the journal
  were written, as long as every job in a group takes an assigned time. -/
  nested : limit ≤ 1 → (∀ s ∈ steps, (∃ a, s = .job a) ∨ ∀ a ∈ s.jobs, (backend a).Timed) →
    Agree Moment.millis ((Step.batched limit steps).run (leaf backend scope job))
      ((Step.serial steps).run (leaf backend scope job))
  concurrent : steps.length ≤ limit →
    (Step.batched limit steps).run (leaf backend scope job) =
      (Step.concurrent steps).run (leaf backend scope job)
  /-- Whatever the limit is, it bounds the number of members that are at work at any moment. -/
  bounded : ∀ before, ∃ xs,
    Account.Tell xs (.batched limit) job steps before
        ((Step.batched limit steps).run (leaf backend scope job) before).2
        ((Step.batched limit steps).run (leaf backend scope job) before).1 ∧
      ∀ t, atWork t (xs.map Account.span) ≤ max limit 1

variable {backend scope job steps}

theorem agree_batched_serial {limit : Nat} (hlimit : limit ≤ 1)
    (h : ∀ s ∈ steps, Unaware look (s.run (leaf backend scope job))) :
    Agree look ((Step.batched limit steps).run (leaf backend scope job))
      ((Step.serial steps).run (leaf backend scope job)) := by
  rw [run, run, runs_eq_map]
  refine agree_inBatches_inOrder hlimit (List.forall_mem_map.2 h) (List.forall_mem_map.2 fun s _ => ?_)
  exact (kept backend scope job s).forward

theorem unaware_job (a : α) : Unaware look ((Step.job a).run (leaf backend scope job)) := by
  rw [run]
  exact Job.unaware_run (backend a) scope (job a)

theorem unaware_of_timed {s : Step α} (h : ∀ a ∈ s.jobs, (backend a).Timed) :
    Unaware Moment.millis (s.run (leaf backend scope job)) :=
  .of_timed (timed_run s fun a ha => Job.timed_run scope (job a) (h a ha))

/-- **A batched group stands between a serial and a concurrent one**: with a limit of zero or one it comes
to what a serial group comes to, with one that its members do not exceed to what a concurrent group does,
and at no moment are more members at work than the limit allows. -/
theorem batched_between (backend : α → Backend σ) (scope : RunScope) (job : α → Job)
    (steps : List (Step α)) (limit : Nat) : Between backend scope job steps limit where
  serial hlimit hjobs := agree_batched_serial hlimit fun s hs => by
    obtain ⟨a, rfl⟩ := hjobs s hs
    exact unaware_job a
  spans hlimit hjobs before := by
    have hagree : Agree id ((Step.batched limit steps).run (leaf backend scope job))
        ((Step.serial steps).run (leaf backend scope job)) :=
      agree_batched_serial hlimit fun s hs => by
        obtain ⟨a, rfl⟩ := hjobs s hs
        exact unaware_job a
    obtain ⟨hresult, halike⟩ := hagree before before (.refl before)
    obtain ⟨xs, hxs⟩ := exists_tell backend scope job steps .serial before
    refine ⟨xs, hxs, hxs.steps, hxs.lawful, ?_, ?_⟩
    · rw [hresult, halike.now]
      exact hxs.law
    · rw [halike.log_eq]
      exact hxs.reports
  nested hlimit hsteps := agree_batched_serial hlimit fun s hs => by
    rcases hsteps s hs with ⟨a, rfl⟩ | htimed
    · exact unaware_job a
    · exact unaware_of_timed htimed
  concurrent hlimit := by
    rw [run, run, runs_eq_map]
    exact inBatches_eq_together (by rwa [List.length_map])
  bounded before := by
    obtain ⟨xs, hxs⟩ := exists_tell backend scope job steps (.batched limit) before
    obtain ⟨batches, hbatches⟩ := hxs.law
    exact ⟨xs, hxs, hbatches.atWork_le⟩

/-- Each job takes five milliseconds, and the deployment fails. -/
def fiveEach : Backend Unit :=
  .assigned (fun _ => 5) fun j => if j.name = "deploy" then .ok .failed else .ok .succeeded

/-- Two jobs at once, and then a third. -/
def staged : List (Step Job) :=
  let named (name : String) : Job := { name, container := { image := "alpine" } }
  [.concurrent [.job (named "lint"), .job (named "test")], .job (named "deploy")]

/-- It makes no difference to them whether they are run in turn or in batches of one. -/
theorem agree_batched_staged :
    Agree Moment.millis ((Step.batched 0 staged).run (leaf (fun _ => fiveEach) default id))
      ((Step.serial staged).run (leaf (fun _ => fiveEach) default id)) :=
  (batched_between (fun _ => fiveEach) default id staged 0).nested (Nat.zero_le 1) fun _ _ =>
    .inr fun _ _ => Backend.timed_assigned _ _

end Step

end EventWorker
