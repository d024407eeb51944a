import EventWorker.Proofs.Related
import EventWorker.Proofs.Run.Work

/-!
# Work that takes an assigned time

Work is timed if it is over at once or when a timer rings, and if what it comes to, what it does and how
many milliseconds it takes do not depend on anything but the world and the millisecond in which it begins
(`Timed`). Turns are another matter: in which of them the members of a group begin depends on how many
groups stand around it. Yet this changes nothing. Only members that are waiting for something put the
others off, a group with such a member ends when a timer rings, and with a new millisecond the turns start
anew. So a group of timed members is timed, however groups are nested.

* `timed_together`: a group that runs timed members at once is timed.
* `Step.timed_run`: a step of jobs is timed if the backends are.
-/

namespace EventWorker

open Activity

variable {σ ε α β φ : Type}

/-! ### Timers -/

namespace Moment

variable {m : Moment} {k : Nat}

theorem latest_self (m : Moment) : m.latest m = m := by
  rw [latest, if_pos m.le_refl]

/-- A timer that rings in a later millisecond comes after everything in this one. -/
theorem latest_timer (h : m.millis < k) : m.latest ⟨k, 0⟩ = ⟨k, 0⟩ := by
  rw [latest, if_pos (le_iff.2 (.inl h))]

theorem timer_latest (h : m.millis < k) : latest ⟨k, 0⟩ m = ⟨k, 0⟩ := by
  have hnot : ¬ le ⟨k, 0⟩ m := by
    rw [le_iff]
    dsimp only
    omega
  rw [latest, if_neg hnot]

theorem latest_timers (k j : Nat) : latest ⟨k, 0⟩ ⟨j, 0⟩ = ⟨max k j, 0⟩ := by
  rcases Nat.lt_trichotomy k j with h | rfl | h
  · rw [latest_timer h, Nat.max_eq_right (Nat.le_of_lt h)]
  · rw [latest_self, Nat.max_self]
  · rw [timer_latest h, Nat.max_eq_left (Nat.le_of_lt h)]

end Moment

/-! ### In step -/

/-- What has been written down, and in which millisecond. -/
def Scene.diary (s : Scene σ ε) : List (Nat × ε) :=
  s.log.map fun e => (e.1.millis, e.2)

/-- Two scenes differ at most in turns, and in what groups keep for themselves. -/
structure Akin (s t : Scene σ ε) : Prop where
  millis : s.now.millis = t.now.millis
  world : s.world = t.world
  diary : s.diary = t.diary

/-- What was begun at `a` and at `b` ends at `a'` and at `b'`: both at once, or both when the same timer
rings. -/
def EndAlike (a a' b b' : Moment) : Prop :=
  a' = a ∧ b' = b ∨ ∃ k, a.millis < k ∧ a' = ⟨k, 0⟩ ∧ b' = ⟨k, 0⟩

/-- What two pieces of work that were begun in akin scenes have come to. -/
structure Parallel (R : α → β → Prop) (s t : Scene σ ε) (x : α × Scene σ ε) (y : β × Scene σ ε) :
    Prop where
  result : R x.1 y.1
  akin : Akin x.2 y.2
  ends : EndAlike s.now x.2.now t.now y.2.now
  gaveWay : s.gaveWay = t.gaveWay → x.2.gaveWay = y.2.gaveWay
  depth : x.2.depth = s.depth ∧ y.2.depth = t.depth

/-- Two pieces of work take the same time and do the same, wherever in a millisecond they begin and however
many groups stand around them. -/
def InStep (R : α → β → Prop) (m : Activity σ ε α) (n : Activity σ ε β) : Prop :=
  ∀ s t, Akin s t → Parallel R s t (m s) (n t)

/-- The time that work takes, and what it comes to, are assigned to it. -/
def Timed (m : Activity σ ε α) : Prop :=
  InStep Eq m m

namespace EndAlike

variable {a a' a'' b b' b'' : Moment}

theorem millis_eq (h : EndAlike a a' b b') (hab : a.millis = b.millis) : a'.millis = b'.millis := by
  rcases h with ⟨rfl, rfl⟩ | ⟨k, -, rfl, rfl⟩
  · exact hab
  · rfl

theorem trans (h : EndAlike a a' b b') (h' : EndAlike a' a'' b' b'') : EndAlike a a'' b b'' := by
  rcases h with ⟨rfl, rfl⟩ | ⟨k, hk, rfl, rfl⟩
  · exact h'
  · rcases h' with ⟨rfl, rfl⟩ | ⟨k', hk', rfl, rfl⟩
    · exact .inr ⟨k, hk, rfl, rfl⟩
    · exact .inr ⟨k', Nat.lt_trans hk hk', rfl, rfl⟩

end EndAlike

namespace InStep

variable {γ δ : Type} {R : α → β → Prop} {Q : γ → δ → Prop}

/-- Work that does nothing but look at the scene. -/
theorem still {m : Activity σ ε α} {n : Activity σ ε β} (hm : ∀ s, (m s).2 = s) (hn : ∀ s, (n s).2 = s)
    (h : ∀ s t, Akin s t → R (m s).1 (n t).1) : InStep R m n := by
  intro s t hst
  refine ⟨h s t hst, ?_, .inl ⟨?_, ?_⟩, ?_, ?_, ?_⟩ <;> simp only [hm, hn]
  · exact hst
  · exact fun h => h

theorem pure {a : α} {b : β} (h : R a b) :
    InStep R (Pure.pure a : Activity σ ε α) (Pure.pure b : Activity σ ε β) :=
  still (fun _ => rfl) (fun _ => rfl) fun _ _ _ => h

theorem now : InStep (fun a b => a.millis = b.millis) (Activity.now : Activity σ ε Moment)
    Activity.now :=
  still (fun _ => rfl) (fun _ => rfl) fun _ _ h => h.millis

theorem bind {m : Activity σ ε α} {n : Activity σ ε β} {f : α → Activity σ ε γ}
    {g : β → Activity σ ε δ} (hm : InStep R m n) (hf : ∀ a b, R a b → InStep Q (f a) (g b)) :
    InStep Q (m >>= f) (n >>= g) := by
  intro s t hst
  have hp := hm s t hst
  have hq := hf _ _ hp.result _ _ hp.akin
  exact {
    result := hq.result
    akin := hq.akin
    ends := hp.ends.trans hq.ends
    gaveWay := fun h => hq.gaveWay (hp.gaveWay h)
    depth := ⟨hq.depth.1.trans hp.depth.1, hq.depth.2.trans hp.depth.2⟩ }

end InStep

namespace Timed

theorem pure (a : α) : Timed (Pure.pure a : Activity σ ε α) :=
  InStep.pure rfl

theorem bind {m : Activity σ ε α} {f : α → Activity σ ε β} (hm : Timed m) (hf : ∀ a, Timed (f a)) :
    Timed (m >>= f) :=
  InStep.bind hm fun a _ hab => hab ▸ hf a

theorem sleep (millis : Nat) : Timed (Activity.sleep millis : Activity σ ε Unit) := by
  intro s t hst
  have hends : EndAlike s.now (s.now.after millis) t.now (t.now.after millis) := by
    rw [Moment.after, Moment.after, hst.millis]
    split
    · exact .inl ⟨rfl, rfl⟩
    · exact .inr ⟨_, by rw [hst.millis]; omega, rfl, rfl⟩
  exact ⟨rfl, ⟨hends.millis_eq hst.millis, hst.world, hst.diary⟩, hends, fun h => h, rfl, rfl⟩

theorem emit (e : ε) : Timed (Activity.emit e : Activity σ ε Unit) := by
  intro s t hst
  refine ⟨rfl, ⟨hst.millis, hst.world, ?_⟩, .inl ⟨rfl, rfl⟩, fun h => h, rfl, rfl⟩
  show (s.log ++ [(s.now, e)]).map _ = (t.log ++ [(t.now, e)]).map _
  rw [List.map_append, List.map_append]
  exact congrArg₂ (· ++ ·) hst.diary (congrArg (fun k => [(k, e)]) hst.millis)

/-- An errand that is timed takes its time in the run too. -/
theorem see {e : Errand σ α} (he : Timed e) : Timed (Work.see e) := by
  intro s t hst
  have hp := he { now := s.now, world := s.world.seen } { now := t.now, world := t.world.seen }
    ⟨hst.millis, congrArg World.seen hst.world, rfl⟩
  let x := e { now := s.now, world := s.world.seen }
  let y := e { now := t.now, world := t.world.seen }
  have hends : EndAlike s.now (s.now.latest x.2.now) t.now (t.now.latest y.2.now) := by
    rcases hp.ends with ⟨hx, hy⟩ | ⟨k, hk, hx, hy⟩
    · rw [hx, hy, Moment.latest_self, Moment.latest_self]
      exact .inl ⟨rfl, rfl⟩
    · have hk' : t.now.millis < k := hst.millis ▸ hk
      rw [hx, hy, Moment.latest_timer hk, Moment.latest_timer hk']
      exact .inr ⟨k, hk, rfl, rfl⟩
  refine ⟨hp.result, ⟨hends.millis_eq hst.millis, ?_, ?_⟩, hends, fun h => h, rfl, rfl⟩
  · show { s.world with seen := x.2.world } = { t.world with seen := y.2.world }
    rw [hst.world, hp.akin.world]
  · show (s.log ++ x.2.log.map _).map _ = (t.log ++ y.2.log.map _).map _
    rw [List.map_append, List.map_append, List.map_map, List.map_map]
    have hlog := congrArg (List.map fun e : Nat × String => (e.1, Entry.operation e.2)) hp.akin.diary
    simp only [Scene.diary, List.map_map] at hlog
    exact congrArg₂ (· ++ ·) hst.diary hlog

end Timed

/-! ### Members of a group -/

/-- How a member of a group has ended: as soon as it began, after so many waves, or when a timer rang. -/
inductive Ending where
  | atOnce (waves : Nat)
  | later (millis : Nat)

namespace Ending

/-- The end of a member of a group that began at `start` and stands in `depth` others. -/
def moment (start : Moment) (depth : Nat) : Ending → Moment
  | atOnce waves => { start with turn := start.turn + waves * (depth + 1) }
  | later millis => ⟨millis, 0⟩

/-- A member has ended in this way, and one after it in that. -/
def Before (millis : Nat) : Ending → Ending → Prop
  | atOnce waves, atOnce waves' => waves ≤ waves'
  | atOnce _, later k => millis < k
  | later k, _ => millis < k

/-- Which of two members is the first to end has nothing to do with the turn in which the group began,
nor with the groups around it. -/
theorem le_moment_congr {z z' : Ending} {start start' : Moment} (h : Before start.millis z z')
    (hstart : start.millis = start'.millis) (depth depth' : Nat) :
    (z.moment start depth).le (z'.moment start depth) ↔
      (z.moment start' depth').le (z'.moment start' depth') := by
  cases z with
  | atOnce w =>
    cases z' with
    | atOnce w' =>
      have hle : ∀ (m : Moment) (d : Nat), ((atOnce w).moment m d).le ((atOnce w').moment m d) :=
        fun m d => Moment.le_iff.2
          (.inr ⟨rfl, Nat.add_le_add_left (Nat.mul_le_mul_right (d + 1) h) m.turn⟩)
      exact iff_of_true (hle start depth) (hle start' depth')
    | later k =>
      have h : start.millis < k := h
      exact iff_of_true (Moment.le_iff.2 (.inl h)) (Moment.le_iff.2 (.inl (hstart ▸ h)))
  | later k =>
    have h : start.millis < k := h
    cases z' with
    | atOnce w' =>
      have hnot : ∀ (m : Moment) (d : Nat), m.millis < k →
          ¬ ((later k).moment m d).le ((atOnce w').moment m d) := by
        intro m d hm hle
        have hle : k < m.millis ∨ k = m.millis ∧ 0 ≤ _ := Moment.le_iff.1 hle
        omega
      exact iff_of_false (hnot start depth h) (hnot start' depth' (hstart ▸ h))
    | later k' => exact Iff.rfl

end Ending

/-- What the members of a group have come to that began in a millisecond, where so many waves have gone
before them. A member that ends as it begins makes no others wait. -/
inductive Unfolds (millis : Nat) : Nat → List (α × Ending) → Prop where
  | nil {waves : Nat} : Unfolds millis waves []
  | atOnce {waves : Nat} {a : α} {zs : List (α × Ending)} :
      Unfolds millis waves zs → Unfolds millis waves ((a, .atOnce waves) :: zs)
  | later {waves waves' k : Nat} {a : α} {zs : List (α × Ending)} : millis < k → waves ≤ waves' →
      Unfolds millis waves' zs → Unfolds millis waves ((a, .later k) :: zs)

/-- The results of members with their ends, in a group that began at `start`. -/
def endings (start : Moment) (depth : Nat) (zs : List (α × Ending)) : List (α × Moment) :=
  zs.map fun z => (z.1, z.2.moment start depth)

namespace Unfolds

variable {millis waves : Nat} {zs : List (α × Ending)}

theorem before_of_mem (h : Unfolds millis waves zs) :
    ∀ z ∈ zs, Ending.Before millis (.atOnce waves) z.2 := by
  induction h with
  | nil => exact fun z hz => absurd hz List.not_mem_nil
  | atOnce _ ih => exact List.forall_mem_cons.2 ⟨Nat.le_refl _, ih⟩
  | later hk hle _ ih =>
    refine List.forall_mem_cons.2 ⟨hk, fun z hz => ?_⟩
    have hz := ih z hz
    rcases hend : z.2 with w | k
    · rw [hend] at hz
      exact Nat.le_trans hle hz
    · rw [hend] at hz
      exact hz

theorem pairwise (h : Unfolds millis waves zs) :
    zs.Pairwise fun y z => Ending.Before millis y.2 z.2 := by
  induction h with
  | nil => exact List.Pairwise.nil
  | atOnce hrest ih => exact List.pairwise_cons.2 ⟨hrest.before_of_mem, ih⟩
  | later hk _ _ ih => exact List.pairwise_cons.2 ⟨fun _ _ => hk, ih⟩

/-- Once a member has to be waited for, it is a timer that ends the group. -/
theorem latestOf_of_later (h : Unfolds millis waves zs) : ∀ k, millis < k →
    ∃ k', millis < k' ∧ ∀ start depth, start.millis = millis →
      latestOf ⟨k, 0⟩ (endings start depth zs) = ⟨k', 0⟩ := by
  induction h with
  | nil => exact fun k hk => ⟨k, hk, fun _ _ _ => rfl⟩
  | @atOnce w a zs _ ih =>
    intro k hk
    obtain ⟨k', hk', hlatest⟩ := ih k hk
    refine ⟨k', hk', fun start depth hstart => ?_⟩
    have hbefore : ((Ending.atOnce w).moment start depth).millis < k := hstart.symm ▸ hk
    show latestOf (Moment.latest ⟨k, 0⟩ ((Ending.atOnce w).moment start depth)) _ = _
    rw [Moment.timer_latest hbefore]
    exact hlatest start depth hstart
  | @later w w' j a zs hj _ _ ih =>
    intro k hk
    obtain ⟨k', hk', hlatest⟩ := ih (max k j) (Nat.lt_of_lt_of_le hk (Nat.le_max_left k j))
    refine ⟨k', hk', fun start depth hstart => ?_⟩
    show latestOf (Moment.latest ⟨k, 0⟩ ⟨j, 0⟩) _ = _
    rw [Moment.latest_timers]
    exact hlatest start depth hstart

/-- A group is over at once, or when a timer rings. -/
theorem latestOf_eq (h : Unfolds millis waves zs) (hwaves : waves = 0) :
    (∀ start depth, start.millis = millis → latestOf start (endings start depth zs) = start) ∨
      ∃ k, millis < k ∧ ∀ start depth, start.millis = millis →
        latestOf start (endings start depth zs) = ⟨k, 0⟩ := by
  induction h with
  | nil => exact .inl fun _ _ _ => rfl
  | @atOnce w a zs _ ih =>
    subst hwaves
    have hfirst : ∀ start depth, latestOf start (endings start depth ((a, .atOnce 0) :: zs)) =
        latestOf start (endings start depth zs) := by
      intro start depth
      have hstart : (Ending.atOnce 0).moment start depth = start := by
        rw [Ending.moment, Nat.zero_mul, Nat.add_zero]
      show latestOf (start.latest ((Ending.atOnce 0).moment start depth)) _ = _
      rw [hstart, Moment.latest_self]
      rfl
    simpa only [hfirst] using ih rfl
  | @later w w' j a zs hj _ hrest _ =>
    obtain ⟨k, hk, hlatest⟩ := hrest.latestOf_of_later j hj
    refine .inr ⟨k, hk, fun start depth hstart => ?_⟩
    show latestOf (start.latest ⟨j, 0⟩) _ = _
    rw [Moment.latest_timer (by rw [hstart]; exact hj)]
    exact hlatest start depth hstart

end Unfolds

/-- The failure that comes first is that of the same member, in whichever turn the group began. -/
theorem exists_firstFailure {zs : List (Except φ Unit × Ending)} {start start' : Moment}
    (h : zs.Pairwise fun y z => Ending.Before start.millis y.2 z.2)
    (hstart : start.millis = start'.millis) (depth depth' : Nat) :
    ∃ o : Option (φ × Ending), (∀ z, o = some z → (.error z.1, z.2) ∈ zs) ∧
      firstFailure (endings start depth zs) = o.map (fun z => (z.1, z.2.moment start depth)) ∧
      firstFailure (endings start' depth' zs) =
        o.map (fun z => (z.1, z.2.moment start' depth')) := by
  induction zs with
  | nil => exact ⟨none, nofun, rfl, rfl⟩
  | cons y zs ih =>
    obtain ⟨hbefore, hrest⟩ := List.pairwise_cons.1 h
    obtain ⟨o, hmem, ho, ho'⟩ := ih hrest
    obtain ⟨result, ending⟩ := y
    cases result with
    | ok _ => exact ⟨o, fun z hz => List.mem_cons_of_mem _ (hmem z hz), ho, ho'⟩
    | error e =>
      show ∃ o : Option (φ × Ending), _ ∧
        firstFailure ((.error e, ending.moment start depth) :: endings start depth zs) = _ ∧
        firstFailure ((.error e, ending.moment start' depth') :: endings start' depth' zs) = _
      rw [firstFailure, firstFailure, ho, ho']
      cases o with
      | none => exact ⟨some (e, ending), by simp, rfl, rfl⟩
      | some z =>
        have hle := Ending.le_moment_congr (hbefore _ (hmem z rfl)) hstart depth depth'
        by_cases hfirst : (ending.moment start depth).le (z.2.moment start depth) = true
        · refine ⟨some (e, ending), by simp, ?_, ?_⟩
          · exact if_pos hfirst
          · exact if_pos (hle.1 hfirst)
        · refine ⟨some z, fun z' hz' => ?_, ?_, ?_⟩
          · exact List.mem_cons_of_mem _ (hmem z' hz')
          · exact if_neg hfirst
          · exact if_neg (hle.not.1 hfirst)

/-! ### Groups -/

namespace InStep

theorem inOrder {ms ns : List (Activity σ ε (Except φ Unit))} (h : List.Forall₂ (InStep Eq) ms ns) :
    InStep Eq (Activity.inOrder ms) (Activity.inOrder ns) := by
  induction h with
  | nil => exact .pure rfl
  | cons hm _ ih =>
    refine .bind hm fun a b hab => ?_
    subst hab
    cases a with
    | ok _ => exact ih
    | error e => exact .pure rfl

end InStep

theorem le_waves_add (o : Opening) (done gaveWay : Bool) : o.waves ≤ (o.add done gaveWay).waves := by
  rw [Opening.add]
  split
  · exact Nat.le_refl _
  · dsimp only
    split
    · exact Nat.le_succ _
    · exact Nat.le_refl _

/-- A group begins a member at a moment, takes note of how it has begun, and goes on to the others. -/
theorem each_cons (start : Moment) (o : Opening) (m : Activity σ ε α) (ms : List (Activity σ ε α))
    (s : Scene σ ε) {x : α × Scene σ ε}
    (hx : m { s with now := o.next start s.depth, depth := s.depth + 1, gaveWay := none } = x)
    {rest : (List (α × Moment) × Opening) × Scene σ ε}
    (hrest : each start
      (o.add (x.2.now == o.next start s.depth) (x.2.gaveWay == some start.millis)) ms
      { x.2 with depth := x.2.depth - 1 } = rest) :
    each start o (m :: ms) s = (((x.1, x.2.now) :: rest.1.1, rest.1.2), rest.2) := by
  subst hx hrest
  rfl

/-- A member is done at once in both runs, or has to be waited for in both. -/
theorem EndAlike.exists_ending (α : Type) {o : Opening} {start start' a b : Moment} {depth depth' : Nat}
    (h : EndAlike (o.next start depth) a (o.next start' depth') b)
    (hstart : start.millis = start'.millis) :
    ∃ z : Ending, a = z.moment start depth ∧ b = z.moment start' depth' ∧
      (b == o.next start' depth') = (a == o.next start depth) ∧
      ∀ (gaveWay : Bool) (r : α) (zs : List (α × Ending)),
        Unfolds start.millis (o.add (a == o.next start depth) gaveWay).waves zs →
        Unfolds start.millis o.waves ((r, z) :: zs) := by
  rcases h with ⟨rfl, rfl⟩ | ⟨k, hk, rfl, rfl⟩
  · refine ⟨.atOnce o.waves, rfl, rfl, by rw [beq_self_eq_true, beq_self_eq_true], ?_⟩
    intro gaveWay r zs hzs
    rw [beq_self_eq_true] at hzs
    exact .atOnce hzs
  · have hk : start.millis < k := hk
    have hlater : ∀ (m : Moment) (d : Nat), m.millis < k →
        ((⟨k, 0⟩ : Moment) == o.next m d) = false := by
      intro m d hm
      refine beq_eq_false_iff_ne.2 fun heq => ?_
      have hmillis : k = m.millis := congrArg Moment.millis heq
      omega
    refine ⟨.later k, rfl, rfl, ?_, fun gaveWay r zs hzs => ?_⟩
    · rw [hlater start depth hk, hlater start' depth' (hstart ▸ hk)]
    · exact .later hk (le_waves_add o _ gaveWay) hzs

/-- Members that are timed come to the same in two runs of their group, and end in the same way. -/
theorem exists_endings {members : List (Activity σ ε α)} (h : ∀ m ∈ members, Timed m)
    {start start' : Moment} (hstart : start.millis = start'.millis) :
    ∀ (o : Opening) (s t : Scene σ ε), s.world = t.world → s.diary = t.diary →
      ∃ zs o', Unfolds start.millis o.waves zs ∧
        (each start o members s).1 = (endings start s.depth zs, o') ∧
        (each start' o members t).1 = (endings start' t.depth zs, o') ∧
        (each start o members s).2.world = (each start' o members t).2.world ∧
        (each start o members s).2.diary = (each start' o members t).2.diary ∧
        (each start o members s).2.depth = s.depth ∧ (each start' o members t).2.depth = t.depth := by
  induction members with
  | nil => exact fun o s t hworld hdiary => ⟨[], o, .nil, rfl, rfl, hworld, hdiary, rfl, rfl⟩
  | cons m ms ih =>
    intro o s t hworld hdiary
    let begun := o.next start s.depth
    let begun' := o.next start' t.depth
    have hp := h m List.mem_cons_self
      { s with now := begun, depth := s.depth + 1, gaveWay := none }
      { t with now := begun', depth := t.depth + 1, gaveWay := none } ⟨hstart, hworld, hdiary⟩
    obtain ⟨x, hx⟩ : ∃ x, m { s with now := begun, depth := s.depth + 1, gaveWay := none } = x :=
      ⟨_, rfl⟩
    obtain ⟨y, hy⟩ : ∃ y, m { t with now := begun', depth := t.depth + 1, gaveWay := none } = y :=
      ⟨_, rfl⟩
    rw [hx, hy] at hp
    obtain ⟨z, hz, hz', hdone, hunfolds⟩ := hp.ends.exists_ending α hstart
    have hgave : (y.2.gaveWay == some start'.millis) = (x.2.gaveWay == some start.millis) := by
      rw [hp.gaveWay rfl, hstart]
    obtain ⟨zs, o', hzs, hs, ht, hworld', hdiary', hdepth, hdepth'⟩ :=
      ih (fun m' hm' => h m' (List.mem_cons_of_mem m hm'))
        (o.add (x.2.now == begun) (x.2.gaveWay == some start.millis))
        { x.2 with depth := x.2.depth - 1 } { y.2 with depth := y.2.depth - 1 }
        hp.akin.world hp.akin.diary
    have hxdepth : x.2.depth - 1 = s.depth := by rw [hp.depth.1, Nat.add_sub_cancel]
    have hydepth : y.2.depth - 1 = t.depth := by rw [hp.depth.2, Nat.add_sub_cancel]
    rw [each_cons start o m ms s hx rfl, each_cons start' o m ms t hy rfl, hdone, hgave]
    refine ⟨(x.1, z) :: zs, o', hunfolds _ _ _ hzs, ?_, ?_, hworld', hdiary',
      hdepth.trans hxdepth, hdepth'.trans hydepth⟩
    · dsimp only
      rw [hs, hz, hxdepth]
      rfl
    · dsimp only
      rw [ht, hz', hydepth, ← hp.result]
      rfl

/-- **A group of timed members is timed.** -/
theorem timed_together {members : List (Activity σ ε (Except φ Unit))} (h : ∀ m ∈ members, Timed m) :
    Timed (together members) := by
  intro s t hst
  obtain ⟨zs, o, hunfolds, hs, ht, hworld, hdiary, hdepth, hdepth'⟩ :=
    exists_endings h hst.millis {} s t hst.world hst.diary
  have hends : EndAlike s.now (latestOf s.now (endings s.now s.depth zs)) t.now
      (latestOf t.now (endings t.now t.depth zs)) := by
    rcases hunfolds.latestOf_eq rfl with hnow | ⟨k, hk, hlater⟩
    · exact .inl ⟨hnow _ _ rfl, hnow _ _ hst.millis.symm⟩
    · exact .inr ⟨k, hk, hlater _ _ rfl, hlater _ _ hst.millis.symm⟩
  obtain ⟨f, -, hf, hf'⟩ := exists_firstFailure hunfolds.pairwise hst.millis s.depth t.depth
  rw [together_eq, together_eq, hs, ht]
  refine ⟨?_, ⟨hends.millis_eq hst.millis, hworld, hdiary⟩, hends, fun hgave => ?_, hdepth, hdepth'⟩
  · dsimp only
    rw [hf, hf']
    cases f with
    | none => rfl
    | some z => rfl
  · dsimp only
    rw [hgave, hst.millis]

theorem timed_inOrder {members : List (Activity σ ε (Except φ Unit))} (h : ∀ m ∈ members, Timed m) :
    Timed (inOrder members) :=
  InStep.inOrder (List.forall₂_same.2 h)

theorem gathers_timed : Gathers (Timed : Activity σ ε (Except φ Unit) → Prop) where
  inOrder := timed_inOrder
  together := timed_together

/-! ### Jobs and steps -/

namespace Backend

/-- What a backend does takes an assigned time. -/
structure Timed (b : Backend σ) : Prop where
  submit : ∀ j scope, EventWorker.Timed (b.submit j scope)
  observe : ∀ j u, EventWorker.Timed (b.observe j u)

/-- A backend at which each job takes the milliseconds, and comes to the outcome, that are assigned to
it. -/
def assigned (duration : Job → Nat) (outcome : Job → Except JobError Phase) : Backend σ where
  submit job scope := return .ok (namedUnit job scope)
  observe job _ := do
    Activity.sleep (duration job)
    return outcome job
  logs _ := return .ok ""

theorem timed_assigned (duration : Job → Nat) (outcome : Job → Except JobError Phase) :
    (assigned duration outcome : Backend σ).Timed where
  submit _ _ := .pure _
  observe job _ := .bind (.sleep (duration job)) fun _ => .pure _

end Backend

namespace Job

variable {b : Backend σ} (scope : RunScope) (j : Job)

theorem timed_execute (h : b.Timed) : Timed (j.execute b scope) := by
  refine .bind (.see (h.submit j scope)) fun submitted => ?_
  cases submitted with
  | error e => exact .pure _
  | ok u =>
    refine .bind (.emit _) fun _ => .bind (.see (h.observe j u)) fun observed => ?_
    cases observed with
    | error e => exact .pure _
    | ok p => exact .pure _

/-- Of the moments at which it begins and ends a job reports the milliseconds between them. -/
theorem timed_schedule (h : b.Timed) : Timed (j.schedule b scope) := by
  refine InStep.bind .now fun start start' hstart => .bind (Timed.emit _) fun _ _ _ =>
    .bind (timed_execute scope j h) fun r r' hr => ?_
  subst hr
  obtain ⟨unit, result⟩ := r
  refine InStep.bind .now fun stop stop' hstop => ?_
  rw [hstart, hstop]
  cases result with
  | ok _ => exact .bind (Timed.emit _) fun _ _ _ => .pure rfl
  | error e => exact .bind (Timed.emit _) fun _ _ _ => .pure rfl

theorem timed_run (h : b.Timed) : Timed (j.run b scope) :=
  .bind (timed_schedule scope j h) fun _ => .pure _

end Job

/-- **A step is timed if its leaves are**, however its groups are nested. -/
theorem Step.timed_run {perform : α → Activity σ ε (Except φ Unit)} (s : Step α)
    (h : ∀ a ∈ s.jobs, Timed (perform a)) : Timed (s.run perform) :=
  gathers_timed.step s h

end EventWorker
