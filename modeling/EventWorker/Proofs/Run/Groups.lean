import EventWorker.Proofs.Related
import EventWorker.Proofs.Run.Work

/-!
# How groups run their members

What a group may do with its members, told by when each of them was at work and what it came to
(`Span`); a member that was never begun has no span. In turn, a member begins when those before it have
succeeded (`InTurn`). At once, all members begin, and the group ends with the last of them (`AtOnce`). In
batches, the members of a batch begin at once, and the batches in turn (`InBatches`).

* `atOnce_of_matches`: members whose ends are as a group sees them have been run at once.
* `Way.success_of_law`, `Way.failure_of_law`, `Way.within_of_law`: whichever way its members are run, a
  group succeeds if they all do, fails with the error of one of them, and is not over before they are.
-/

namespace EventWorker

open Activity

variable {α β φ : Type}

/-- A piece of work that has been done: when it began, when it ended, and what it came to. -/
structure Span (φ : Type) where
  begun : Moment
  ended : Moment
  result : Except φ Unit

/-- All members have been at work and have succeeded. -/
def AllSucceeded (members : List (Option (Span φ))) : Prop :=
  ∀ a ∈ members, ∃ m, a = some m ∧ m.result = .ok ()

/-! ### In turn -/

/-- Members that a group runs one after another, up to the first that fails. -/
structure InTurn (group : Span φ) (members : List (Option (Span φ))) : Prop where
  within : ∀ m, some m ∈ members → group.begun.le m.begun ∧ m.ended.le group.ended
  /-- Where a member has begun, all before it had succeeded and were over by then. -/
  order : members.Pairwise fun a b => ∀ n, b = some n →
    ∃ m, a = some m ∧ m.result = .ok () ∧ m.ended.le n.begun
  success : group.result = .ok () ↔ AllSucceeded members
  failure : ∀ e, group.result = .error e ↔ ∃ m, some m ∈ members ∧ m.result = .error e

namespace InTurn

variable {group m : Span φ} {rest : List (Option (Span φ))}

theorem nil (t : Moment) : InTurn (⟨t, t, .ok ()⟩ : Span φ) [] where
  within _ hm := absurd hm List.not_mem_nil
  order := List.Pairwise.nil
  success := ⟨fun _ _ ha => absurd ha List.not_mem_nil, fun _ => rfl⟩
  failure _ := by
    constructor
    · intro h
      cases h
    · exact fun ⟨_, hm, _⟩ => absurd hm List.not_mem_nil

/-- A member that fails is the last. -/
theorem stop {e : φ} (he : m.result = .error e) (hrest : ∀ a ∈ rest, a = none) :
    InTurn m (some m :: rest) where
  within n hn := by
    rcases List.mem_cons.1 hn with heq | hn
    · obtain rfl := Option.some.inj heq
      exact ⟨n.begun.le_refl, n.ended.le_refl⟩
    · exact absurd (hrest _ hn) (Option.some_ne_none n)
  order := by
    have hnone : ∀ a ∈ rest, ∀ n : Span φ, a ≠ some n := fun a ha n hn =>
      Option.some_ne_none n (hn.symm.trans (hrest a ha))
    refine List.pairwise_cons.2 ⟨fun a ha n hn => absurd hn (hnone a ha n), ?_⟩
    exact List.pairwise_of_forall_mem_list fun _ _ b hb n hn => absurd hn (hnone b hb n)
  success := by
    constructor
    · intro hok
      rw [he] at hok
      cases hok
    · intro h
      obtain ⟨n, hn, hok⟩ := h _ List.mem_cons_self
      obtain rfl := Option.some.inj hn
      exact hok
  failure e' := by
    constructor
    · exact fun h => ⟨m, List.mem_cons_self, h⟩
    · rintro ⟨n, hn, hne⟩
      rcases List.mem_cons.1 hn with heq | hn
      · obtain rfl := Option.some.inj heq
        exact hne
      · exact absurd (hrest _ hn) (Option.some_ne_none n)

/-- After a member that succeeds the group goes on with the others. -/
theorem cons (hm : m.result = .ok ()) (hle : m.begun.le m.ended) (hnext : m.ended = group.begun)
    (hgroup : group.begun.le group.ended) (h : InTurn group rest) :
    InTurn ⟨m.begun, group.ended, group.result⟩ (some m :: rest) where
  within n hn := by
    rcases List.mem_cons.1 hn with heq | hn
    · obtain rfl := Option.some.inj heq
      exact ⟨n.begun.le_refl, hnext ▸ hgroup⟩
    · obtain ⟨hbegun, hended⟩ := h.within n hn
      exact ⟨Moment.le_trans (hnext ▸ hle) hbegun, hended⟩
  order := by
    refine List.pairwise_cons.2 ⟨fun a ha n hn => ⟨m, rfl, hm, ?_⟩, h.order⟩
    rw [hnext]
    exact (h.within n (hn ▸ ha)).1
  success := by
    rw [h.success]
    constructor
    · intro hall a ha
      rcases List.mem_cons.1 ha with rfl | ha
      · exact ⟨m, rfl, hm⟩
      · exact hall a ha
    · exact fun hall a ha => hall a (List.mem_cons_of_mem _ ha)
  failure e := by
    rw [h.failure]
    constructor
    · exact fun ⟨n, hn, he⟩ => ⟨n, List.mem_cons_of_mem _ hn, he⟩
    · rintro ⟨n, hn, he⟩
      rcases List.mem_cons.1 hn with heq | hn
      · obtain rfl := Option.some.inj heq
        rw [hm] at he
        cases he
      · exact ⟨n, hn, he⟩

end InTurn

/-! ### At once -/

/-- Members that a group begins at once and waits for, also when some fail. -/
structure AtOnce (group : Span φ) (members : List (Option (Span φ))) : Prop where
  /-- All members begin in the millisecond in which the group does, and are over when it is. -/
  all : ∀ a ∈ members, ∃ m, a = some m ∧ m.begun.millis = group.begun.millis ∧
    group.begun.le m.begun ∧ m.ended.le group.ended
  /-- The group is over as soon as they are. -/
  last : group.ended = group.begun ∨ ∃ m, some m ∈ members ∧ group.ended = m.ended
  success : group.result = .ok () ↔ AllSucceeded members
  /-- The error is that of the member that was the first to fail. -/
  failure : ∀ e, group.result = .error e → ∃ m, some m ∈ members ∧ m.result = .error e ∧
    ∀ n, some n ∈ members → n.result ≠ .ok () → m.ended.le n.ended

theorem AtOnce.within {group m : Span φ} {members : List (Option (Span φ))} (h : AtOnce group members)
    (hm : some m ∈ members) : group.begun.le m.begun ∧ m.ended.le group.ended := by
  obtain ⟨n, hn, -, hbegun, hended⟩ := h.all _ hm
  obtain rfl := Option.some.inj hn
  exact ⟨hbegun, hended⟩

theorem firstFailure_eq_none_iff {results : List (Except φ Unit × Moment)} :
    firstFailure results = none ↔ ∀ r ∈ results, r.1 = .ok () := by
  induction results with
  | nil => simp [firstFailure]
  | cons r rest ih =>
    obtain ⟨result, t⟩ := r
    cases result with
    | ok _ =>
      rw [firstFailure, ih, List.forall_mem_cons]
      exact (and_iff_right rfl).symm
    | error e =>
      have hsome : firstFailure ((.error e, t) :: rest) ≠ none := by
        rw [firstFailure]
        split
        · split <;> exact Option.some_ne_none _
        · exact Option.some_ne_none _
      refine iff_of_false hsome fun h => ?_
      cases h _ List.mem_cons_self

/-- The failure that is taken is that of a member, and no other member has failed before. -/
theorem firstFailure_eq_some {results : List (Except φ Unit × Moment)} {e : φ} {t : Moment}
    (h : firstFailure results = some (e, t)) :
    (.error e, t) ∈ results ∧ ∀ r ∈ results, r.1 ≠ .ok () → t.le r.2 := by
  induction results generalizing e t with
  | nil => cases h
  | cons r rest ih =>
    obtain ⟨result, u⟩ := r
    cases result with
    | ok _ =>
      rw [firstFailure] at h
      obtain ⟨hmem, hle⟩ := ih h
      refine ⟨List.mem_cons_of_mem _ hmem, List.forall_mem_cons.2 ⟨fun hne => absurd rfl hne, hle⟩⟩
    | error e' =>
      rw [firstFailure] at h
      cases hrest : firstFailure rest with
      | none =>
        rw [hrest] at h
        obtain ⟨rfl, rfl⟩ := Prod.mk.inj (Option.some.inj h)
        refine ⟨List.mem_cons_self, List.forall_mem_cons.2 ⟨fun _ => u.le_refl, fun r hr hne => ?_⟩⟩
        exact absurd (firstFailure_eq_none_iff.1 hrest r hr) hne
      | some f =>
        obtain ⟨hmem, hle⟩ := ih hrest
        rw [hrest] at h
        dsimp only at h
        split at h
        · next hu =>
          obtain ⟨rfl, rfl⟩ := Prod.mk.inj (Option.some.inj h)
          refine ⟨List.mem_cons_self, List.forall_mem_cons.2 ⟨fun _ => u.le_refl, fun r hr hne => ?_⟩⟩
          exact Moment.le_trans hu (hle r hr hne)
        · next hu =>
          obtain ⟨rfl, rfl⟩ := Prod.mk.inj (Option.some.inj h)
          exact ⟨List.mem_cons_of_mem _ hmem,
            List.forall_mem_cons.2 ⟨fun _ => Moment.le_of_not_le hu, hle⟩⟩

theorem le_latestOf_of_mem {results : List (α × Moment)} {r : α × Moment} (hr : r ∈ results) :
    ∀ start : Moment, r.2.le (latestOf start results) := by
  induction results with
  | nil => exact absurd hr List.not_mem_nil
  | cons r' rs ih =>
    intro start
    rcases List.mem_cons.1 hr with rfl | hr
    · exact Moment.le_trans (Moment.le_latest_right start r.2) (le_latestOf rs _)
    · exact ih hr (start.latest r'.2)

theorem latestOf_eq_or (results : List (α × Moment)) :
    ∀ start : Moment, latestOf start results = start ∨ ∃ r ∈ results, latestOf start results = r.2 := by
  induction results with
  | nil => exact fun start => Or.inl rfl
  | cons r rs ih =>
    intro start
    have hcons : latestOf start (r :: rs) = latestOf (start.latest r.2) rs := rfl
    rcases ih (start.latest r.2) with heq | ⟨r', hr', heq⟩
    · by_cases hle : start.le r.2
      · refine Or.inr ⟨r, List.mem_cons_self, hcons.trans (heq.trans ?_)⟩
        rw [Moment.latest, if_pos hle]
      · refine Or.inl (hcons.trans (heq.trans ?_))
        rw [Moment.latest, if_neg hle]
    · exact Or.inr ⟨r', List.mem_cons_of_mem r hr', heq⟩

/-- A span that says what a member has come to, begun in the millisecond in which its group was. -/
def Matches (start : Moment) (a : Option (Span φ)) (r : Except φ Unit × Moment) : Prop :=
  ∃ begun : Moment, a = some ⟨begun, r.2, r.1⟩ ∧ begun.millis = start.millis ∧ start.le begun

/-- From what its members have come to follows what a group has. -/
theorem atOnce_of_matches {start : Moment} {spans : List (Option (Span φ))}
    {results : List (Except φ Unit × Moment)} (h : List.Forall₂ (Matches start) spans results) :
    AtOnce ⟨start, latestOf start results, match firstFailure results with
      | some (e, _) => .error e
      | none => .ok ()⟩ spans where
  all a ha := by
    obtain ⟨r, hr, begun, rfl, hmillis, hle⟩ := exists_of_mem_left h ha
    exact ⟨_, rfl, hmillis, hle, le_latestOf_of_mem hr start⟩
  last := by
    rcases latestOf_eq_or results start with heq | ⟨r, hr, heq⟩
    · exact Or.inl heq
    · obtain ⟨a, ha, begun, rfl, -⟩ := exists_of_mem_right h hr
      exact Or.inr ⟨_, ha, heq⟩
  success := by
    have hall : AllSucceeded spans ↔ ∀ r ∈ results, r.1 = .ok () := by
      constructor
      · intro hs r hr
        obtain ⟨a, ha, begun, rfl, -⟩ := exists_of_mem_right h hr
        obtain ⟨m, hm, hok⟩ := hs _ ha
        obtain rfl := Option.some.inj hm
        exact hok
      · intro hr a ha
        obtain ⟨r, hmem, begun, rfl, -⟩ := exists_of_mem_left h ha
        exact ⟨_, rfl, hr r hmem⟩
    rw [hall, ← firstFailure_eq_none_iff]
    cases firstFailure results with
    | none => exact iff_of_true rfl rfl
    | some f => exact iff_of_false (fun heq => by cases heq) (Option.some_ne_none f)
  failure e he := by
    cases hfirst : firstFailure results with
    | none =>
      rw [hfirst] at he
      cases he
    | some f =>
      obtain ⟨e', t⟩ := f
      rw [hfirst] at he
      obtain rfl : e' = e := Except.error.inj he
      obtain ⟨hmem, hleast⟩ := firstFailure_eq_some hfirst
      obtain ⟨a, ha, begun, rfl, -⟩ := exists_of_mem_right h hmem
      refine ⟨_, ha, rfl, fun n hn hne => ?_⟩
      obtain ⟨r, hr, begun', hspan, -⟩ := exists_of_mem_left h hn
      obtain rfl := Option.some.inj hspan
      exact hleast r hr hne

/-! ### In batches -/

/-- Members that have been run by a law, or, where the group was never begun, not at all. -/
def Follows (law : Span φ → List (Option (Span φ)) → Prop) :
    Option (Span φ) → List (Option (Span φ)) → Prop
  | some group, members => law group members
  | none, members => ∀ a ∈ members, a = none

/-- Members that a group runs batch by batch. -/
structure Batched (limit : Nat) (group : Span φ) (members : List (Option (Span φ)))
    (batches : List (Option (Span φ) × List (Option (Span φ)))) : Prop where
  /-- The batches are made in the order in which the members are declared. -/
  flatten : (batches.map (·.2)).flatten = members
  size : ∀ b ∈ batches, b.2 ≠ [] ∧ b.2.length ≤ max limit 1
  /-- Only the last batch may be smaller than the limit. -/
  full : ∀ b ∈ batches.dropLast, b.2.length = max limit 1
  inTurn : InTurn group (batches.map (·.1))
  atOnce : ∀ b ∈ batches, Follows AtOnce b.1 b.2
  /-- Where a member has begun, all members of the batches before had succeeded and were over. -/
  order : batches.Pairwise fun a b => ∀ n, some n ∈ b.2 → ∀ x ∈ a.2,
    ∃ m, x = some m ∧ m.result = .ok () ∧ m.ended.le n.begun

/-- Members that a group begins in batches, and batch after batch, up to the first that fails. -/
def InBatches (limit : Nat) (group : Span φ) (members : List (Option (Span φ))) : Prop :=
  ∃ batches, Batched limit group members batches

/-- If one batch comes after another, so does every member of it after all members of the other. -/
theorem order_of_follows {a b : Option (Span φ) × List (Option (Span φ))}
    (ha : Follows AtOnce a.1 a.2) (hb : Follows AtOnce b.1 b.2)
    (hab : ∀ n, b.1 = some n → ∃ m, a.1 = some m ∧ m.result = .ok () ∧ m.ended.le n.begun) :
    ∀ n, some n ∈ b.2 → ∀ x ∈ a.2, ∃ m, x = some m ∧ m.result = .ok () ∧ m.ended.le n.begun := by
  obtain ⟨batch, members⟩ := a
  obtain ⟨next, others⟩ := b
  intro n hn x hx
  cases next with
  | none => exact absurd (hb _ hn) (Option.some_ne_none n)
  | some group =>
    obtain ⟨before, rfl, hok, hle⟩ := hab group rfl
    obtain ⟨m, rfl, hm⟩ := (AtOnce.success ha).1 hok x hx
    exact ⟨m, rfl, hm, Moment.le_trans (Moment.le_trans (AtOnce.within ha hx).2 hle)
      (AtOnce.within hb hn).1⟩

/-- Batches that are run in turn follow each other member by member. -/
theorem pairwise_of_inTurn {group : Span φ}
    {batches : List (Option (Span φ) × List (Option (Span φ)))}
    (hturn : InTurn group (batches.map (·.1))) (honce : ∀ b ∈ batches, Follows AtOnce b.1 b.2) :
    batches.Pairwise fun a b => ∀ n, some n ∈ b.2 → ∀ x ∈ a.2,
      ∃ m, x = some m ∧ m.result = .ok () ∧ m.ended.le n.begun := by
  refine (List.pairwise_map.1 hturn.order).imp_of_mem fun ha hb hab => ?_
  exact order_of_follows (honce _ ha) (honce _ hb) hab

namespace InBatches

variable {limit : Nat} {group : Span φ} {members : List (Option (Span φ))}

theorem within {m : Span φ} (h : InBatches limit group members) (hm : some m ∈ members) :
    group.begun.le m.begun ∧ m.ended.le group.ended := by
  obtain ⟨batches, h⟩ := h
  rw [← h.flatten, List.mem_flatten] at hm
  obtain ⟨l, hl, hm⟩ := hm
  obtain ⟨⟨span, batch⟩, hb, rfl⟩ := List.mem_map.1 hl
  cases span with
  | none => exact absurd (h.atOnce _ hb _ hm) (Option.some_ne_none m)
  | some span =>
    obtain ⟨hbegun, hended⟩ := h.inTurn.within span (List.mem_map.2 ⟨_, hb, rfl⟩)
    obtain ⟨hbegun', hended'⟩ := AtOnce.within (h.atOnce _ hb) hm
    exact ⟨Moment.le_trans hbegun hbegun', Moment.le_trans hended' hended⟩

theorem success (h : InBatches limit group members) :
    group.result = .ok () ↔ AllSucceeded members := by
  obtain ⟨batches, h⟩ := h
  rw [h.inTurn.success, ← h.flatten]
  constructor
  · intro hall a ha
    obtain ⟨l, hl, ha⟩ := List.mem_flatten.1 ha
    obtain ⟨⟨span, batch⟩, hb, rfl⟩ := List.mem_map.1 hl
    obtain ⟨n, hn, hok⟩ := hall span (List.mem_map.2 ⟨_, hb, rfl⟩)
    subst hn
    exact (AtOnce.success (h.atOnce _ hb)).1 hok a ha
  · intro hall span hspan
    obtain ⟨⟨span, batch⟩, hb, rfl⟩ := List.mem_map.1 hspan
    have hbatch : AllSucceeded batch := fun a ha =>
      hall a (List.mem_flatten.2 ⟨_, List.mem_map.2 ⟨_, hb, rfl⟩, ha⟩)
    cases span with
    | none =>
      -- a batch is not empty, so its members cannot all have succeeded if it was never begun
      obtain ⟨a, ha⟩ := List.exists_mem_of_ne_nil _ (h.size _ hb).1
      obtain ⟨m, hm, -⟩ := hbatch a ha
      exact absurd (hm.symm.trans (h.atOnce _ hb a ha)) (Option.some_ne_none m)
    | some n => exact ⟨n, rfl, (AtOnce.success (h.atOnce _ hb)).2 hbatch⟩

theorem failure {e : φ} (h : InBatches limit group members) (he : group.result = .error e) :
    ∃ m, some m ∈ members ∧ m.result = .error e := by
  obtain ⟨batches, h⟩ := h
  obtain ⟨n, hn, hne⟩ := (h.inTurn.failure e).1 he
  obtain ⟨⟨span, batch⟩, hb, rfl⟩ := List.mem_map.1 hn
  obtain ⟨m, hm, hme, -⟩ := AtOnce.failure (h.atOnce _ hb) e hne
  rw [← h.flatten]
  exact ⟨m, List.mem_flatten.2 ⟨_, List.mem_map.2 ⟨_, hb, rfl⟩, hm⟩, hme⟩

end InBatches

/-! ### The three ways -/

/-- A way in which a group runs its members. -/
inductive Way where
  | serial
  | concurrent
  | batched (limit : Nat)

namespace Way

/-- The group of some members. -/
def step : Way → List (Step α) → Step α
  | serial, members => .serial members
  | concurrent, members => .concurrent members
  | batched limit, members => .batched limit members

def run {σ ε : Type} : Way → List (Activity σ ε (Except φ Unit)) → Activity σ ε (Except φ Unit)
  | serial, members => inOrder members
  | concurrent, members => together members
  | batched limit, members => inBatches limit members

/-- What becomes of the members of a group, and what of the group by that. -/
def Law : Way → Span φ → List (Option (Span φ)) → Prop
  | serial => InTurn
  | concurrent => AtOnce
  | batched limit => InBatches limit

variable {w : Way} {group m : Span φ} {members : List (Option (Span φ))}

theorem within_of_law (h : w.Law group members) (hm : some m ∈ members) :
    group.begun.le m.begun ∧ m.ended.le group.ended := by
  cases w with
  | serial => exact InTurn.within h m hm
  | concurrent => exact AtOnce.within h hm
  | batched limit => exact InBatches.within h hm

theorem success_of_law (h : w.Law group members) :
    group.result = .ok () ↔ AllSucceeded members := by
  cases w with
  | serial => exact InTurn.success h
  | concurrent => exact AtOnce.success h
  | batched limit => exact InBatches.success h

/-- A group fails only with the error of a member. -/
theorem failure_of_law {e : φ} (h : w.Law group members) (he : group.result = .error e) :
    ∃ m, some m ∈ members ∧ m.result = .error e := by
  cases w with
  | serial => exact (InTurn.failure h e).1 he
  | concurrent =>
    obtain ⟨m, hm, hme, -⟩ := AtOnce.failure h e he
    exact ⟨m, hm, hme⟩
  | batched limit => exact InBatches.failure h he

end Way

/-! ### Pieces of a list -/

theorem flatten_chunks (n : Nat) (items : List α) : (chunks n items).flatten = items := by
  fun_induction chunks n items with
  | case1 => rfl
  | case2 a as ih =>
    rw [List.flatten_cons, ih, List.cons_append, List.take_append_drop]

theorem length_of_mem_chunks {n : Nat} {items piece : List α} (hp : piece ∈ chunks n items) :
    piece ≠ [] ∧ piece.length ≤ max n 1 := by
  fun_induction chunks n items with
  | case1 => exact absurd hp List.not_mem_nil
  | case2 a as ih =>
    rcases List.mem_cons.1 hp with rfl | hp
    · refine ⟨List.cons_ne_nil _ _, ?_⟩
      rw [List.length_cons, List.length_take]
      omega
    · exact ih hp

/-- Only the last piece may be smaller than the others. -/
theorem length_of_mem_dropLast_chunks {n : Nat} {items piece : List α}
    (hp : piece ∈ (chunks n items).dropLast) : piece.length = max n 1 := by
  fun_induction chunks n items with
  | case1 => exact absurd hp List.not_mem_nil
  | case2 a as ih =>
    by_cases hrest : as.drop (n - 1) = []
    · rw [hrest, chunks] at hp
      exact absurd hp List.not_mem_nil
    · have hlen : n - 1 < as.length := by
        by_contra hle
        exact hrest (List.drop_eq_nil_of_le (Nat.not_lt.1 hle))
      have hne : chunks n (as.drop (n - 1)) ≠ [] := by
        cases hdrop : as.drop (n - 1) with
        | nil => exact absurd hdrop hrest
        | cons b bs =>
          rw [chunks]
          exact List.cons_ne_nil _ _
      rw [List.dropLast_cons_of_ne_nil hne] at hp
      rcases List.mem_cons.1 hp with rfl | hp
      · rw [List.length_cons, List.length_take]
        omega
      · exact ih hp

/-- Lists that correspond piece by piece have pieces of the same lengths. -/
theorem map_length_eq {R : α → β → Prop} {as : List (List α)} {bs : List (List β)}
    (h : List.Forall₂ (List.Forall₂ R) as bs) : as.map List.length = bs.map List.length := by
  induction h with
  | nil => rfl
  | cons hab _ ih => rw [List.map_cons, List.map_cons, hab.length_eq, ih]

theorem chunks_map (n : Nat) (f : α → β) (items : List α) :
    chunks n (items.map f) = (chunks n items).map (List.map f) := by
  fun_induction chunks n items with
  | case1 => simp [chunks]
  | case2 a as ih =>
    rw [List.map_cons, chunks, List.map_cons, ← List.map_drop, ih, List.map_cons, List.map_take]

end EventWorker
