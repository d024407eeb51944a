import EventWorker.Proofs.Run.Groups

/-!
# Records of work

`Records` says what is kept of pieces of work, whatever they are: when a piece of work was done and what
came of it, and what of it was noted down in the journal. Where such records are kept of its members,
they are kept of a group (`KeptIn`): its members have been run as the law of the group demands, and in
the journal stands what they have noted and nothing else of that kind.

Main statement: `Records.keptIn_run`, for the three ways in which a group can run its members.
-/

namespace EventWorker

open Activity

variable {σ α β φ ρ ι : Type}

/-- The span of work that is begun in a scene. -/
def spanOf (m : Work σ (Except φ Unit)) (s : Scene (World σ) Entry) : Span φ :=
  ⟨s.now, (m s).2.now, (m s).1⟩

/-- What is kept of pieces of work. -/
structure Records (σ φ ρ ι β : Type) where
  work : ι → Work σ (Except φ Unit)
  /-- What an entry of the journal has to say, if it is of the kind that is noted here. -/
  note? : Entry → Option ρ
  /-- A record of type `β` is one of this piece of work. -/
  IsOf : β → ι → Prop
  /-- None for work that was never begun. -/
  span : β → Option (Span φ)
  notes : β → List (Moment × ρ)

namespace Records

variable (R : Records σ φ ρ ι β)

/-- What a journal has to say. -/
def read (j : Journal) : List (Moment × ρ) :=
  j.filterMap fun e => (R.note? e.2).map (e.1, ·)

theorem read_append (i j : Journal) : R.read (i ++ j) = R.read i ++ R.read j :=
  List.filterMap_append

/-- Between two scenes nothing has been noted but what the records say. -/
def Wrote (s t : Scene (World σ) Entry) (xs : List β) : Prop :=
  ∃ j : Journal, t.log = s.log ++ j ∧ R.read j = xs.flatMap R.notes

/-- A record is kept of a piece of work, whether it is done or not. -/
structure Kept (i : ι) : Prop where
  idle : ∃ x, R.IsOf x i ∧ R.span x = none ∧ R.notes x = []
  forward : ∀ s : Scene (World σ) Entry, s.now.le (R.work i s).2.now
  done : ∀ s : Scene (World σ) Entry, ∃ x, R.IsOf x i ∧ R.span x = some (spanOf (R.work i) s) ∧
    R.Wrote s (R.work i s).2 [x]

/-- A record is kept of each piece of the work of a group, which obeys a law. -/
structure KeptIn (law : Span φ → List (Option (Span φ)) → Prop) (items : List ι)
    (m : Work σ (Except φ Unit)) : Prop where
  forward : ∀ s : Scene (World σ) Entry, s.now.le (m s).2.now
  done : ∀ s : Scene (World σ) Entry, ∃ xs, List.Forall₂ R.IsOf xs items ∧ law (spanOf m s) (xs.map R.span) ∧
    R.Wrote s (m s).2 xs

variable {R} {s t u : Scene (World σ) Entry} {xs ys : List β} {items : List ι}

namespace Wrote

theorem of_log_eq (h : t.log = s.log) : R.Wrote s t [] :=
  ⟨[], by rw [h, List.append_nil], rfl⟩

theorem trans (hst : R.Wrote s t xs) (htu : R.Wrote t u ys) : R.Wrote s u (xs ++ ys) := by
  obtain ⟨i, hi, hxs⟩ := hst
  obtain ⟨j, hj, hys⟩ := htu
  refine ⟨i ++ j, by rw [hj, hi, List.append_assoc], ?_⟩
  rw [read_append, hxs, hys, List.flatMap_append]

/-- What has been done without a note makes no difference. -/
theorem append_idle (h : R.Wrote s t xs) (hys : ys.flatMap R.notes = []) :
    R.Wrote s t (xs ++ ys) := by
  obtain ⟨j, hj, hxs⟩ := h
  exact ⟨j, hj, by rw [hxs, List.flatMap_append, hys, List.append_nil]⟩

end Wrote

/-- Of work that is never begun too there are records. -/
theorem exists_idle (h : ∀ i ∈ items, R.Kept i) :
    ∃ xs, List.Forall₂ R.IsOf xs items ∧ (∀ a ∈ xs.map R.span, a = none) ∧
      xs.flatMap R.notes = [] := by
  induction items with
  | nil => exact ⟨[], .nil, fun _ ha => absurd ha List.not_mem_nil, rfl⟩
  | cons i is ih =>
    obtain ⟨x, hx, hspan, hnotes⟩ := (h i List.mem_cons_self).idle
    obtain ⟨xs, hxs, hspans, hall⟩ := ih fun i' hi' => h i' (List.mem_cons_of_mem i hi')
    refine ⟨x :: xs, .cons hx hxs, ?_, ?_⟩
    · rw [List.map_cons, List.forall_mem_cons]
      exact ⟨hspan, hspans⟩
    · rw [List.flatMap_cons, hnotes, hall, List.append_nil]

/-! ### In turn -/

theorem keptIn_inOrder (h : ∀ i ∈ items, R.Kept i) :
    R.KeptIn InTurn items (inOrder (items.map R.work)) := by
  induction items with
  | nil =>
    exact ⟨fun s => s.now.le_refl, fun s => ⟨[], .nil, .nil s.now, .of_log_eq rfl⟩⟩
  | cons i is ih =>
    have hi := h i List.mem_cons_self
    have hrest : ∀ i' ∈ is, R.Kept i' := fun i' hi' => h i' (List.mem_cons_of_mem i hi')
    have his := ih hrest
    refine ⟨fun s => ?_, fun s => ?_⟩
    · rw [List.map_cons]
      cases hresult : (R.work i s).1 with
      | error e =>
        rw [inOrder_of_error hresult]
        exact hi.forward s
      | ok _ =>
        rw [inOrder_of_ok hresult]
        exact Moment.le_trans (hi.forward s) (his.forward _)
    · obtain ⟨x, hx, hspan, hwrote⟩ := hi.done s
      rw [List.map_cons, spanOf]
      cases hresult : (R.work i s).1 with
      | error e =>
        obtain ⟨xs, hxs, hnone, hnotes⟩ := exists_idle hrest
        rw [inOrder_of_error hresult]
        refine ⟨x :: xs, .cons hx hxs, ?_, hwrote.append_idle hnotes⟩
        have hgroup : (⟨s.now, (R.work i s).2.now, .error e⟩ : Span φ) = spanOf (R.work i) s := by
          rw [spanOf, hresult]
        rw [List.map_cons, hspan, hgroup]
        exact .stop hresult hnone
      | ok _ =>
        obtain ⟨xs, hxs, hlaw, hwrote'⟩ := his.done (R.work i s).2
        rw [inOrder_of_ok hresult]
        refine ⟨x :: xs, .cons hx hxs, ?_, hwrote.trans hwrote'⟩
        rw [List.map_cons, hspan]
        have hm : (spanOf (R.work i) s).result = .ok () := hresult
        exact .cons hm (hi.forward s) rfl (his.forward _) hlaw

/-! ### At once -/

/-- A member begins in the millisecond of its group, perhaps in a later turn. -/
theorem le_next_opening (o : Opening) (start : Moment) (depth : Nat) :
    (o.next start depth).millis = start.millis ∧ start.le (o.next start depth) := by
  refine ⟨rfl, Moment.le_iff.2 (Or.inr ⟨rfl, ?_⟩)⟩
  exact Nat.le_add_right _ _

theorem exists_each (h : ∀ i ∈ items, R.Kept i) (start : Moment) :
    ∀ (o : Opening) (s : Scene (World σ) Entry), ∃ xs, List.Forall₂ R.IsOf xs items ∧
      List.Forall₂ (Matches start) (xs.map R.span) (each start o (items.map R.work) s).1.1 ∧
      R.Wrote s (each start o (items.map R.work) s).2 xs := by
  induction items with
  | nil => exact fun o s => ⟨[], .nil, .nil, .of_log_eq rfl⟩
  | cons i is ih =>
    intro o s
    have hi := h i List.mem_cons_self
    let begun := o.next start s.depth
    let before : Scene (World σ) Entry := { s with now := begun, depth := s.depth + 1, gaveWay := none }
    obtain ⟨x, hx, hspan, hwrote⟩ := hi.done before
    obtain ⟨xs, hxs, hmatches, hwrote'⟩ :=
      ih (fun i' hi' => h i' (List.mem_cons_of_mem i hi')) _ (member begun (R.work i) s).2
    refine ⟨x :: xs, .cons hx hxs, .cons ?_ hmatches, ?_⟩
    · obtain ⟨hmillis, hle⟩ := le_next_opening o start s.depth
      exact ⟨begun, hspan, hmillis, hle⟩
    · -- beginning a member and ending it touch the journal no more than the group itself does
      exact (hwrote : R.Wrote s (member begun (R.work i) s).2 [x]).trans hwrote'

theorem keptIn_together (h : ∀ i ∈ items, R.Kept i) :
    R.KeptIn AtOnce items (together (items.map R.work)) := by
  refine ⟨fun s => ?_, fun s => ?_⟩
  · rw [together_eq]
    exact le_latestOf _ s.now
  · obtain ⟨xs, hxs, hmatches, hwrote⟩ := exists_each h s.now {} s
    refine ⟨xs, hxs, ?_, ?_⟩
    · rw [spanOf, together_eq]
      exact atOnce_of_matches hmatches
    · rw [together_eq]
      exact hwrote

/-! ### In batches -/

/-- What is kept of batches, if it is known what is kept of their members. -/
def ofBatches (R : Records σ φ ρ ι β) : Records σ φ ρ (List ι) (Option (Span φ) × List β) where
  work items := together (items.map R.work)
  note? := R.note?
  IsOf b items := List.Forall₂ R.IsOf b.2 items ∧ Follows AtOnce b.1 (b.2.map R.span)
  span b := b.1
  notes b := b.2.flatMap R.notes

theorem kept_ofBatches (h : ∀ i ∈ items, R.Kept i) : R.ofBatches.Kept items where
  idle := by
    obtain ⟨xs, hxs, hnone, hnotes⟩ := exists_idle h
    exact ⟨(none, xs), ⟨hxs, hnone⟩, rfl, hnotes⟩
  forward := (keptIn_together h).forward
  done s := by
    obtain ⟨xs, hxs, hlaw, j, hj, hread⟩ := (keptIn_together h).done s
    refine ⟨(some _, xs), ⟨hxs, hlaw⟩, rfl, j, hj, ?_⟩
    rw [List.flatMap_singleton]
    exact hread

/-- Records that correspond to the pieces of a list are those of batches. -/
theorem batched_of_forall₂ {limit : Nat} {group : Span φ} {bs : List (Option (Span φ) × List β)}
    (h : List.Forall₂ (List.Forall₂ R.IsOf) (bs.map (·.2)) (chunks limit items))
    (hturn : InTurn group (bs.map (·.1))) (honce : ∀ b ∈ bs, Follows AtOnce b.1 (b.2.map R.span)) :
    Batched limit group ((bs.map (·.2)).flatten.map R.span)
      (bs.map fun b => (b.1, b.2.map R.span)) := by
  have hlengths : (bs.map fun b => b.2.length) = (chunks limit items).map List.length := by
    have heq := map_length_eq h
    rwa [List.map_map] at heq
  have hturn' : InTurn group ((bs.map fun b => (b.1, b.2.map R.span)).map (·.1)) := by
    rw [List.map_map]
    exact hturn
  have honce' : ∀ b ∈ bs.map fun b => (b.1, b.2.map R.span), Follows AtOnce b.1 b.2 := by
    rw [List.forall_mem_map]
    exact honce
  refine ⟨?_, ?_, ?_, hturn', honce', pairwise_of_inTurn hturn' honce'⟩
  · rw [List.map_map, List.map_flatten, List.map_map]
    rfl
  · rw [List.forall_mem_map]
    intro b hb
    have hlen : b.2.length ∈ (chunks limit items).map List.length := by
      rw [← hlengths]
      exact List.mem_map.2 ⟨b, hb, rfl⟩
    obtain ⟨piece, hpiece, heq⟩ := List.mem_map.1 hlen
    obtain ⟨hne, hle⟩ := length_of_mem_chunks hpiece
    have hpos : 0 < piece.length := List.length_pos_iff.2 hne
    refine ⟨List.ne_nil_of_length_pos ?_, ?_⟩
    · rw [List.length_map]
      omega
    · rw [List.length_map]
      omega
  · rw [← List.map_dropLast, List.forall_mem_map]
    intro b hb
    have hlen : b.2.length ∈ (chunks limit items).dropLast.map List.length := by
      rw [List.map_dropLast, ← hlengths, ← List.map_dropLast]
      exact List.mem_map.2 ⟨b, hb, rfl⟩
    obtain ⟨piece, hpiece, heq⟩ := List.mem_map.1 hlen
    rw [List.length_map, ← heq]
    exact length_of_mem_dropLast_chunks hpiece

theorem keptIn_inBatches (limit : Nat) (h : ∀ i ∈ items, R.Kept i) :
    R.KeptIn (InBatches limit) items (inBatches limit (items.map R.work)) := by
  have hbatches : ∀ batch ∈ chunks limit items, R.ofBatches.Kept batch := fun batch hb =>
    kept_ofBatches fun i hi => h i (mem_of_mem_chunks hb hi)
  have hkept := keptIn_inOrder hbatches
  have hwork : inBatches limit (items.map R.work) =
      inOrder ((chunks limit items).map R.ofBatches.work) := by
    rw [inBatches, chunks_map, List.map_map]
    rfl
  rw [hwork]
  refine ⟨hkept.forward, fun s => ?_⟩
  obtain ⟨bs, hbs, hlaw, j, hj, hread⟩ := hkept.done s
  have hmembers : List.Forall₂ (List.Forall₂ R.IsOf) (bs.map (·.2)) (chunks limit items) := by
    rw [List.forall₂_map_left_iff]
    exact hbs.imp fun _ _ hb => hb.1
  refine ⟨(bs.map (·.2)).flatten, ?_, ?_, j, hj, ?_⟩
  · have hall := List.rel_flatten hmembers
    rwa [flatten_chunks] at hall
  · exact ⟨bs.map fun b => (b.1, b.2.map R.span), batched_of_forall₂ hmembers hlaw (fun b hb => by
      obtain ⟨batch, -, hb⟩ := exists_of_mem_left hbs hb
      exact hb.2)⟩
  · have hnotes : R.read j = bs.flatMap fun b => b.2.flatMap R.notes := hread
    rw [hnotes, ← List.flatMap_def, List.flatMap_assoc]

/-- **What is recorded of the members of a group** is recorded of the group, whichever way it runs them. -/
theorem keptIn_run (w : Way) (h : ∀ i ∈ items, R.Kept i) :
    R.KeptIn w.Law items (w.run (items.map R.work)) := by
  cases w with
  | serial => exact keptIn_inOrder h
  | concurrent => exact keptIn_together h
  | batched limit => exact keptIn_inBatches limit h

end Records

end EventWorker
