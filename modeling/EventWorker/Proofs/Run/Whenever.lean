import EventWorker.Proofs.Run.Deeds

/-!
# Whenever the controller does something

What holds at every deed of a certain kind is stated of the journal up to that deed and of the moment
at which it is done (`Journal.Whenever`). In a run only four deeds need to be looked at, besides those
that concern the volume: the firing of the event and of the one that comes after it, and the waiting
after each. Everything else that is done is a reaction to them.

Main statements: `Course.Of.whenever` and `Whole.Of.whenever`.
-/

namespace EventWorker

variable {bus : Bus Handler} {event e : Event} {first : Option Failure} {left : List Task}

namespace Journal

/-- Whenever a deed is done, something holds of what has been written down by then, of the moment,
and of the deed. -/
def Whenever (P : Journal → Moment → Deed → Prop) (j : Journal) : Prop :=
  ∀ past m d rest, j = past ++ (m, .deed d) :: rest → P past m d

variable {P : Journal → Moment → Deed → Prop}

theorem Whenever.append {i j : Journal} (hi : i.Whenever P)
    (hj : j.Whenever fun past => P (i ++ past)) : (i ++ j).Whenever P := by
  intro past m d rest h
  rcases List.append_eq_append_iff.1 h with ⟨more, rfl, hmore⟩ | ⟨more, rfl, hmore⟩
  · exact hj more m d rest hmore
  · cases more with
    | nil =>
      have hnone : P (past ++ [] ++ []) m d := hj [] m d rest hmore.symm
      rw [List.append_nil, List.append_nil] at hnone
      exact hnone
    | cons x more =>
      obtain ⟨rfl, -⟩ := List.cons.inj hmore
      exact hi past m d more rfl

theorem Whenever.cons {x : Moment × Entry} {j : Journal} (hx : ∀ d, x.2 = .deed d → P [] x.1 d)
    (hj : j.Whenever fun past => P (x :: past)) : Whenever P (x :: j) := by
  refine Whenever.append (i := [x]) ?_ hj
  intro past m d rest h
  cases past with
  | nil =>
    obtain ⟨rfl, -⟩ := List.cons.inj h
    exact hx d rfl
  | cons y past => exact absurd (List.cons.inj h).2 (by simp)

theorem Whenever.of_deeds {j : Journal} (h : ∀ d ∈ j.deeds, ∀ past m, P past m d) : j.Whenever P := by
  intro past m d rest hj
  refine h d ?_ past m
  rw [hj, deeds_append]
  exact List.mem_append_right _ List.mem_cons_self

theorem Whenever.at {j : Journal} (h : j.Whenever P) {i : Nat} {m : Moment} {d : Deed}
    (hi : j[i]? = some (m, .deed d)) : P (j.take i) m d := by
  obtain ⟨hlt, hget⟩ := List.getElem?_eq_some_iff.1 hi
  refine h (j.take i) m d (j.drop (i + 1)) ?_
  rw [← hget, List.getElem_cons_drop, List.take_append_drop]

theorem Whenever.imp {Q : Journal → Moment → Deed → Prop} {j : Journal}
    (h : ∀ past m d, P past m d → Q past m d) (hj : j.Whenever P) : j.Whenever Q :=
  fun past m d rest hsplit => h past m d (hj past m d rest hsplit)

end Journal

/-! ### What a run has to be looked at for -/

namespace Controller

variable {P : Journal → Moment → Deed → Prop}

theorem Handling.Of.whenever {h : Handling} (ho : h.Of bus event first e left)
    (hreaction : ∀ d, d.isReaction event → ∀ past m, P past m d)
    (hfire : P [] h.fired (.fire e))
    (hjoin : P ((h.fired, .deed (.fire e)) :: h.before) h.joined (.join h.tasks)) :
    (h.journal e).Whenever P := by
  refine .cons ?_ (.append ?_ (.cons ?_ ?_))
  · rintro _ ⟨rfl⟩
    exact hfire
  · exact .of_deeds fun d hd past m => hreaction d (ho.isReaction_before d hd) _ m
  · rintro _ ⟨rfl⟩
    rw [List.append_nil]
    exact hjoin
  · exact .of_deeds fun d hd past m => hreaction d (ho.isReaction_after d hd) _ m

theorem Course.Of.whenever {k : Course} (ho : k.Of bus event)
    (hreaction : ∀ d, d.isReaction event → ∀ past m, P past m d)
    (hfire : ∀ m, P [(k.begun, .reached .eventFired)] m (.fire event))
    (hjoin : P ((k.begun, .reached .eventFired) :: (k.primary.fired, .deed (.fire event)) ::
      k.primary.before) k.primary.joined (.join k.primary.tasks))
    (hsecond : ∀ h ∈ k.second,
      P ((k.begun, .reached .eventFired) :: k.primary.journal event) h.fired
          (.fire (k.following event)) ∧
        P ((k.begun, .reached .eventFired) :: (k.primary.journal event ++
          (h.fired, .deed (.fire (k.following event))) :: h.before)) h.joined (.join h.tasks)) :
    (k.journal event).Whenever P := by
  have hprimary : (k.primary.journal event).Whenever
      fun past => P ((k.begun, .reached .eventFired) :: past) :=
    ho.primary.whenever (fun d hd past => hreaction d hd _) (hfire _) hjoin
  rcases ho.handled_cases with ⟨-, hs⟩ | ⟨h, -, hs, hh⟩
  · rw [journal_of_unhandled hs]
    refine .cons (fun d hd => Entry.noConfusion hd) (.append hprimary (.of_deeds ?_))
    exact fun d hd => absurd hd List.not_mem_nil
  · rw [journal_of_handled hs]
    obtain ⟨hfire₂, hjoin₂⟩ := hsecond h hs
    refine .cons (fun d hd => Entry.noConfusion hd) (.append hprimary (.append ?_ (.of_deeds ?_)))
    · refine hh.whenever (fun d hd past => hreaction d hd _) ?_ hjoin₂
      rw [List.append_nil]
      exact hfire₂
    · exact fun d hd => absurd hd List.not_mem_nil

theorem Whole.Of.whenever {w : Whole} (ho : w.Of bus event)
    (hprovision : ∀ past m, P past m (.provision event w.project))
    (hcourse : (w.course.journal event).Whenever fun past => P (w.opening ++ past))
    (hrelease : P (w.opening ++ w.course.journal event) w.course.ended (.release event w.project)) :
    (w.journal event).Whenever P := by
  refine .append (.of_deeds ?_) (.append hcourse (.cons ?_ (.of_deeds ?_)))
  · rw [ho.opening_deeds]
    intro d hd past m
    rw [List.mem_singleton.1 hd]
    exact hprovision past m
  · rintro _ ⟨rfl⟩
    rw [List.append_nil]
    exact hrelease
  · rw [ho.closing_deeds]
    exact fun d hd => absurd hd List.not_mem_nil

end Controller

end EventWorker
