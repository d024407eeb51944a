/-!
# Checks one after another

Whatever is checked in a row succeeds if every check of it does, each with what the ones before it have
come to (`Except.bind_eq_ok_iff`), and fails if one of them does, the ones before it having succeeded
(`Except.bind_eq_error_iff`). The items of a list are checked in this way too: all of them have to pass
(`Except.each_ok_iff`), and it is the first that does not which says why (`Except.each_error_iff`).
-/

namespace Except

variable {ε α β : Type}

theorem exists_ok_of_isOk {x : Except ε α} (h : x.isOk = true) : ∃ a, x = .ok a := by
  cases x with
  | error e => cases h
  | ok a => exact ⟨a, rfl⟩

theorem exists_ok_of_any {x : Except ε α} {p : α → Prop} [DecidablePred p]
    (h : x.toOption.any (p ·) = true) : ∃ a, x = .ok a ∧ p a := by
  cases x with
  | error e => cases h
  | ok a => exact ⟨a, rfl, of_decide_eq_true h⟩

theorem toOption_eq_some_iff {x : Except ε α} {a : α} : x.toOption = some a ↔ x = .ok a := by
  cases x <;> simp [Except.toOption]

theorem bind_eq_ok_iff {x : Except ε α} {f : α → Except ε β} {b : β} :
    x >>= f = .ok b ↔ ∃ a, x = .ok a ∧ f a = .ok b := by
  cases x with
  | error e =>
    constructor
    · intro h
      cases h
    · rintro ⟨a, ha, -⟩
      cases ha
  | ok a =>
    constructor
    · exact fun h => ⟨a, rfl, h⟩
    · rintro ⟨_, ⟨rfl⟩, h⟩
      exact h

theorem bind_eq_error_iff {x : Except ε α} {f : α → Except ε β} {e : ε} :
    x >>= f = .error e ↔ x = .error e ∨ ∃ a, x = .ok a ∧ f a = .error e := by
  cases x with
  | error e' =>
    constructor
    · exact fun h => .inl (congrArg Except.error (Except.error.inj h))
    · rintro (h | ⟨a, ha, -⟩)
      · exact congrArg Except.error (Except.error.inj h)
      · cases ha
  | ok a =>
    constructor
    · exact fun h => .inr ⟨a, rfl, h⟩
    · rintro (h | ⟨_, ⟨rfl⟩, h⟩)
      · cases h
      · exact h

section

variable {ι : Type} {check : ι → Except ε α} {join : α → β → β} {run : List ι → Except ε β}

/-- The items of a list pass a check together if each of them does. -/
theorem each_ok_iff
    (hcons : ∀ i is, run (i :: is) = check i >>= fun a => run is >>= fun b => .ok (join a b))
    (hnil : ∃ b, run [] = .ok b)
    (items : List ι) : (∃ b, run items = .ok b) ↔ ∀ i ∈ items, ∃ a, check i = .ok a := by
  induction items with
  | nil => exact iff_of_true hnil fun _ hi => absurd hi List.not_mem_nil
  | cons i is ih =>
    rw [List.forall_mem_cons, ← ih, hcons]
    constructor
    · rintro ⟨b, h⟩
      obtain ⟨a, ha, h⟩ := bind_eq_ok_iff.1 h
      obtain ⟨b', hb', -⟩ := bind_eq_ok_iff.1 h
      exact ⟨⟨a, ha⟩, ⟨b', hb'⟩⟩
    · rintro ⟨⟨a, ha⟩, ⟨b, hb⟩⟩
      exact ⟨join a b, bind_eq_ok_iff.2 ⟨a, ha, bind_eq_ok_iff.2 ⟨b, hb, rfl⟩⟩⟩

/-- Where they do not, the fault is that of the first which does not pass. -/
theorem each_error_iff
    (hcons : ∀ i is, run (i :: is) = check i >>= fun a => run is >>= fun b => .ok (join a b))
    (hnil : ∃ b, run [] = .ok b)
    (items : List ι) {e : ε} : run items = .error e ↔
      ∃ before i after, items = before ++ i :: after ∧ (∀ j ∈ before, ∃ a, check j = .ok a) ∧
        check i = .error e := by
  induction items with
  | nil =>
    obtain ⟨b, hb⟩ := hnil
    rw [hb]
    refine iff_of_false (fun h => by cases h) ?_
    rintro ⟨before, i, after, heq, -⟩
    exact List.append_ne_nil_of_right_ne_nil before (List.cons_ne_nil i after) heq.symm
  | cons i is ih =>
    rw [hcons, bind_eq_error_iff]
    constructor
    · rintro (hi | ⟨a, ha, h⟩)
      · exact ⟨[], i, is, rfl, fun _ hj => absurd hj List.not_mem_nil, hi⟩
      · rcases bind_eq_error_iff.1 h with h | ⟨_, -, h⟩
        · obtain ⟨before, j, after, rfl, hbefore, hj⟩ := ih.1 h
          exact ⟨i :: before, j, after, rfl, List.forall_mem_cons.2 ⟨⟨a, ha⟩, hbefore⟩, hj⟩
        · cases h
    · rintro ⟨before, j, after, heq, hbefore, hj⟩
      cases before with
      | nil =>
        obtain ⟨rfl, -⟩ := List.cons.inj heq
        exact .inl hj
      | cons k before =>
        obtain ⟨rfl, rfl⟩ := List.cons.inj heq
        obtain ⟨⟨a, ha⟩, hbefore⟩ := List.forall_mem_cons.1 hbefore
        exact .inr ⟨a, ha, bind_eq_error_iff.2 (.inl (ih.2 ⟨before, j, after, rfl, hbefore, hj⟩))⟩

end

/-- What a fault is called makes no difference to a success. -/
theorem mapError_eq_ok_iff {φ : Type} {x : Except ε α} {f : ε → φ} {a : α} :
    x.mapError f = .ok a ↔ x = .ok a := by
  cases x with
  | error e => exact iff_of_false (fun h => by cases h) fun h => by cases h
  | ok b => exact ⟨fun h => congrArg Except.ok (Except.ok.inj h), fun h => h ▸ rfl⟩

/-- A fault under a condition and a success otherwise: it succeeds exactly if the condition does not
hold. -/
theorem exists_ok_iff_of_ite {x : Except ε α} {b : Bool} {P : α → Prop}
    (h : if b then ∃ e, x = .error e else ∃ a, x = .ok a ∧ P a) :
    ((∃ a, x = .ok a) ↔ b = false) ∧ ∀ a, x = .ok a → P a := by
  cases b with
  | true =>
    obtain ⟨e, rfl⟩ := h
    have hne : ∀ a, (.error e : Except ε α) ≠ .ok a := fun a heq => by cases heq
    exact ⟨iff_of_false (fun ⟨a, heq⟩ => hne a heq) Bool.noConfusion, fun a heq => absurd heq (hne a)⟩
  | false =>
    obtain ⟨a, rfl, ha⟩ := h
    exact ⟨iff_of_true ⟨a, rfl⟩ rfl, fun a' heq => Except.ok.inj heq ▸ ha⟩

end Except
