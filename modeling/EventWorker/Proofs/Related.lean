import Mathlib.Data.List.Forall2

/-!
# Lists related item by item

Where the items of two lists are related one by one, every item of either list has its counterpart in
the other. In a list of keys with values, where the entries of one key have been taken out, every other key
has the value that it had.
-/

namespace EventWorker

variable {α β : Type} {R : α → β → Prop} {as : List α} {bs : List β}

theorem exists_of_mem_left (h : List.Forall₂ R as bs) {a : α} (ha : a ∈ as) : ∃ b ∈ bs, R a b := by
  induction h with
  | nil => exact absurd ha List.not_mem_nil
  | cons hab _ ih =>
    rcases List.mem_cons.1 ha with rfl | ha
    · exact ⟨_, List.mem_cons_self, hab⟩
    · obtain ⟨b, hb, hr⟩ := ih ha
      exact ⟨b, List.mem_cons_of_mem _ hb, hr⟩

theorem exists_of_mem_right (h : List.Forall₂ R as bs) {b : β} (hb : b ∈ bs) : ∃ a ∈ as, R a b :=
  exists_of_mem_left h.flip hb

theorem lookup_filter_ne [BEq α] [LawfulBEq α] [DecidableEq α] (key k : α) (entries : List (α × β)) :
    (entries.filter (·.1 != key)).lookup k = if key = k then none else entries.lookup k := by
  induction entries with
  | nil => simp
  | cons e rest ih =>
    obtain ⟨k', v⟩ := e
    by_cases hk' : k' = key
    · subst hk'
      have hskip : ((k', v) :: rest).filter (·.1 != k') = rest.filter (·.1 != k') := by simp
      rw [hskip, ih]
      by_cases hk : k' = k
      · simp [hk]
      · have hne : (k == k') = false := by simpa using Ne.symm hk
        simp [hk, List.lookup_cons, hne]
    · have hkeep : ((k', v) :: rest).filter (·.1 != key) = (k', v) :: rest.filter (·.1 != key) := by
        simp [hk']
      rw [hkeep, List.lookup_cons, List.lookup_cons, ih]
      by_cases hk : k = k'
      · subst hk
        simp [Ne.symm hk']
      · have hne : (k == k') = false := by simpa using hk
        simp [hne]

end EventWorker
