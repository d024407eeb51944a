import EventWorker.Proofs.Job.Name
import EventWorker.Text.LowerCase

/-!
# Lower case part by part

A hyphen has no case, and it is not skipped when a sigma looks for the end of its word. So whatever stands on
one side of a hyphen has no say in how the other side is lowered, and a name that is made of parts with
hyphens between them is lowered part by part (`lower_append_hyphen`). Job names are in lower case already
(`lower_of_isJobName`).
-/

namespace EventWorker.Text

/-! ### Hyphens -/

theorem isCased_hyphen : isCased '-' = false := by
  decide

theorem isCaseIgnorable_hyphen : isCaseIgnorable '-' = false := by
  decide +kernel

/-- What is behind a hyphen is not looked at. -/
theorem startsCased_append_hyphen (cs rest : List Char) :
    startsCased (cs ++ '-' :: rest) = startsCased cs := by
  induction cs with
  | nil => simp [startsCased, isCaseIgnorable_hyphen, isCased_hyphen]
  | cons c cs ih =>
    by_cases hc : isCaseIgnorable c
    · simpa [startsCased, hc] using ih
    · simp [startsCased, hc]

theorem lowerAfter_append_hyphen_left (before far cs : List Char) :
    lowerAfter (before ++ '-' :: far) cs = lowerAfter before cs := by
  induction cs generalizing before with
  | nil => rfl
  | cons c cs ih =>
    simp only [lowerAfter, startsCased_append_hyphen]
    rw [← List.cons_append, ih]

theorem lowerAfter_append_hyphen (before cs rest : List Char) :
    lowerAfter before (cs ++ '-' :: rest) = lowerAfter before cs ++ '-' :: lowerAfter [] rest := by
  induction cs generalizing before with
  | nil =>
    have hrest : lowerAfter ('-' :: before) rest = lowerAfter [] rest :=
      lowerAfter_append_hyphen_left [] before rest
    simp only [List.nil_append, lowerAfter, hrest]
    rfl
  | cons c cs ih =>
    simp only [List.cons_append, lowerAfter, startsCased_append_hyphen, ih, List.append_assoc]

/-- **A text is lowered part by part**, if there are hyphens between the parts. -/
theorem lower_append_hyphen (s t : String) : lower (s ++ "-" ++ t) = lower s ++ "-" ++ lower t := by
  rw [← String.toList_inj]
  simp [lower, lowerAfter_append_hyphen]

/-! ### Job names -/

/-- Labels are in ASCII, and there are no capitals in them. -/
theorem lowerChar_of_isLabelChar {c : Char} (h : isLabelChar c) : lowerChar c = c := by
  have hcases : (97 ≤ c.toNat ∧ c.toNat ≤ 122) ∨ (48 ≤ c.toNat ∧ c.toNat ≤ 57) ∨ c.toNat = 45 := by
    simp only [isLabelChar, isLabelLetter, Char.isDigit, Bool.or_eq_true, Bool.and_eq_true,
      decide_eq_true_eq, beq_iff_eq, Char.le_def] at h
    rcases h with (h | h) | rfl
    · exact .inl h
    · exact .inr (.inl h)
    · exact .inr (.inr rfl)
  have hascii : c.toNat < 0x80 := by omega
  have hcapital : ¬ ('A'.val ≤ c.val ∧ c.val ≤ 'Z'.val) := by
    intro hrange
    have hlow : 65 ≤ c.toNat := hrange.1
    have hhigh : c.toNat ≤ 90 := hrange.2
    omega
  rw [lowerChar, if_pos hascii]
  exact dif_neg hcapital

theorem lowerAfter_of_isLabelChar (before : List Char) {cs : List Char}
    (h : ∀ c ∈ cs, isLabelChar c) : lowerAfter before cs = cs := by
  induction cs generalizing before with
  | nil => rfl
  | cons c cs ih =>
    obtain ⟨hc, hcs⟩ := List.forall_mem_cons.1 h
    have hdot : c ≠ 'İ' := by
      rintro rfl
      exact absurd hc (by decide)
    have hsigma : c ≠ 'Σ' := by
      rintro rfl
      exact absurd hc (by decide)
    rw [lowerAfter, if_neg hdot, if_neg hsigma, lowerChar_of_isLabelChar hc, ih _ hcs]
    rfl

theorem lower_of_isLabelChar {s : String} (h : ∀ c ∈ s.toList, isLabelChar c) : lower s = s := by
  rw [lower, lowerAfter_of_isLabelChar [] h, String.ofList_toList]

/-- A job name is in lower case. -/
theorem lower_of_isJobName {name : String} (h : IsJobName name) : lower name = name :=
  lower_of_isLabelChar (isJobName_iff.1 h).2.2.1

end EventWorker.Text
