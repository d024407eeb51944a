import EventWorker.Job
import EventWorker.Job.Name
import EventWorker.Proofs.Checks

/-!
# Jobs with valid names

A job is valid if the names of its containers have no fault (`validate_eq_ok_iff`). Names without a
fault are made of the characters of labels, so none of them holds a dot. The names without a fault are
the language `IsJobName` (`nameFault?_eq_none_iff`): their characters take one byte each, so that it makes
no difference whether bytes or characters are counted.
-/

namespace EventWorker

/-- A name without a fault passes four checks. -/
theorem nameFault?_eq_none_iff_checks {name : String} : nameFault? name = none ↔
    name.toList ≠ [] ∧ name.utf8ByteSize ≤ maxJobNameLength ∧
      (∀ c ∈ name.toList, isLabelChar c) ∧
      name.toList.head? ≠ some '-' ∧ name.toList.getLast? ≠ some '-' := by
  have hfind : (name.toList.find? fun c => !isLabelChar c) = none ↔
      ∀ c ∈ name.toList, isLabelChar c := by
    simp only [List.find?_eq_none, Bool.not_eq_true', Bool.not_eq_false]
  rw [← hfind, nameFault?]
  by_cases hempty : name.toList = []
  · simp [hempty]
  rw [if_neg (by simpa using hempty)]
  by_cases hlong : name.utf8ByteSize > maxJobNameLength
  · rw [if_pos hlong]
    exact iff_of_false (Option.some_ne_none _) fun h => absurd h.2.1 (Nat.not_le.2 hlong)
  rw [if_neg hlong]
  cases hbad : name.toList.find? fun c => !isLabelChar c with
  | some c => exact iff_of_false (Option.some_ne_none _) fun h => absurd h.2.2.1 (Option.some_ne_none c)
  | none =>
    have hle := Nat.not_lt.1 hlong
    simp [hempty, hle]

/-- All characters of a name without a fault are those of a label. -/
theorem isLabelChar_of_nameFault?_eq_none {name : String} (h : nameFault? name = none) :
    ∀ c ∈ name.toList, isLabelChar c :=
  (nameFault?_eq_none_iff_checks.1 h).2.2.1

theorem dot_notMem_of_nameFault?_eq_none {name : String} (h : nameFault? name = none) :
    '.' ∉ name.toList := by
  intro hdot
  exact absurd (isLabelChar_of_nameFault?_eq_none h '.' hdot) (by decide)

theorem isLabelChar_of_isLabelLetter {c : Char} (h : isLabelLetter c) : isLabelChar c := by
  rw [isLabelChar, h, Bool.true_or]

theorem isLabelLetter_iff {c : Char} : isLabelLetter c ↔ isLabelChar c ∧ c ≠ '-' := by
  constructor
  · intro h
    refine ⟨isLabelChar_of_isLabelLetter h, ?_⟩
    rintro rfl
    exact absurd h (by decide)
  · rintro ⟨h, hne⟩
    simpa [isLabelChar, hne] using h

/-- Each character of a label takes one byte. -/
theorem utf8Size_of_isLabelChar {c : Char} (h : isLabelChar c) : c.utf8Size = 1 := by
  rw [Char.utf8Size_eq_one_iff]
  simp only [isLabelChar, isLabelLetter, Char.isDigit, Bool.or_eq_true, Bool.and_eq_true,
    decide_eq_true_eq, beq_iff_eq, Char.le_def] at h
  rcases h with (⟨-, h⟩ | ⟨-, h⟩) | rfl
  · exact UInt32.le_trans h (by decide)
  · exact UInt32.le_trans h (by decide)
  · decide

theorem utf8ByteSize_eq_length {cs : List Char} (h : ∀ c ∈ cs, isLabelChar c) :
    (String.ofList cs).utf8ByteSize = cs.length := by
  induction cs with
  | nil => rfl
  | cons c cs ih =>
    rw [String.ofList_cons, String.utf8ByteSize_append, String.utf8ByteSize_singleton,
      utf8Size_of_isLabelChar (h c List.mem_cons_self),
      ih fun d hd => h d (List.mem_cons_of_mem c hd), List.length_cons, Nat.add_comm]

/-- What is asked of the two ends of a job name and of what is between them comes to the same four
checks. -/
theorem isJobName_iff {name : String} : IsJobName name ↔
    name.toList ≠ [] ∧ name.toList.length ≤ maxJobNameLength ∧ (∀ c ∈ name.toList, isLabelChar c) ∧
      name.toList.head? ≠ some '-' ∧ name.toList.getLast? ≠ some '-' := by
  have hlength : ∀ (first last : Char) (inner : List Char),
      (first :: (inner ++ [last])).length = inner.length + 2 := fun first last inner => by
    rw [List.length_cons, List.length_append, List.length_singleton]
  rw [IsJobName]
  constructor
  · rintro (⟨c, hcs, hc⟩ | ⟨first, inner, last, hcs, hfirst, hlast, hinner, hlong⟩)
    · obtain ⟨hchar, hne⟩ := isLabelLetter_iff.1 hc
      rw [hcs]
      exact ⟨List.cons_ne_nil _ _, (by decide : 1 ≤ maxJobNameLength),
        List.forall_mem_singleton.2 hchar, by simpa using hne, by simpa using hne⟩
    · rw [hcs]
      refine ⟨List.cons_ne_nil _ _, hlength first last inner ▸ hlong, fun d hd => ?_,
        by simpa using (isLabelLetter_iff.1 hfirst).2, ?_⟩
      · rcases List.mem_cons.1 hd with rfl | hd
        · exact isLabelChar_of_isLabelLetter hfirst
        · rcases List.mem_append.1 hd with hd | hd
          · exact List.all_eq_true.1 hinner d hd
          · rw [List.mem_singleton.1 hd]
            exact isLabelChar_of_isLabelLetter hlast
      · rw [← List.cons_append, List.getLast?_concat]
        exact fun h => (isLabelLetter_iff.1 hlast).2 (Option.some.inj h)
  · rintro ⟨hempty, hlong, hchars, hhead, hlast⟩
    cases hcs : name.toList with
    | nil => exact absurd hcs hempty
    | cons first rest =>
      rw [hcs] at hlong hchars hhead hlast
      have hfirst : isLabelLetter first :=
        isLabelLetter_iff.2 ⟨hchars first List.mem_cons_self, fun h => hhead (congrArg some h)⟩
      -- apart from its first character a name is empty or ends in a last one
      rcases List.eq_nil_or_concat rest with rfl | ⟨inner, last, rfl⟩
      · exact .inl ⟨first, rfl, hfirst⟩
      · rw [List.concat_eq_append] at *
        rw [← List.cons_append, List.getLast?_concat] at hlast
        exact .inr ⟨first, inner, last, rfl, hfirst,
          isLabelLetter_iff.2 ⟨hchars last (by simp), fun h => hlast (congrArg some h)⟩,
          List.all_eq_true.2 fun c hc => hchars c (by simp [hc]), hlength first last inner ▸ hlong⟩

/-- **A name has no fault exactly if it is a job name.** -/
theorem nameFault?_eq_none_iff {name : String} : nameFault? name = none ↔ IsJobName name := by
  have hsize : (∀ c ∈ name.toList, isLabelChar c) → name.utf8ByteSize = name.toList.length := by
    intro h
    rw [← utf8ByteSize_eq_length h, String.ofList_toList]
  rw [nameFault?_eq_none_iff_checks, isJobName_iff]
  constructor
  · rintro ⟨hempty, hlong, hchars, hends⟩
    exact ⟨hempty, hsize hchars ▸ hlong, hchars, hends⟩
  · rintro ⟨hempty, hlong, hchars, hends⟩
    exact ⟨hempty, (hsize hchars).symm ▸ hlong, hchars, hends⟩

instance (name : String) : Decidable (IsJobName name) :=
  decidable_of_iff _ nameFault?_eq_none_iff

namespace Job

theorem checkName_eq_ok_iff {name : String} : checkName name = .ok () ↔ nameFault? name = none := by
  unfold checkName
  split
  · next fault hfault =>
    rw [hfault]
    exact ⟨fun h => (nomatch h), fun h => (nomatch h)⟩
  · next hnone => exact ⟨fun _ => hnone, fun _ => rfl⟩

theorem checkNames_cons (name : String) (names : List String) : checkNames (name :: names) =
    checkName name >>= fun _ => checkNames names >>= fun b => .ok b := by
  rw [checkNames]
  cases checkNames names <;> rfl

theorem checkNames_eq_ok_iff {names : List String} :
    checkNames names = .ok () ↔ ∀ name ∈ names, nameFault? name = none := by
  have hunit : ∀ {x : Except BuildError Unit}, (∃ a, x = .ok a) ↔ x = .ok () :=
    fun {_} => ⟨fun ⟨_, h⟩ => h, fun h => ⟨(), h⟩⟩
  rw [← hunit, Except.each_ok_iff checkNames_cons ⟨(), rfl⟩]
  simp only [hunit, checkName_eq_ok_iff]

theorem validate_eq_ok_iff {j : Job} :
    j.validate = .ok () ↔ ∀ name ∈ j.name :: j.sidecars.keys, nameFault? name = none :=
  checkNames_eq_ok_iff

end Job

end EventWorker
