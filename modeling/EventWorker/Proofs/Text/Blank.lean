import Mathlib.Data.List.DropRight
import Mathlib.Data.List.TakeWhile
import EventWorker.Text.Blank

/-!
# Trimmed texts

Nothing is left of a text exactly if all of it is blank (`isEmpty_trim`), so what is taken for a setting
that has been given is what has something in it. A text that has no blank at its ends is left as it is, and
every trimmed text is one of those (`trim_trim`). Blanks around a text make no difference to what is taken of
it (`trimmed?_between`).
-/

namespace EventWorker.Text

/-- Nothing is left if everything is blank. -/
theorem isEmpty_trim (s : String) : (trim s).isEmpty = isBlankText s := by
  rw [Bool.eq_iff_iff, String.isEmpty_iff, trim, String.ofList_eq_empty_iff, trimChars,
    List.reverse_eq_nil_iff, List.dropWhile_eq_nil_iff, isBlankText, List.all_eq_true]
  simp only [List.mem_reverse]
  constructor
  · -- where something is left in front, its first character would be blank too
    intro h c hc
    by_contra hblank
    have hne : s.toList.dropWhile isBlank ≠ [] := fun hnil =>
      hblank (List.dropWhile_eq_nil_iff.1 hnil c hc)
    have hhead := List.head_dropWhile_not isBlank hne
    rw [h _ (List.head_mem hne)] at hhead
    cases hhead
  · exact fun h c hc => h c ((List.dropWhile_sublist _).subset hc)

theorem trimmed?_of_blank {s : String} (h : isBlankText s = true) : trimmed? s = none := by
  rw [trimmed?, isEmpty_trim, if_pos h]

theorem trimmed?_of_not_blank {s : String} (h : isBlankText s = false) :
    trimmed? s = some (trim s) := by
  rw [trimmed?, isEmpty_trim, if_neg (by rw [h]; exact Bool.false_ne_true)]

/-- No blank is in front once those at the back have gone too. -/
theorem trimChars_trimChars (cs : List Char) : trimChars (trimChars cs) = trimChars cs := by
  have hfront : (trimChars cs).dropWhile isBlank = trimChars cs := by
    rw [List.dropWhile_eq_self_iff]
    intro hl
    have hbegins : trimChars cs <+: cs.dropWhile isBlank := List.rdropWhile_prefix isBlank _
    rw [hbegins.getElem hl]
    exact List.dropWhile_get_zero_not isBlank cs (hl.trans_le hbegins.length_le)
  show List.rdropWhile isBlank ((trimChars cs).dropWhile isBlank) = _
  rw [hfront]
  exact List.rdropWhile_idempotent isBlank _

theorem trim_trim (s : String) : trim (trim s) = trim s := by
  rw [trim, trim, String.toList_ofList, trimChars_trimChars]

/-- There is something in the text, and no blank at either end. -/
def IsNeat (s : String) : Prop :=
  s ≠ "" ∧ trim s = s

theorem IsNeat.not_blank {s : String} (h : IsNeat s) : isBlankText s = false := by
  rw [← isEmpty_trim, h.2, Bool.eq_false_iff]
  exact fun hempty => h.1 (String.isEmpty_iff.1 hempty)

/-- A neat text is taken as it is. -/
theorem IsNeat.trimmed? {s : String} (h : IsNeat s) : Text.trimmed? s = some s := by
  rw [trimmed?_of_not_blank h.not_blank, h.2]

/-- What is taken for a text is neat. -/
theorem isNeat_of_trimmed? {s t : String} (h : Text.trimmed? s = some t) : IsNeat t := by
  cases hblank : isBlankText s with
  | true =>
    rw [trimmed?_of_blank hblank] at h
    cases h
  | false =>
    rw [trimmed?_of_not_blank hblank] at h
    obtain rfl := Option.some.inj h
    refine ⟨fun hempty => ?_, trim_trim s⟩
    rw [← isEmpty_trim, hempty] at hblank
    cases hblank

theorem bind_trimmed?_of_isNeat {text? : Option String} (h : ∀ s ∈ text?, IsNeat s) :
    text?.bind Text.trimmed? = text? := by
  cases text? with
  | none => rfl
  | some s => rw [Option.bind_some, (h s rfl).trimmed?]

/-! ### Blanks around a text -/

theorem dropWhile_append_blank {blanks : List Char} (h : blanks.all isBlank) (cs : List Char) :
    (cs ++ blanks).dropWhile isBlank =
      if cs.all isBlank then [] else cs.dropWhile isBlank ++ blanks := by
  have hnil : blanks.dropWhile isBlank = [] := List.dropWhile_eq_nil_iff.2 (by simpa using h)
  induction cs with
  | nil => simp [hnil]
  | cons d cs ih =>
    by_cases hd : isBlank d = true
    · simp [hd, ih]
    · simp [hd]

/-- Blanks at the end are trimmed away. -/
theorem trimChars_append_blank {blanks : List Char} (h : blanks.all isBlank) (cs : List Char) :
    trimChars (cs ++ blanks) = trimChars cs := by
  unfold trimChars
  rw [dropWhile_append_blank h]
  by_cases hall : cs.all isBlank = true
  · have hnil : cs.dropWhile isBlank = [] := List.dropWhile_eq_nil_iff.2 (by simpa using hall)
    simp [hall, hnil]
  · have hback : blanks.reverse.dropWhile isBlank = [] :=
      List.dropWhile_eq_nil_iff.2 (by simpa using h)
    rw [if_neg hall, List.reverse_append, List.dropWhile_append, hback]
    rfl

/-- And so are those in front. -/
theorem trimChars_blank_append {blanks : List Char} (h : blanks.all isBlank) (cs : List Char) :
    trimChars (blanks ++ cs) = trimChars cs := by
  have hnil : blanks.dropWhile isBlank = [] := List.dropWhile_eq_nil_iff.2 (by simpa using h)
  rw [trimChars, List.dropWhile_append, hnil]
  rfl

theorem trim_between {front back : String} (hfront : isBlankText front) (hback : isBlankText back)
    (s : String) : trim (front ++ s ++ back) = trim s := by
  rw [trim, String.toList_append, String.toList_append, trimChars_append_blank hback,
    trimChars_blank_append hfront, trim]

theorem trimmed?_between {front back : String} (hfront : isBlankText front) (hback : isBlankText back)
    (s : String) : trimmed? (front ++ s ++ back) = trimmed? s := by
  rw [trimmed?, trim_between hfront hback, trimmed?]

end EventWorker.Text
