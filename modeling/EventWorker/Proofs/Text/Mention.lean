import Mathlib.Data.List.Chain
import EventWorker.Error
import EventWorker.Proofs.Job.Name

/-!
# Texts that mention a name

A text mentions a name if the name stands in it between single quotes. Where the name has no quote in it, a
quote in the text is either the end of what is before it or the beginning of what is after it, and so a text
may be searched in pieces that are cut at a quote (`infix_seam`). And where no quote is followed by what job
names are made of, no job name is mentioned.

Main statement: `mentions_invalidJobName_iff`, what else is mentioned by a message about a name.
-/

namespace EventWorker.Text

/-- A name between quotes. -/
def quotation (name : String) : List Char :=
  '\'' :: (name.toList ++ ['\''])

def Mentions (text name : String) : Prop :=
  quotation name <:+: text.toList

instance (text name : String) : Decidable (Mentions text name) :=
  inferInstanceAs (Decidable (_ <:+: _))

theorem Mentions.append {text name : String} (h : Mentions text name) (more : String) :
    Mentions (text ++ more) name := by
  refine h.trans (List.IsPrefix.isInfix ⟨more.toList, ?_⟩)
  rw [String.toList_append]

/-- A name is mentioned between a text that ends in a quote and one that begins with a quote. -/
theorem mentions_between {before after s t : String} (name : String) (hbefore : before = s ++ "'")
    (hafter : after = "'" ++ t) : Mentions (before ++ name ++ after) name :=
  ⟨s.toList, t.toList, by simp [hbefore, hafter, quotation]⟩

/-! ### Pieces -/

section Pieces

variable {α : Type} {q : α} {n xs ys : List α}

/-- A quote that is in a quotation is at the beginning of it or at the end. -/
theorem quotation_cut (hq : q ∉ n) {a b : List α} (h : q :: (n ++ [q]) = a ++ q :: b) : a = [] ∨ b = [] := by
  cases a with
  | nil => exact .inl rfl
  | cons c a =>
    obtain ⟨-, h⟩ := List.cons.inj h
    rcases List.eq_nil_or_concat b with rfl | ⟨b, last, rfl⟩
    · exact .inr rfl
    · have hinner : n ++ [q] = (a ++ q :: b) ++ [last] := by simpa using h
      have hmem : q ∈ n := by
        rw [(List.append_inj' hinner rfl).1]
        exact List.mem_append_right a List.mem_cons_self
      exact absurd hmem hq

/-- A text is cut at a quote. What is quoted is in one piece or in the other. -/
theorem infix_seam (hq : q ∉ n) : q :: (n ++ [q]) <:+: xs ++ q :: ys ↔
    q :: (n ++ [q]) <:+: xs ++ [q] ∨ q :: (n ++ [q]) <:+: q :: ys := by
  constructor
  · rintro ⟨s, t, h⟩
    rw [List.append_assoc] at h
    -- the quotation begins in the first piece, or not before the cut
    rcases List.append_eq_append_iff.1 h with ⟨a, rfl, ha⟩ | ⟨c, rfl, hc⟩
    · have hcut : q :: (n ++ [q]) ++ t = (a ++ [q]) ++ ys := by simpa using ha
      rcases List.append_eq_append_iff.1 hcut with ⟨b, hb, -⟩ | ⟨b, hb, rfl⟩
      · refine .inl ⟨s, b, ?_⟩
        rw [List.append_assoc, ← hb, List.append_assoc]
      · have hinside : q :: (n ++ [q]) = a ++ q :: b := by simpa using hb
        obtain rfl | rfl := quotation_cut hq hinside
        · refine .inr ⟨[], t, ?_⟩
          rw [hinside]
          simp
        · refine .inl ⟨s, [], ?_⟩
          rw [hinside]
          simp
    · refine .inr ⟨c, t, ?_⟩
      rw [List.append_assoc, hc]
  · rintro (h | h)
    · have hprefix : xs ++ [q] <+: xs ++ q :: ys := ⟨ys, by simp⟩
      exact h.trans hprefix.isInfix
    · exact h.trans (List.suffix_append xs (q :: ys)).isInfix

end Pieces

/-! ### Job names -/

/-- No quote is followed by what job names are made of. -/
def QuotesNoLabel (cs : List Char) : Prop :=
  cs.IsChain fun a b => a = '\'' → ¬ isLabelChar b

instance (cs : List Char) : Decidable (QuotesNoLabel cs) :=
  inferInstanceAs (Decidable (cs.IsChain _))

theorem not_isLabelChar_of_disallowed {name : String} {c : Char}
    (h : nameFault? name = some (.disallowed c)) :
    ¬ isLabelChar c := by
  unfold nameFault? at h
  dsimp only at h
  split at h
  · cases h
  · split at h
    · cases h
    · split at h
      · next hfind =>
        cases h
        simpa using List.find?_some hfind
      · split at h <;> cases h

private theorem toList_quoted (x name y z : String) : (x ++ "'" ++ name ++ ("'" ++ y) ++ z).toList =
    (x.toList ++ '\'' :: name.toList) ++ '\'' :: (y ++ z).toList := by
  simp

private theorem toList_around (x y z : String) (c : Char) :
    (x ++ (y ++ c.toString ++ z)).toList = (x ++ y).toList ++ c :: z.toList := by
  simp

/-- A reason is not mistaken for the name of a job, even where it quotes a character. -/
theorem quotesNoLabel_reason {name : String} {fault : NameFault} (hfault : nameFault? name = some fault) :
    QuotesNoLabel ('\'' :: (": " ++ fault.reason).toList) := by
  cases fault with
  | empty => decide +kernel
  | tooLong => decide +kernel
  | hyphenAtEnd => decide +kernel
  | disallowed c =>
    have hparts : '\'' :: (": " ++ (NameFault.disallowed c).reason).toList =
        "': character '".toList ++ c :: "' is not allowed".toList := by
      have hfront : '\'' :: (": " ++ "character '").toList = "': character '".toList := by decide +kernel
      exact (congrArg ('\'' :: ·) (toList_around _ _ _ c)).trans
        (congrArg (· ++ c :: "' is not allowed".toList) hfront)
    have hbefore : QuotesNoLabel "': character '".toList := by decide +kernel
    have hafter : QuotesNoLabel "' is not allowed".toList := by decide +kernel
    have hquote : ¬ isLabelChar '\'' := by decide
    rw [hparts, QuotesNoLabel, List.isChain_append]
    refine ⟨hbefore, List.isChain_cons_cons.2 ⟨fun _ => hquote, hafter⟩, ?_⟩
    intro _ _ d hd _
    obtain rfl := Option.some.inj hd
    exact not_isLabelChar_of_disallowed hfault

variable {name : String} (h : IsJobName name)

include h

theorem quote_notMem : '\'' ∉ name.toList :=
  fun hmem => absurd ((isJobName_iff.1 h).2.2.1 _ hmem) (by decide)

theorem not_infix_of_quotesNoLabel {cs : List Char} (hcs : QuotesNoLabel cs) :
    ¬ quotation name <:+: cs := by
  intro hinfix
  obtain ⟨hempty, -, hchars, -⟩ := isJobName_iff.1 h
  have hchain : QuotesNoLabel (quotation name) := hcs.infix hinfix
  cases hname : name.toList with
  | nil => exact hempty hname
  | cons c rest =>
    rw [quotation, hname, QuotesNoLabel, List.cons_append, List.isChain_cons_cons] at hchain
    refine hchain.1 rfl (hchars c ?_)
    rw [hname]
    exact List.mem_cons_self

/-- What a message about a name mentions is in the name, between its quotes. -/
theorem mentions_invalidJobName_iff {other : String} {fault : NameFault}
    (hfault : nameFault? other = some fault) :
    Mentions (BuildError.invalidJobName other fault).message name ↔ Mentions ("'" ++ other ++ "'") name := by
  have hquote := quote_notMem h
  have hmessage : (BuildError.invalidJobName other fault).message.toList =
      ("invalid job name ".toList ++ '\'' :: other.toList) ++ '\'' :: (": " ++ fault.reason).toList := by
    have hopen : "invalid job name '" = "invalid job name " ++ "'" := by decide +kernel
    have hclose : "': " = "'" ++ ": " := by decide +kernel
    exact (congrArg String.toList (congrArg₂ (· ++ other ++ · ++ fault.reason) hopen hclose)).trans
      (toList_quoted _ _ _ _)
  have hfront : ¬ quotation name <:+: "invalid job name ".toList ++ ['\''] :=
    not_infix_of_quotesNoLabel h (by decide +kernel)
  have hback := not_infix_of_quotesNoLabel h (quotesNoLabel_reason hfault)
  have hother : ("'" ++ other ++ "'").toList = '\'' :: (other.toList ++ ['\'']) := by simp
  rw [Mentions, Mentions, hmessage, hother]
  unfold quotation at *
  rw [infix_seam hquote, or_iff_left hback, List.append_assoc, List.cons_append, infix_seam hquote,
    or_iff_right hfront]

end EventWorker.Text
