import EventWorker.Proofs.Naming
import EventWorker.Proofs.Unit.Carrier
import Mathlib.Computability.Language

/-!
# The language of job names

Names are checked by their length in bytes, by their characters and by their two ends, in this order. What
passes is a regular language (`jobNames`), of one letter or digit, or of two with at most sixty-one letters,
digits and hyphens between them.

Everything that names are put together to rests on this language. Nothing in an accepted name is changed when
the name of a unit or of a cache volume is put in lower case, a name has as many bytes as characters, and
there is no dot in it, so that it can be told from the key of a variable which container the variable is of.

Main statement: `jobNames_accepted`.
-/

namespace EventWorker

open Text

/-! ### The language -/

/-- The texts of one character of a class. -/
def single (p : Char → Bool) : Language Char :=
  {cs | ∃ c, p c ∧ cs = [c]}

/-- The texts of `[a-z0-9]([a-z0-9-]{0,61}[a-z0-9])?`, where `1` stands for what is left out. -/
def jobNames : Language Char :=
  single isLabelLetter * (1 + (1 + single isLabelChar) ^ 61 * single isLabelLetter)

/-- A character that may be left out, so many times. -/
theorem mem_atMost_iff {p : Char → Bool} (n : Nat) {cs : List Char} :
    cs ∈ (1 + single p) ^ n ↔ cs.length ≤ n ∧ ∀ c ∈ cs, p c := by
  induction n generalizing cs with
  | zero =>
    rw [pow_zero, Language.mem_one, Nat.le_zero, List.length_eq_zero_iff]
    constructor
    · rintro rfl
      simp
    · exact fun h => h.1
  | succ n ih =>
    rw [pow_succ', Language.mem_mul]
    constructor
    · rintro ⟨a, ha, b, hb, rfl⟩
      obtain ⟨hlength, hall⟩ := ih.1 hb
      rcases (Language.mem_add _ _ _).1 ha with ha | ⟨c, hc, rfl⟩
      · obtain rfl := (Language.mem_one a).1 ha
        exact ⟨Nat.le_succ_of_le hlength, hall⟩
      · exact ⟨Nat.succ_le_succ hlength, List.forall_mem_cons.2 ⟨hc, hall⟩⟩
    · rintro ⟨hlength, hall⟩
      cases cs with
      | nil => exact ⟨[], .inl rfl, [], ih.2 ⟨Nat.zero_le n, hall⟩, rfl⟩
      | cons c cs =>
        obtain ⟨hc, hcs⟩ := List.forall_mem_cons.1 hall
        exact ⟨[c], .inr ⟨c, hc, rfl⟩, cs, ih.2 ⟨Nat.le_of_succ_le_succ hlength, hcs⟩, rfl⟩

/-- What follows the first character is nothing, or ends in a letter or digit. -/
theorem mem_jobNames_iff {name : String} : name.toList ∈ jobNames ↔ IsJobName name := by
  have hlong : ∀ inner : List Char, inner.length + 2 ≤ maxJobNameLength ↔ inner.length ≤ 61 := by
    intro inner
    show inner.length + 2 ≤ 63 ↔ _
    omega
  rw [jobNames, Language.mem_mul]
  constructor
  · rintro ⟨_, ⟨first, hfirst, rfl⟩, b, hb, heq⟩
    rcases (Language.mem_add _ _ _).1 hb with hb | hb
    · obtain rfl := (Language.mem_one b).1 hb
      exact .inl ⟨first, heq.symm, hfirst⟩
    · obtain ⟨inner, hinner, _, ⟨last, hlast, rfl⟩, rfl⟩ := Language.mem_mul.1 hb
      obtain ⟨hlength, hall⟩ := (mem_atMost_iff 61).1 hinner
      exact .inr ⟨first, inner, last, heq.symm, hfirst, hlast, List.all_eq_true.2 hall,
        (hlong inner).2 hlength⟩
  · rintro (⟨c, hcs, hc⟩ | ⟨first, inner, last, hcs, hfirst, hlast, hinner, hlength⟩)
    · exact ⟨[c], ⟨c, hc, rfl⟩, [], .inl rfl, hcs.symm⟩
    · refine ⟨[first], ⟨first, hfirst, rfl⟩, inner ++ [last], .inr ?_, hcs.symm⟩
      apply Language.mem_mul.2
      exact ⟨inner, (mem_atMost_iff 61).2 ⟨(hlong inner).1 hlength, List.all_eq_true.1 hinner⟩, [last],
        ⟨last, hlast, rfl⟩, rfl⟩

/-! ### Accepted names -/

theorem checkName_eq_ok_iff_mem {name : String} :
    Job.checkName name = .ok () ↔ name.toList ∈ jobNames := by
  rw [Job.checkName_eq_ok_iff, nameFault?_eq_none_iff, mem_jobNames_iff]

theorem validate_eq_ok_iff_mem {j : Job} : j.validate = .ok () ↔
    j.name.toList ∈ jobNames ∧ ∀ key ∈ j.sidecars.keys, key.toList ∈ jobNames := by
  simp only [Job.validate_eq_ok_iff, List.forall_mem_cons, nameFault?_eq_none_iff, mem_jobNames_iff]

theorem dot_notMem_of_mem {name : String} (h : name.toList ∈ jobNames) : '.' ∉ name.toList :=
  dot_notMem_of_nameFault?_eq_none (nameFault?_eq_none_iff.2 (mem_jobNames_iff.1 h))

theorem utf8ByteSize_of_mem {name : String} (h : name.toList ∈ jobNames) :
    name.utf8ByteSize = name.length := by
  have hsize := utf8ByteSize_eq_length (isJobName_iff.1 (mem_jobNames_iff.1 h)).2.2.1
  rwa [String.ofList_toList, String.length_toList] at hsize

/-- **The names that pass are those of the language**, and a job is valid if its own name and those of its
sidecars are of it. A name of the language has as many bytes as characters and stands unchanged in the names
of its units and of its caches. There is no dot in it, so that two keys of variables are the same only if both
the containers and the variables are. -/
theorem jobNames_accepted :
    (∀ name, Job.checkName name = .ok () ↔ name.toList ∈ jobNames) ∧
    (∀ j : Job, j.validate = .ok () ↔
      j.name.toList ∈ jobNames ∧ ∀ key ∈ j.sidecars.keys, key.toList ∈ jobNames) ∧
    ∀ name : String, name.toList ∈ jobNames →
      name.utf8ByteSize = name.length ∧
      lower name = name ∧
      (∀ naming event now,
        unitName naming name event now = name ++ "-" ++ lower (unitTail naming event now)) ∧
      (∀ project, cacheVolumeName project name = lower (projectPart project) ++ "-" ++ name) ∧
      '.' ∉ name.toList ∧
      ∀ other key key', other.toList ∈ jobNames →
        (carrierKey (some name) key = carrierKey (some other) key' ↔ name = other ∧ key = key') := by
  refine ⟨fun name => checkName_eq_ok_iff_mem, fun j => validate_eq_ok_iff_mem, fun name h => ?_⟩
  have hname : IsJobName name := mem_jobNames_iff.1 h
  refine ⟨utf8ByteSize_of_mem h, lower_of_isJobName hname, unitName_eq hname,
    fun project => cacheVolumeName_eq project hname, dot_notMem_of_mem h, ?_⟩
  intro other key key' hother
  exact scoped_inj (dot_notMem_of_mem h) (dot_notMem_of_mem hother)

/-- A name with a digit for its first character and hyphens next to each other. -/
theorem jobNames_accepted_numbered : "2--a".toList ∈ jobNames ∧ lower "2--a" = "2--a" ∧
    ∀ project, cacheVolumeName project "2--a" = lower (projectPart project) ++ "-" ++ "2--a" := by
  have hmem : "2--a".toList ∈ jobNames := (jobNames_accepted.1 "2--a").1 rfl
  obtain ⟨-, hlower, -, hcache, -⟩ := jobNames_accepted.2.2 "2--a" hmem
  exact ⟨hmem, hlower, hcache⟩

end EventWorker
