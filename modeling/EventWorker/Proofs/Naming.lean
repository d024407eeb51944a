import EventWorker.Naming
import EventWorker.Proofs.Document.Spelling
import EventWorker.Proofs.Text.LowerCase

/-!
# Names that meet

The names of resources are made of parts with hyphens between them, and most parts may have hyphens of their
own. So two names can be equal although their parts are not: one of them is cut at an earlier hyphen than the
other (`append_hyphen_eq_iff`). A job name is the first part of the name of its unit; after it comes the run,
or a time and perhaps the commit, so that the units of different jobs never have one name. In the name of its
cache a job name is the last part, behind a project's name that anybody may choose and of which not everything
is kept.

* `unitName_eq_iff`: which units have one name.
* `cacheVolumeName_eq_iff`: which jobs of which projects have one cache.
-/

namespace EventWorker

/-! ### Parts -/

private theorem toList_append_hyphen (s t : String) :
    (s ++ "-" ++ t).toList = s.toList ++ '-' :: t.toList := by
  simp

/-- The first of two equal texts is not cut later than the second. -/
private theorem cut_of_prefix {s t s' t' : String} {mid : List Char} (hs : s'.toList = s.toList ++ mid)
    (ht : '-' :: t.toList = mid ++ '-' :: t'.toList) :
    (s = s' ∧ t = t') ∨ ∃ x, s' = s ++ "-" ++ x ∧ t = x ++ "-" ++ t' := by
  cases mid with
  | nil =>
    left
    constructor
    · simpa [String.toList_inj] using hs.symm
    · simpa [String.toList_inj] using ht
  | cons c x =>
    obtain ⟨rfl, htail⟩ := List.cons.inj ht
    refine .inr ⟨String.ofList x, ?_, ?_⟩
    · rw [← String.toList_inj, toList_append_hyphen, String.toList_ofList, hs]
    · rw [← String.toList_inj, toList_append_hyphen, String.toList_ofList, htail, List.append_eq]

/-- Two texts with a hyphen in them are equal if they are cut at the same hyphen and have the same parts, or
if what stands between the places where they are cut belongs to the first part of one of them and to the
second of the other. -/
theorem append_hyphen_eq_iff {s t s' t' : String} : s ++ "-" ++ t = s' ++ "-" ++ t' ↔
    (s = s' ∧ t = t') ∨ (∃ x, s' = s ++ "-" ++ x ∧ t = x ++ "-" ++ t') ∨
      ∃ x, s = s' ++ "-" ++ x ∧ t' = x ++ "-" ++ t := by
  constructor
  · intro h
    have hlist := congrArg String.toList h
    rw [toList_append_hyphen, toList_append_hyphen] at hlist
    rcases List.append_eq_append_iff.1 hlist with ⟨mid, hs, ht⟩ | ⟨mid, hs, ht⟩
    · obtain hsame | hlonger := cut_of_prefix hs ht
      · exact .inl hsame
      · exact .inr (.inl hlonger)
    · obtain ⟨hs, ht⟩ | hshorter := cut_of_prefix hs ht
      · exact .inl ⟨hs.symm, ht.symm⟩
      · exact .inr (.inr hshorter)
  · rintro (⟨rfl, rfl⟩ | ⟨x, rfl, rfl⟩ | ⟨x, rfl, rfl⟩)
    · rfl
    · simp only [String.append_assoc]
    · simp only [String.append_assoc]

/-! ### Units -/

/-- What makes the name of a unit unique among those of its job. -/
def unitTail (naming : Naming) (event : Event) (now : Int) : String :=
  match naming with
  | .run => event.runId
  | .time =>
    match event.commit with
    | some commit => toString now ++ "-" ++ shortCommit commit
    | none => toString now

/-- The job stands in front, and nothing is changed in it. -/
theorem unitName_eq {job : String} (h : IsJobName job) (naming : Naming) (event : Event) (now : Int) :
    unitName naming job event now = job ++ "-" ++ Text.lower (unitTail naming event now) := by
  have hlower : ∀ tail : String, Text.lower (job ++ "-" ++ tail) = job ++ "-" ++ Text.lower tail := by
    intro tail
    rw [Text.lower_append_hyphen, Text.lower_of_isJobName h]
  cases naming with
  | run => exact hlower event.runId
  | time =>
    simp only [unitName, unitTail]
    cases event.commit with
    | none => exact hlower (toString now)
    | some commit =>
      show Text.lower (job ++ "-" ++ toString now ++ "-" ++ shortCommit commit) = _
      rw [← hlower]
      simp only [String.append_assoc]

/-! ### Times -/

/-- Times are written in digits, with a hyphen in front of those before the first. -/
theorem toList_toString_time (now : Int) : ∃ digits : List Char, (∀ c ∈ digits, c.isDigit) ∧
    ((toString now).toList = digits ∨ (toString now).toList = '-' :: digits) := by
  refine ⟨Nat.toDigits 10 now.natAbs, fun c hc => ?_, ?_⟩
  · exact Nat.isDigit_of_mem_toDigits (by decide) (by decide) hc
  · rw [Document.Json.toList_toString_int]
    by_cases hneg : now < 0
    · simp [hneg]
    · simp [hneg]

theorem lower_toString (now : Int) : Text.lower (toString now) = toString now := by
  apply Text.lower_of_isLabelChar
  intro c hc
  obtain ⟨digits, hdigits, htime | htime⟩ := toList_toString_time now
  · rw [htime] at hc
    simp [isLabelChar, isLabelLetter, hdigits c hc]
  · rw [htime] at hc
    rcases List.mem_cons.1 hc with rfl | hc
    · decide
    · simp [isLabelChar, isLabelLetter, hdigits c hc]

/-- There is no hyphen in a time but at its beginning. -/
theorem eq_empty_of_toString_eq {now : Int} {s t : String} (h : toString now = s ++ "-" ++ t) :
    s = "" := by
  have hlist := congrArg String.toList h
  rw [toList_append_hyphen] at hlist
  have hdigit : ¬ ('-' : Char).isDigit := by decide
  obtain ⟨digits, hdigits, htime | htime⟩ := toList_toString_time now
  · have hmem : '-' ∈ digits := by
      rw [← htime, hlist]
      simp
    exact absurd (hdigits _ hmem) hdigit
  · rw [hlist] at htime
    cases hs : s.toList with
    | nil => exact String.toList_eq_nil_iff.1 hs
    | cons c cs =>
      rw [hs] at htime
      have hmem : '-' ∈ digits := by simp [← (List.cons.inj htime).2]
      exact absurd (hdigits _ hmem) hdigit

/-- What comes after the time does not depend on it. -/
theorem exists_lower_unitTail (event : Event) : ∃ rest : String, ∀ now : Int,
    Text.lower (unitTail .time event now) = toString now ++ rest := by
  cases hcommit : event.commit with
  | none =>
    refine ⟨"", fun now => ?_⟩
    simp only [unitTail, hcommit, lower_toString, String.append_empty]
  | some commit =>
    refine ⟨"-" ++ Text.lower (shortCommit commit), fun now => ?_⟩
    simp only [unitTail, hcommit]
    rw [Text.lower_append_hyphen, lower_toString, String.append_assoc]

/-- A time is told by its digits and by the hyphen in front of them. -/
theorem toString_time_inj {now now' : Int} (h : toString now = toString now') : now = now' := by
  have hread := congrArg Document.wholeDigits? h
  rw [Document.wholeDigits?_toString, Document.wholeDigits?_toString] at hread
  obtain ⟨hneg, habs⟩ := Prod.mk.inj (Option.some.inj hread)
  have hsign : now < 0 ↔ now' < 0 := decide_eq_decide.1 hneg
  omega

/-- A job name ends where the hyphen in front of the time stands, since it has none at its own end. -/
theorem append_toString_inj {job job' : String} {now now' : Int} (h : IsJobName job) (h' : IsJobName job')
    (heq : job ++ "-" ++ toString now = job' ++ "-" ++ toString now') : job = job' ∧ now = now' := by
  have hend : ∀ {job : String}, IsJobName job → ∀ s, job ≠ s ++ "-" ++ "" := by
    rintro job hjob s rfl
    apply (isJobName_iff.1 hjob).2.2.2.2
    simp
  obtain ⟨hjob, htime⟩ | ⟨x, hjob, htime⟩ | ⟨x, hjob, htime⟩ := append_hyphen_eq_iff.1 heq
  · exact ⟨hjob, toString_time_inj htime⟩
  · obtain rfl := eq_empty_of_toString_eq htime
    exact absurd hjob (hend h' job)
  · obtain rfl := eq_empty_of_toString_eq htime
    exact absurd hjob (hend h job')

/-! ### Units of one event -/

section

variable {job job' : String} {event : Event} {now now' : Int}

theorem unitName_run_inj (h : IsJobName job) (h' : IsJobName job')
    (heq : unitName .run job event now = unitName .run job' event now') : job = job' := by
  rw [unitName_eq h, unitName_eq h', String.append_assoc, String.append_assoc] at heq
  exact (String.append_left_inj _).1 heq

theorem unitName_time_inj (h : IsJobName job) (h' : IsJobName job')
    (heq : unitName .time job event now = unitName .time job' event now') : job = job' ∧ now = now' := by
  obtain ⟨rest, hrest⟩ := exists_lower_unitTail event
  rw [unitName_eq h, unitName_eq h', hrest, hrest, ← String.append_assoc, ← String.append_assoc] at heq
  exact append_toString_inj h h' ((String.append_left_inj _).1 heq)

/-- The units of one event have different names if their jobs have, at whatever times they are named. -/
theorem eq_of_unitName_eq {naming : Naming} (h : IsJobName job) (h' : IsJobName job')
    (heq : unitName naming job event now = unitName naming job' event now') : job = job' := by
  cases naming with
  | run => exact unitName_run_inj h h' heq
  | time => exact (unitName_time_inj h h' heq).1

end

/-- **The units of one event are told apart by their names.** In names by the run those of one job are the
same, and those of different jobs never are. From a name by the time both the job and the time can be told,
whether the time is before the first or after it, and whatever the commit is. -/
theorem unitName_eq_iff (event : Event) {job job' : String} (h : Job.checkName job = .ok ())
    (h' : Job.checkName job' = .ok ()) :
    (∀ now now' : Int, unitName .run job event now = unitName .run job' event now' ↔ job = job') ∧
      ∀ now now' : Int, unitName .time job event now = unitName .time job' event now' ↔
        job = job' ∧ now = now' := by
  have hname : IsJobName job := nameFault?_eq_none_iff.1 (Job.checkName_eq_ok_iff.1 h)
  have hname' : IsJobName job' := nameFault?_eq_none_iff.1 (Job.checkName_eq_ok_iff.1 h')
  refine ⟨fun now now' => ⟨unitName_run_inj hname hname', ?_⟩,
    fun now now' => ⟨unitName_time_inj hname hname', ?_⟩⟩
  · rintro rfl
    -- the time has no part in a name by the run
    rfl
  · rintro ⟨rfl, rfl⟩
    rfl

/-- Its commit is in capitals and ends in a sigma. -/
def shoutedEvent : Event :=
  .primary { id := "run1", source := "github", type := "push", revision := some { commit := some "ΟΔΟΣ" } }

/-- One job is called like the other with a time behind it. -/
theorem unitName_eq_iff_shouted :
    Job.checkName "build" = .ok () ∧ Job.checkName "build-1" = .ok () ∧
      (∀ now now' : Int, unitName .run "build" shoutedEvent now = unitName .run "build-1" shoutedEvent now' ↔
        "build" = "build-1") ∧
      ∀ now now' : Int, unitName .time "build" shoutedEvent now = unitName .time "build-1" shoutedEvent now' ↔
        "build" = "build-1" ∧ now = now' :=
  ⟨rfl, rfl, unitName_eq_iff shoutedEvent rfl rfl⟩

/-! ### Caches -/

/-- What is left of a project's name in the names of its caches. -/
def cachePart (project : String) : String :=
  Text.lower (projectPart project)

theorem cacheVolumeName_eq {job : String} (project : String) (h : IsJobName job) :
    cacheVolumeName project job = cachePart project ++ "-" ++ job := by
  rw [cacheVolumeName, Text.lower_append_hyphen, Text.lower_of_isJobName h, cachePart]

/-- The jobs of one project have caches of their own. -/
theorem cacheVolumeName_inj {job job' : String} (project : String) (h : IsJobName job)
    (h' : IsJobName job') :
    cacheVolumeName project job = cacheVolumeName project job' ↔ job = job' := by
  rw [cacheVolumeName_eq project h, cacheVolumeName_eq project h']
  exact String.append_right_inj _

/-- Two jobs of projects have one cache: they are called the same and no difference is left between the
projects, or the beginning of one job's name is taken for the end of the other project's. -/
inductive SharesCache : (project job project' job' : String) → Prop where
  | same {project project' job : String} : cachePart project = cachePart project' →
      SharesCache project job project' job
  | longer {project project' job part : String} : cachePart project' = cachePart project ++ "-" ++ part →
      SharesCache project (part ++ "-" ++ job) project' job
  | shorter {project project' job part : String} : cachePart project = cachePart project' ++ "-" ++ part →
      SharesCache project job project' (part ++ "-" ++ job)

theorem cacheVolumeName_eq_iff {project job project' job' : String} (h : IsJobName job)
    (h' : IsJobName job') :
    cacheVolumeName project job = cacheVolumeName project' job' ↔
      SharesCache project job project' job' := by
  rw [cacheVolumeName_eq project h, cacheVolumeName_eq project' h', append_hyphen_eq_iff]
  constructor
  · rintro (⟨hpart, rfl⟩ | ⟨x, hpart, rfl⟩ | ⟨x, hpart, rfl⟩)
    · exact .same hpart
    · exact .longer hpart
    · exact .shorter hpart
  · intro hshares
    cases hshares with
    | same hpart => exact .inl ⟨hpart, rfl⟩
    | longer hpart => exact .inr (.inl ⟨_, hpart, rfl⟩)
    | shorter hpart => exact .inr (.inr ⟨_, hpart, rfl⟩)

end EventWorker
