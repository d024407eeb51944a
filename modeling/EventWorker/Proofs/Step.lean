import EventWorker.Proofs.Document.Fields
import EventWorker.Step

/-!
# What steps are declared by

A step is declared by a record with one field of four that has a value, and with no field besides; the
value of a group is a list that declares its members, and so on down to the jobs (`Step.Declared`). The
definition follows the step and leaves open how deep it is, so it says nothing of the bound that decoding
goes by: a step that is too deep for the terms has no declaration, since every record and every list
takes a level.

* `Step.mem_jobs_iff`: the leaves are found wherever they stand.
* `Step.decode_eq_ok_iff`: what is decoded as a step is what declares it.
-/

namespace EventWorker

open Decoder Document

/-! ### Leaves -/

/-- A leaf stands in a step, at whatever depth. -/
inductive Step.Within {α : Type} (a : α) : Step α → Prop
  | job : Within a (.job a)
  | serial {s : Step α} {steps : List (Step α)} (hs : s ∈ steps) (h : Within a s) :
    Within a (.serial steps)
  | concurrent {s : Step α} {steps : List (Step α)} (hs : s ∈ steps) (h : Within a s) :
    Within a (.concurrent steps)
  | batched {limit : Nat} {s : Step α} {steps : List (Step α)} (hs : s ∈ steps) (h : Within a s) :
    Within a (.batched limit steps)

namespace Step

variable {α : Type} {a : α}

theorem mem_jobsOfAll_of_mem {s : Step α} {steps : List (Step α)} (hs : s ∈ steps) (h : a ∈ s.jobs) :
    a ∈ jobsOfAll steps := by
  induction steps with
  | nil => cases hs
  | cons t rest ih =>
    rw [jobsOfAll, List.mem_append]
    rcases List.mem_cons.1 hs with rfl | hs
    · exact .inl h
    · exact .inr (ih hs)

theorem mem_jobs_of_within {s : Step α} (h : Within a s) : a ∈ s.jobs := by
  induction h with
  | job =>
    rw [jobs]
    exact List.mem_singleton_self a
  | serial hs _ ih | concurrent hs _ ih | batched hs _ ih =>
    rw [jobs]
    exact mem_jobsOfAll_of_mem hs ih

mutual

theorem within_of_mem_jobs : (s : Step α) → a ∈ s.jobs → Within a s
  | job b, h => by
    rw [jobs, List.mem_singleton] at h
    exact h ▸ .job
  | serial steps, h => by
    rw [jobs] at h
    obtain ⟨s, hs, ha⟩ := within_of_mem_jobsOfAll steps h
    exact .serial hs ha
  | concurrent steps, h => by
    rw [jobs] at h
    obtain ⟨s, hs, ha⟩ := within_of_mem_jobsOfAll steps h
    exact .concurrent hs ha
  | batched limit steps, h => by
    rw [jobs] at h
    obtain ⟨s, hs, ha⟩ := within_of_mem_jobsOfAll steps h
    exact .batched hs ha

theorem within_of_mem_jobsOfAll : (steps : List (Step α)) → a ∈ jobsOfAll steps →
    ∃ s ∈ steps, Within a s
  | [], h => by
    rw [jobsOfAll] at h
    cases h
  | s :: rest, h => by
    rw [jobsOfAll, List.mem_append] at h
    rcases h with h | h
    · exact ⟨s, List.mem_cons_self, within_of_mem_jobs s h⟩
    · obtain ⟨t, ht, ha⟩ := within_of_mem_jobsOfAll rest h
      exact ⟨t, List.mem_cons_of_mem s ht, ha⟩

end

/-- **The leaves of a step are found wherever they stand.** -/
theorem mem_jobs_iff {s : Step α} : a ∈ s.jobs ↔ Within a s :=
  ⟨within_of_mem_jobs s, mem_jobs_of_within⟩

end Step

/-! ### Declarations -/

namespace Step

/-- The fields that a step may be declared with. -/
def kinds : List String :=
  ["job", "serial", "concurrent", "batched"]

/-- The document is a record of kinds of steps, of which this one and no other has a value. -/
def Sole (kind : String) (terms : Terms) (d : Document) (inner : Terms) (v : Document) : Prop :=
  ∃ fields, HasFields terms d inner fields ∧ Keyed kinds true fields ∧
    valueOf? kind fields = some v ∧ v.IsGiven ∧
      ∀ other ∈ kinds, other ≠ kind → ∀ w, valueOf? other fields = some w → w.IsNull

/-- The items of a document have a property together. -/
def Listed (P : Terms → List Document → Prop) (terms : Terms) (d : Document) : Prop :=
  ∃ inner items, HasItems terms d inner items ∧ P inner items

mutual

/-- A document declares a step. A batched group is declared by a record in turn, with a limit of one
unless it gives another. -/
def Declared : Step Job → Terms → Document → Prop
  | job j, terms, d => ∃ inner v, Sole "job" terms d inner v ∧ Job.decode inner v = .ok j
  | serial steps, terms, d => ∃ inner v, Sole "serial" terms d inner v ∧
    Listed (AllDeclared steps) inner v
  | concurrent steps, terms, d => ∃ inner v, Sole "concurrent" terms d inner v ∧
    Listed (AllDeclared steps) inner v
  | batched limit steps, terms, d => ∃ inner v, Sole "batched" terms d inner v ∧
    ∃ deeper fields, HasFields inner v deeper fields ∧ Keyed ["maxConcurrent", "steps"] false fields ∧
      (valueOf? "maxConcurrent" fields = none → limit = 1) ∧
      (∀ w, valueOf? "maxConcurrent" fields = some w → natBelow UInt64.size deeper w = .ok limit) ∧
      ∃ w, valueOf? "steps" fields = some w ∧ Listed (AllDeclared steps) deeper w

/-- Documents declare steps, one each. -/
def AllDeclared : List (Step Job) → Terms → List Document → Prop
  | [], _, ds => ds = []
  | s :: rest, terms, ds => ∃ d others, ds = d :: others ∧ Declared s terms d ∧
    AllDeclared rest terms others

end

theorem allDeclared_iff_forall₂ {steps : List (Step Job)} {terms : Terms} {ds : List Document} :
    AllDeclared steps terms ds ↔ List.Forall₂ (fun d s => Declared s terms d) ds steps := by
  induction steps generalizing ds with
  | nil => rw [AllDeclared, List.forall₂_nil_right_iff]
  | cons s rest ih =>
    rw [AllDeclared, List.forall₂_cons_right_iff]
    simp only [ih]
    constructor
    · rintro ⟨d, others, rfl, hd, hrest⟩
      exact ⟨d, others, hd, hrest, rfl⟩
    · rintro ⟨d, others, hd, hrest, rfl⟩
      exact ⟨d, others, rfl, hd, hrest⟩

/-! ### The fields of a step -/

section Shape

variable (inner : Decoder (Step Job))

/-- The fields of a step. -/
def columns : List (Column Fields) :=
  [.ofOptional "job" Job.decode (·.job) fun v f => { f with job := v },
    .ofOptional "serial" (listOf inner) (·.serial) fun v f => { f with serial := v },
    .ofOptional "concurrent" (listOf inner) (·.concurrent) fun v f => { f with concurrent := v },
    .ofOptional "batched" (batchShape inner).decode (·.batched) fun v f => { f with batched := v }]

theorem laid_shape : Laid (shape inner) (columns inner) where
  fields := rfl
  nodup := by simp [shape]
  required _ hf := absurd hf List.not_mem_nil
  repeats := rfl
  set := by simp [columns, Column.ofOptional, shape]
  get_put := by simp [columns, Column.ofOptional]
  get_put_of_ne := by simp [columns, Column.ofOptional]
  ext := by
    rintro ⟨⟩ ⟨⟩
    simp [columns, Column.ofOptional]

/-- The fields of a batched group. -/
def batchColumns : List (Column BatchFields) :=
  [⟨"maxConcurrent", Nat, natBelow UInt64.size, (·.limit), fun v b => { b with limit := v }⟩,
    ⟨"steps", List (Step Job), listOf inner, (·.steps), fun v b => { b with steps := v }⟩]

theorem laid_batchShape : Laid (batchShape inner) (batchColumns inner) where
  fields := rfl
  nodup := by simp [batchShape]
  required := by simp [batchShape]
  repeats := rfl
  set := by simp [batchColumns, batchShape]
  get_put := by simp [batchColumns]
  get_put_of_ne := by simp [batchColumns]
  ext := by
    rintro ⟨⟩ ⟨⟩
    simp [batchColumns]

end Shape

/-- What a step is declared with. -/
def fieldsOf : Step Job → Fields
  | job j => { job := some j }
  | serial steps => { serial := some steps }
  | concurrent steps => { concurrent := some steps }
  | batched limit steps => { batched := some ⟨limit, steps⟩ }

theorem ofFields_eq_ok_iff {f : Fields} {s : Step Job} : ofFields f = .ok s ↔ f = s.fieldsOf := by
  constructor
  · intro h
    unfold ofFields at h
    split at h
    all_goals first
      | obtain rfl := Except.ok.inj h
        rfl
      | cases h
  · rintro rfl
    cases s <;> rfl

/-! ### Decoding -/

section Decoding

variable {terms inner : Terms} {d : Document} {fields : List (Document × Document)}

theorem decodeWithin_succ_eq_ok_iff (hlists : terms.lists = false) {bound : Nat} {s : Step Job} :
    decodeWithin (bound + 1) terms d = .ok s ↔ ∃ inner fields, HasFields terms d inner fields ∧
      Keyed kinds true fields ∧ ∀ c ∈ columns (decodeWithin bound),
        c.Reads inner {} s.fieldsOf (valueOf? c.name fields) := by
  rw [decodeWithin, Except.bind_eq_ok_iff]
  simp only [ofFields_eq_ok_iff, exists_eq_right, (laid_shape _).decode_eq_ok_iff hlists]
  refine exists_congr fun inner => exists_congr fun fields => and_congr_right fun _ =>
    and_congr_right fun _ => ?_
  exact and_iff_right fun key hkey => absurd hkey (List.not_mem_nil (a := key))

/-- A step has one field that says what it is. -/
theorem exists_sole_iff {kind : String} (hkind : kind ∈ kinds) {P : Terms → Document → Prop} :
    (∃ inner v, Sole kind terms d inner v ∧ P inner v) ↔
      ∃ inner fields, HasFields terms d inner fields ∧ Keyed kinds true fields ∧ ∀ other ∈ kinds,
        if other = kind then ∃ v, valueOf? other fields = some v ∧ v.IsGiven ∧ P inner v
        else ∀ w, valueOf? other fields = some w → w.IsNull := by
  constructor
  · rintro ⟨inner, v, ⟨fields, hfields, hkeyed, hv, hgiven, hothers⟩, hP⟩
    refine ⟨inner, fields, hfields, hkeyed, fun other hother => ?_⟩
    split
    · next heq => exact ⟨v, heq ▸ hv, hgiven, hP⟩
    · next hne => exact hothers other hother hne
  · rintro ⟨inner, fields, hfields, hkeyed, hall⟩
    obtain ⟨v, hv, hgiven, hP⟩ := (if_pos rfl).mp (hall kind hkind)
    refine ⟨inner, v, ⟨fields, hfields, hkeyed, hv, hgiven, fun other hother hne => ?_⟩, hP⟩
    exact (if_neg hne).mp (hall other hother)

/-- Terms that leave fewer levels than the bound, and on which no list stands for a record. -/
structure Under (bound : Nat) (terms : Terms) : Prop where
  lists : terms.lists = false
  levels : terms.levels < bound

namespace Under

variable {bound : Nat} {items : List Document}

theorem below (h : Under (bound + 1) terms) (hin : inner.Below terms) : Under bound inner :=
  ⟨hin.lists.trans h.lists, by have := hin.levels; have := h.levels; omega⟩

theorem mono {bound' : Nat} (h : Under bound terms) (hle : bound ≤ bound') : Under bound' terms :=
  ⟨h.lists, Nat.lt_of_lt_of_le h.levels hle⟩

theorem ofItems (h : Under bound terms) (hitems : HasItems terms d inner items) : Under bound inner := by
  cases hitems with
  | list _ hin => exact (h.mono (Nat.le_succ _)).below hin
  | nothing _ => exact h

theorem ofFields (h : Under bound terms) (hfields : HasFields terms d inner fields) :
    Under bound inner := by
  cases hfields with
  | record _ hin => exact (h.mono (Nat.le_succ _)).below hin
  | nothing _ => exact h

/-- A value in a record is one level further down. -/
theorem ofValue (h : Under (bound + 1) terms) (hfields : HasFields terms d inner fields) {key : String}
    {v : Document} (hv : valueOf? key fields = some v) : Under bound inner := by
  cases hfields with
  | record _ hin => exact h.below hin
  | nothing => cases hv

end Under

/-- What is decoded as a step, where there are fewer levels than the bound, is what declares it. -/
def Exact (decoder : Decoder (Step Job)) (bound : Nat) : Prop :=
  ∀ terms d s, Under bound terms → (decoder terms d = .ok s ↔ Declared s terms d)

namespace Exact

variable {decoder : Decoder (Step Job)} {bound : Nat} (h : Exact decoder bound)
  (hterms : Under bound terms)

include h hterms

theorem listOf {steps : List (Step Job)} :
    listOf decoder terms d = .ok steps ↔ Listed (AllDeclared steps) terms d := by
  rw [listOf_eq_ok_iff, Listed]
  refine exists_congr fun inner => exists_congr fun items => and_congr_right fun hitems => ?_
  simp only [h inner _ _ (hterms.ofItems hitems), allDeclared_iff_forall₂]

theorem batchShape {limit : Nat} {steps : List (Step Job)} :
    (batchShape decoder).decode terms d = .ok ⟨limit, steps⟩ ↔
      ∃ deeper fields, HasFields terms d deeper fields ∧ Keyed ["maxConcurrent", "steps"] false fields ∧
        (valueOf? "maxConcurrent" fields = none → limit = 1) ∧
        (∀ w, valueOf? "maxConcurrent" fields = some w → natBelow UInt64.size deeper w = .ok limit) ∧
        ∃ w, valueOf? "steps" fields = some w ∧ Listed (AllDeclared steps) deeper w := by
  rw [(laid_batchShape decoder).decode_eq_ok_iff hterms.lists]
  refine exists_congr fun deeper => exists_congr fun fields => and_congr_right fun hfields =>
    and_congr_right fun _ => ?_
  simp only [batchColumns, Step.batchShape, List.forall_mem_cons, Column.reads_iff,
    h.listOf (hterms.ofFields hfields)]
  cases valueOf? "steps" fields with
  | none => simp
  | some w => simp [and_assoc]

end Exact

theorem exact_decodeWithin (bound : Nat) : Exact (decodeWithin bound) bound := by
  induction bound with
  | zero => exact fun _ _ _ hterms => absurd hterms.levels (Nat.not_lt_zero _)
  | succ bound ih =>
    intro terms d s hterms
    -- the value that makes the step what it is has a level less left than the step
    have hgiven : ∀ {inner fields kind} {P Q : Document → Prop}, HasFields terms d inner fields →
        (∀ v, Under bound inner → (P v ↔ Q v)) →
        ((∃ v, valueOf? kind fields = some v ∧ v.IsGiven ∧ P v) ↔
          ∃ v, valueOf? kind fields = some v ∧ v.IsGiven ∧ Q v) :=
      fun hfields hiff => exists_congr fun v => and_congr_right fun hv => and_congr_right fun _ =>
        hiff v (hterms.ofValue hfields hv)
    rw [decodeWithin_succ_eq_ok_iff hterms.lists]
    cases s
    all_goals
      rw [Declared, exists_sole_iff (by simp [kinds])]
      refine exists_congr fun inner => exists_congr fun fields => and_congr_right fun hfields =>
        and_congr_right fun _ => ?_
    case job j =>
      simp [columns, fieldsOf, kinds]
    case serial steps =>
      simp [columns, fieldsOf, kinds, hgiven hfields fun v hinner => ih.listOf hinner]
    case concurrent steps =>
      simp [columns, fieldsOf, kinds, hgiven hfields fun v hinner => ih.listOf hinner]
    case batched limit steps =>
      simp [columns, fieldsOf, kinds, hgiven hfields fun v hinner => ih.batchShape hinner]

/-- **What is decoded as a step is what declares it.** -/
theorem decode_eq_ok_iff (hlists : terms.lists = false) {s : Step Job} :
    decode terms d = .ok s ↔ Declared s terms d :=
  exact_decodeWithin _ terms d s ⟨hlists, Nat.lt_succ_self _⟩

end Decoding

end Step

end EventWorker
