/-!
# Tables

A table maps texts to values. It is kept as the list of its entries in increasing order of their
keys (by code point), so two tables with the same entries are the same table, and the order in
which a table is read out is the order of its keys. `get?_insert` says what insertion does.
-/

namespace EventWorker

/-- Entries in strictly increasing order of their keys. -/
def Ascending {α : Type} (entries : List (String × α)) : Prop :=
  entries.Pairwise fun a b => a.1 < b.1

structure Table (α : Type) where
  entries : List (String × α)
  ascending : Ascending entries
  deriving DecidableEq

namespace Table

variable {α β : Type}

def empty : Table α :=
  ⟨[], List.Pairwise.nil⟩

instance : Inhabited (Table α) :=
  ⟨empty⟩

instance : EmptyCollection (Table α) :=
  ⟨empty⟩

def isEmpty (t : Table α) : Bool :=
  t.entries.isEmpty

def size (t : Table α) : Nat :=
  t.entries.length

def keys (t : Table α) : List String :=
  t.entries.map (·.1)

def values (t : Table α) : List α :=
  t.entries.map (·.2)

def lookup (key : String) : List (String × α) → Option α
  | [] => none
  | (k, v) :: rest => if k = key then some v else lookup key rest

def get? (t : Table α) (key : String) : Option α :=
  lookup key t.entries

def contains (t : Table α) (key : String) : Bool :=
  (t.get? key).isSome

def put (key : String) (value : α) : List (String × α) → List (String × α)
  | [] => [(key, value)]
  | (k, v) :: rest =>
    if key < k then (key, value) :: (k, v) :: rest
    else if key = k then (key, value) :: rest
    else (k, v) :: put key value rest

theorem mem_put {key : String} {value : α} {entries : List (String × α)} {e : String × α}
    (h : e ∈ put key value entries) : e = (key, value) ∨ e ∈ entries := by
  induction entries with
  | nil => simpa [put] using h
  | cons head rest ih =>
    obtain ⟨k, v⟩ := head
    simp only [put] at h
    split at h
    · simpa using h
    · split at h
      · rcases List.mem_cons.1 h with rfl | h
        · exact Or.inl rfl
        · exact Or.inr (List.mem_cons_of_mem _ h)
      · rcases List.mem_cons.1 h with rfl | h
        · exact Or.inr List.mem_cons_self
        · exact (ih h).imp id (List.mem_cons_of_mem _)

theorem ascending_put (key : String) (value : α) {entries : List (String × α)}
    (h : Ascending entries) : Ascending (put key value entries) := by
  induction entries with
  | nil => simp [put, Ascending]
  | cons head rest ih =>
    obtain ⟨k, v⟩ := head
    have hk : ∀ e ∈ rest, k < e.1 := (List.pairwise_cons.1 h).1
    have hr : Ascending rest := (List.pairwise_cons.1 h).2
    simp only [put]
    split
    · next hlt =>
      refine List.pairwise_cons.2 ⟨fun e he => ?_, h⟩
      rcases List.mem_cons.1 he with rfl | he
      · exact hlt
      · exact String.lt_trans hlt (hk e he)
    · next hlt =>
      split
      · next heq =>
        subst heq
        exact List.pairwise_cons.2 ⟨hk, hr⟩
      · next hne =>
        refine List.pairwise_cons.2 ⟨fun e he => ?_, ih hr⟩
        rcases mem_put he with rfl | he
        · exact Std.lt_of_le_of_ne (String.not_lt.1 hlt) (Ne.symm hne)
        · exact hk e he

/-- Sets the value of a key, which replaces an earlier one. -/
def insert (t : Table α) (key : String) (value : α) : Table α :=
  ⟨put key value t.entries, ascending_put key value t.ascending⟩

theorem lookup_put (key : String) (value : α) (entries : List (String × α)) (k : String) :
    lookup k (put key value entries) = if key = k then some value else lookup k entries := by
  induction entries with
  | nil => simp [put, lookup]
  | cons head rest ih =>
    obtain ⟨k', v⟩ := head
    simp only [put]
    split
    · simp [lookup]
    · split
      · next heq =>
        subst heq
        by_cases hk : key = k <;> simp [lookup, hk]
      · next hne =>
        by_cases hk : k' = k
        · subst hk
          simp [lookup, hne]
        · simp [lookup, hk, ih]

@[simp] theorem get?_insert (t : Table α) (key : String) (value : α) (k : String) :
    (t.insert key value).get? k = if key = k then some value else t.get? k :=
  lookup_put key value t.entries k

@[simp] theorem get?_empty (k : String) : (empty : Table α).get? k = none := rfl

/-- Removes a key and its value. -/
def erase (t : Table α) (key : String) : Table α :=
  ⟨t.entries.filter (·.1 != key), t.ascending.filter _⟩

/-- Adds entries in order, so that of two with one key the later one stays. -/
def insertAll (t : Table α) (entries : List (String × α)) : Table α :=
  entries.foldl (fun t e => t.insert e.1 e.2) t

def ofList (entries : List (String × α)) : Table α :=
  empty.insertAll entries

/-- Replaces each value by one computed from it and its key. -/
def mapWithKey (f : String → α → β) (t : Table α) : Table β :=
  ⟨t.entries.map fun e => (e.1, f e.1 e.2), by
    have h := t.ascending
    simp only [Ascending, List.pairwise_map] at h ⊢
    exact h⟩

def map (f : α → β) (t : Table α) : Table β :=
  t.mapWithKey fun _ => f

def filter (p : String → α → Bool) (t : Table α) : Table α :=
  ⟨t.entries.filter fun e => p e.1 e.2, t.ascending.filter _⟩

end Table

end EventWorker
