import EventWorker.Table
import Mathlib.Data.List.Sort

/-!
# Entries of a table

A table that is made from a list keeps one entry of each key, the last. So it gives back every entry of
the list if and only if no two of them say different things of one key.

* `mem_entries_iff`: the entries of a table are what it gives when it is looked up.
* `forall_get?_ofList_iff`: when a table gives back all that has been put there.
* `map_ofList`: values may be replaced before a table is made or afterwards.
-/

namespace EventWorker.Table

variable {α : Type}

/-! ### Entries -/

theorem mem_of_lookup {key : String} {value : α} {entries : List (String × α)}
    (h : lookup key entries = some value) : (key, value) ∈ entries := by
  induction entries with
  | nil => exact absurd h.symm (Option.some_ne_none value)
  | cons e rest ih =>
    obtain ⟨k, v⟩ := e
    rw [lookup] at h
    split at h
    · next hk =>
      obtain rfl := Option.some.inj h
      rw [hk]
      exact List.mem_cons_self
    · exact List.mem_cons_of_mem _ (ih h)

theorem lookup_of_mem {key : String} {value : α} {entries : List (String × α)}
    (ha : Ascending entries) (h : (key, value) ∈ entries) : lookup key entries = some value := by
  induction entries with
  | nil => exact absurd h List.not_mem_nil
  | cons e rest ih =>
    obtain ⟨k, v⟩ := e
    obtain ⟨hk, hrest⟩ := List.pairwise_cons.1 ha
    rw [lookup]
    rcases List.mem_cons.1 h with heq | h
    · obtain ⟨rfl, rfl⟩ := Prod.mk.inj heq
      exact if_pos rfl
    · have hne : k ≠ key := fun heq => String.lt_irrefl key (heq ▸ hk (key, value) h)
      rw [if_neg hne]
      exact ih hrest h

theorem mem_entries_iff {t : Table α} {key : String} {value : α} :
    (key, value) ∈ t.entries ↔ t.get? key = some value :=
  ⟨lookup_of_mem t.ascending, mem_of_lookup⟩

theorem mem_keys_iff {t : Table α} {key : String} : key ∈ t.keys ↔ (t.get? key).isSome := by
  rw [Option.isSome_iff_exists, keys, List.mem_map]
  constructor
  · rintro ⟨⟨_, value⟩, hmem, rfl⟩
    exact ⟨value, mem_entries_iff.1 hmem⟩
  · rintro ⟨value, hvalue⟩
    exact ⟨(key, value), mem_entries_iff.2 hvalue, rfl⟩

theorem pairwise_keys (t : Table α) : t.keys.Pairwise (· < ·) :=
  List.pairwise_map.2 t.ascending

/-- Keys are in order, so none is there twice. -/
theorem nodup_keys (t : Table α) : t.keys.Nodup := by
  refine t.pairwise_keys.imp ?_
  rintro key _ h rfl
  exact String.lt_irrefl key h

theorem lookup_filter_ne (key k : String) (entries : List (String × α)) :
    lookup k (entries.filter (·.1 != key)) = if k = key then none else lookup k entries := by
  induction entries with
  | nil => simp [lookup]
  | cons e rest ih =>
    obtain ⟨k', v⟩ := e
    by_cases hkey : k' = key
    · rw [List.filter_cons_of_neg (by simp [hkey]), ih, lookup, hkey]
      by_cases hk : k = key
      · rw [if_pos hk, if_pos hk]
      · rw [if_neg hk, if_neg hk, if_neg (Ne.symm hk)]
    · rw [List.filter_cons_of_pos (by simp [hkey]), lookup, lookup, ih]
      by_cases hk : k = key
      · rw [if_pos hk, if_pos hk, if_neg (hk ▸ hkey)]
      · rw [if_neg hk, if_neg hk]

theorem get?_erase (t : Table α) (key k : String) :
    (t.erase key).get? k = if k = key then none else t.get? k :=
  lookup_filter_ne key k t.entries

/-! ### Tables from lists -/

/-- What a table gives after entries have been added is one of them, or what it gave before. -/
theorem get?_insertAll {t : Table α} {entries : List (String × α)} {key : String} {value : α}
    (h : (t.insertAll entries).get? key = some value) :
    (key, value) ∈ entries ∨ t.get? key = some value := by
  induction entries generalizing t with
  | nil => exact Or.inr h
  | cons e rest ih =>
    rcases ih h with h | h
    · exact Or.inl (List.mem_cons_of_mem e h)
    · rw [get?_insert] at h
      split at h
      · next hk =>
        obtain rfl := Option.some.inj h
        rw [← hk]
        exact Or.inl List.mem_cons_self
      · exact Or.inr h

/-- Once there, a key stays. -/
theorem isSome_get?_insertAll {t : Table α} {entries : List (String × α)} {key : String}
    (h : (t.get? key).isSome ∨ ∃ e ∈ entries, e.1 = key) :
    ((t.insertAll entries).get? key).isSome := by
  induction entries generalizing t with
  | nil =>
    rcases h with h | ⟨e, he, -⟩
    · exact h
    · exact absurd he List.not_mem_nil
  | cons e rest ih =>
    refine ih ?_
    rw [get?_insert]
    split
    · exact Or.inl rfl
    · next hne =>
      rcases h with h | ⟨e', he', hk⟩
      · exact Or.inl h
      · rcases List.mem_cons.1 he' with rfl | he'
        · exact absurd hk hne
        · exact Or.inr ⟨e', he', hk⟩

theorem mem_of_get?_ofList {entries : List (String × α)} {key : String} {value : α}
    (h : (ofList entries).get? key = some value) : (key, value) ∈ entries :=
  (get?_insertAll h).resolve_right (Option.some_ne_none value).symm

/-- **A table gives back all entries that it was made from** if they agree where their keys do. -/
theorem forall_get?_ofList_iff {entries : List (String × α)} :
    (∀ e ∈ entries, (ofList entries).get? e.1 = some e.2) ↔
      ∀ a ∈ entries, ∀ b ∈ entries, a.1 = b.1 → a.2 = b.2 := by
  constructor
  · intro h a ha b hb hkey
    have hsome : some a.2 = some b.2 := by rw [← h a ha, ← h b hb, hkey]
    exact Option.some.inj hsome
  · intro h e he
    obtain ⟨value, hvalue⟩ := Option.isSome_iff_exists.1
      (isSome_get?_insertAll (t := empty) (Or.inr ⟨e, he, rfl⟩))
    have hmem : (e.1, value) ∈ entries := mem_of_get?_ofList hvalue
    rw [h e he (e.1, value) hmem rfl]
    exact hvalue

/-- So it is looked up in the list where every key says one thing. -/
theorem get?_ofList_eq_some_iff {entries : List (String × α)} {key : String} {value : α}
    (h : ∀ a ∈ entries, ∀ b ∈ entries, a.1 = b.1 → a.2 = b.2) :
    (ofList entries).get? key = some value ↔ (key, value) ∈ entries :=
  ⟨mem_of_get?_ofList, fun he => forall_get?_ofList_iff.2 h _ he⟩

/-- The keys are those of the entries, whatever these say. -/
theorem exists_get?_ofList_iff {entries : List (String × α)} {key : String} :
    (∃ value, (ofList entries).get? key = some value) ↔ ∃ value, (key, value) ∈ entries := by
  constructor
  · rintro ⟨value, h⟩
    exact ⟨value, mem_of_get?_ofList h⟩
  · rintro ⟨value, h⟩
    exact Option.isSome_iff_exists.1 (isSome_get?_insertAll (Or.inr ⟨_, h, rfl⟩))

theorem ext_entries {t t' : Table α} (h : t.entries = t'.entries) : t = t' := by
  cases t
  cases t'
  cases h
  rfl

/-- The entries make up their table, in whatever order they are given. -/
theorem ofList_of_perm {t : Table α} {entries : List (String × α)} (h : entries.Perm t.entries) :
    ofList entries = t := by
  have hagree : ∀ a ∈ entries, ∀ b ∈ entries, a.1 = b.1 → a.2 = b.2 := by
    intro a ha b hb hkey
    have hget : some a.2 = some b.2 := by
      rw [← lookup_of_mem t.ascending (h.mem_iff.1 ha), hkey,
        ← lookup_of_mem t.ascending (h.mem_iff.1 hb)]
    exact Option.some.inj hget
  have hmem : ∀ e, e ∈ (ofList entries).entries ↔ e ∈ t.entries := by
    intro e
    rw [← h.mem_iff]
    constructor
    · exact fun he => mem_of_get?_ofList (mem_entries_iff.1 he)
    · exact fun he => mem_entries_iff.2 (forall_get?_ofList_iff.2 hagree e he)
  have hasymm : Std.Antisymm fun a b : String × α => a.1 < b.1 :=
    ⟨fun a b hab hba => absurd (String.lt_trans hab hba) (String.lt_irrefl a.1)⟩
  have hirrefl : Std.Irrefl fun a b : String × α => a.1 < b.1 := ⟨fun a => String.lt_irrefl a.1⟩
  exact ext_entries ((ofList entries).ascending.eq_of_mem_iff t.ascending hmem)

/-! ### Replacing values -/

variable {β : Type}

theorem keys_map (f : α → β) (t : Table α) : (t.map f).keys = t.keys := by
  simp [keys, map, mapWithKey]

theorem map_put (f : α → β) (key : String) (value : α) (entries : List (String × α)) :
    (put key value entries).map (fun e => (e.1, f e.2)) =
      put key (f value) (entries.map fun e => (e.1, f e.2)) := by
  induction entries with
  | nil => rfl
  | cons e rest ih =>
    obtain ⟨k, v⟩ := e
    simp only [put, List.map_cons]
    by_cases hlt : key < k
    · rw [if_pos hlt, if_pos hlt, List.map_cons, List.map_cons]
    · rw [if_neg hlt, if_neg hlt]
      by_cases heq : key = k
      · rw [if_pos heq, if_pos heq, List.map_cons]
      · rw [if_neg heq, if_neg heq, List.map_cons, ih]

theorem map_insertAll (f : α → β) (entries : List (String × α)) :
    ∀ t : Table α, (t.insertAll entries).map f =
      (t.map f).insertAll (entries.map fun e => (e.1, f e.2)) := by
  induction entries with
  | nil => exact fun t => rfl
  | cons e rest ih =>
    intro t
    have hinsert : (t.insert e.1 e.2).map f = (t.map f).insert e.1 (f e.2) :=
      ext_entries (map_put f e.1 e.2 t.entries)
    show ((t.insert e.1 e.2).insertAll rest).map f = _
    rw [ih, hinsert]
    rfl

/-- Values may be replaced before a table is made or afterwards. -/
theorem map_ofList (f : α → β) (entries : List (String × α)) :
    (ofList entries).map f = ofList (entries.map fun e => (e.1, f e.2)) :=
  map_insertAll f entries empty

end EventWorker.Table
