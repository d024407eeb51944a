import Mathlib.Data.List.Dedup
import EventWorker.Proofs.Cluster.Submission

/-!
# What a cluster in memory has stored and what it has noted

A cluster in memory notes every resource that it creates, and stores it under its name. A claim whose name
is taken is refused. A secret or a pod is not: it takes the place of the one that was there, and the cluster
has noted one resource more than it has. So what is noted agrees with what is stored as long as no two
secrets, and no two pods, are created under one name, and every creation adds a resource as long as that is
so.

Main statement: `accounted_createAll`.
-/

namespace EventWorker.MemoryCluster

open Resource

/-! ### Creations -/

inductive Kind where
  | secret
  | pod
  | claim
  deriving DecidableEq

/-- What stands in front of the name where the creation of such a resource is noted. -/
def Kind.mark : Kind → String
  | secret => "secret:"
  | pod => "pod:"
  | claim => "claim:"

/-- A resource that a cluster is asked to create. -/
inductive Creation where
  | secret (s : Secret)
  | pod (p : Pod)
  | claim (c : Claim)

namespace Creation

def kind : Creation → Kind
  | secret _ => .secret
  | pod _ => .pod
  | claim _ => .claim

def name : Creation → String
  | secret s => s.metadata.nameText
  | pod p => p.metadata.nameText
  | claim c => c.name

def create : Creation → Call MemoryCluster ClusterError Unit
  | secret s => createSecret s
  | pod p => createPod p
  | claim c => createClaim c

end Creation

/-- What is stored under a name. -/
def stored? (m : MemoryCluster) (name : String) : Kind → Option Creation
  | .secret => (m.secrets.get? name).map .secret
  | .pod => (m.pods.get? name).map .pod
  | .claim => (m.claims.get? name).map .claim

/-- The names of what is stored. -/
def names (m : MemoryCluster) : Kind → List String
  | .secret => m.secrets.keys
  | .pod => m.pods.keys
  | .claim => m.claims.keys

/-- How many creations are noted. -/
def noted (m : MemoryCluster) (k : Kind) : Nat :=
  m.operations.countP fun operation => k.mark.toList.isPrefixOf operation.toList

theorem nodup_names (m : MemoryCluster) (k : Kind) : (m.names k).Nodup := by
  cases k with
  | secret => exact m.secrets.nodup_keys
  | pod => exact m.pods.nodup_keys
  | claim => exact m.claims.nodup_keys

theorem mem_names_iff {m : MemoryCluster} {k : Kind} {name : String} :
    name ∈ m.names k ↔ (m.stored? name k).isSome := by
  cases k with
  | secret => rw [names, stored?, Option.isSome_map, Table.mem_keys_iff]
  | pod => rw [names, stored?, Option.isSome_map, Table.mem_keys_iff]
  | claim => rw [names, stored?, Option.isSome_map, Table.mem_keys_iff]

/-- The marks of different kinds differ from the first letter on. -/
theorem isPrefixOf_mark_iff (k k' : Kind) (name : String) :
    k.mark.toList.isPrefixOf (k'.mark ++ name).toList = true ↔ k' = k := by
  rw [String.toList_append, List.isPrefixOf_iff_prefix]
  constructor
  · intro h
    cases k <;> cases k' <;> simp [Kind.mark] at h ⊢
  · rintro rfl
    exact List.prefix_append _ _

/-! ### One creation -/

variable {m m' : MemoryCluster} {c : Creation} {cs : List Creation} {k : Kind} {name : String}

/-- What the creation of a resource does. -/
structure Created (c : Creation) (m m' : MemoryCluster) : Prop where
  operations : m'.operations = m.operations ++ [c.kind.mark ++ c.name]
  stored? : ∀ name k, m'.stored? name k = if c.kind = k ∧ c.name = name then some c else m.stored? name k
  podRejection : m'.podRejection = m.podRejection
  claimDeleteFailure : m'.claimDeleteFailure = m.claimDeleteFailure
  absent : c.kind = .claim → m.stored? c.name .claim = none

private theorem map_get?_insert {α β : Type} (f : α → β) (t : Table α) (key : String) (value : α)
    (name : String) : ((t.insert key value).get? name).map f =
      if key = name then some (f value) else (t.get? name).map f := by
  rw [Table.get?_insert]
  split <;> rfl

theorem created_secret (s : Secret) (m : MemoryCluster) : Created (.secret s) m (m.withSecret s) where
  operations := rfl
  podRejection := rfl
  claimDeleteFailure := rfl
  absent := nofun
  stored? name k := by
    cases k with
    | secret =>
      exact (map_get?_insert Creation.secret m.secrets _ s name).trans
        (if_congr (and_iff_right rfl).symm rfl rfl)
    | pod => rfl
    | claim => rfl

theorem created_pod (p : Pod) (m : MemoryCluster) : Created (.pod p) m (m.withPod p) where
  operations := rfl
  podRejection := rfl
  claimDeleteFailure := rfl
  absent := nofun
  stored? name k := by
    cases k with
    | secret => rfl
    | pod =>
      exact (map_get?_insert Creation.pod m.pods _ p name).trans
        (if_congr (and_iff_right rfl).symm rfl rfl)
    | claim => rfl

theorem created_claim {claim : Claim} (h : m.claims.get? claim.name = none) :
    Created (.claim claim) m (m.withCache (some claim)) := by
  have habsent : ¬ m.claims.contains claim.name := by simp [Table.contains, h]
  have hwith : m.withCache (some claim) =
      { m.note ("claim:" ++ claim.name) with claims := m.claims.insert claim.name claim } :=
    if_neg habsent
  rw [hwith]
  refine ⟨rfl, ?_, rfl, rfl, ?_⟩
  · intro name k
    cases k with
    | secret => rfl
    | pod => rfl
    | claim =>
      exact (map_get?_insert Creation.claim m.claims _ claim name).trans
        (if_congr (and_iff_right rfl).symm rfl rfl)
  · intro _
    show (m.claims.get? claim.name).map Creation.claim = none
    rw [h]
    rfl

theorem createClaim_run {claim : Claim} (h : m.claims.get? claim.name = none) :
    (createClaim claim).run m = (.ok (), m.withCache (some claim)) := by
  simp only [createClaim, run_call, withCache, Table.contains, h]
  rfl

/-- All that can come of a creation. -/
theorem create_cases (c : Creation) (m : MemoryCluster) :
    (∃ m', c.create.run m = (.ok (), m') ∧ Created c m m') ∨
    ∃ e, c.create.run m = (.error e, m) ∧ (c.kind = .claim ∨ c.kind = .pod ∧ m.podRejection.isSome) := by
  cases c with
  | secret s => exact .inl ⟨_, rfl, created_secret s m⟩
  | pod p =>
    have hrun : (Creation.pod p).create.run m = _ := createPod_run m p
    cases hreject : m.podRejection with
    | none =>
      rw [hreject] at hrun
      exact .inl ⟨_, hrun, created_pod p m⟩
    | some reason =>
      rw [hreject] at hrun
      exact .inr ⟨_, hrun, .inr ⟨rfl, rfl⟩⟩
  | claim claim =>
    cases hthere : m.claims.get? claim.name with
    | none => exact .inl ⟨_, createClaim_run hthere, created_claim hthere⟩
    | some found =>
      refine .inr ⟨.rejected ("claim '" ++ claim.name ++ "' already exists"), ?_, .inl rfl⟩
      simp only [Creation.create, createClaim, run_call, Table.contains, hthere]
      rfl

/-- What is stored besides, and under which names, when a resource has been created. -/
theorem Created.mem_names_iff (h : Created c m m') :
    name ∈ m'.names k ↔ (c.kind = k ∧ c.name = name) ∨ name ∈ m.names k := by
  rw [MemoryCluster.mem_names_iff, MemoryCluster.mem_names_iff, h.stored?]
  split
  · next heq => simp [heq]
  · next hne => simp [hne]

theorem Created.noted_eq (h : Created c m m') (k : Kind) :
    m'.noted k = m.noted k + if c.kind = k then 1 else 0 := by
  rw [noted, h.operations, List.countP_append, List.countP_singleton, noted]
  congr 1
  exact if_congr (isPrefixOf_mark_iff k c.kind c.name) rfl rfl

/-- As much is noted as is stored. -/
def Balanced (m : MemoryCluster) : Prop :=
  ∀ k, m.noted k = (m.names k).length

/-- A resource under a name of its own is one more of its kind. -/
theorem Created.balanced (h : Created c m m') (hfresh : c.name ∉ m.names c.kind) (hm : m.Balanced) :
    m'.Balanced := by
  intro k
  rw [h.noted_eq, hm k]
  by_cases hkind : c.kind = k
  · subst hkind
    have hperm : (m'.names c.kind).Perm (c.name :: m.names c.kind) := by
      rw [List.perm_ext_iff_of_nodup (nodup_names _ _)
        (List.nodup_cons.2 ⟨hfresh, nodup_names _ _⟩)]
      intro name
      rw [h.mem_names_iff, List.mem_cons]
      simp [eq_comm]
    rw [hperm.length_eq, if_pos rfl, List.length_cons]
  · have hperm : (m'.names k).Perm (m.names k) := by
      rw [List.perm_ext_iff_of_nodup (nodup_names _ _) (nodup_names _ _)]
      intro name
      rw [h.mem_names_iff]
      simp [hkind]
    rw [hperm.length_eq, if_neg hkind, Nat.add_zero]

/-! ### Creations one after another -/

/-- A creation that has succeeded, with the states before and after it. -/
structure Success where
  before : MemoryCluster
  creation : Creation
  after : MemoryCluster

/-- A resource is there that was not, and everything else is as it was. -/
structure Success.Adds (s : Success) : Prop where
  absent : s.before.stored? s.creation.name s.creation.kind = none
  added : s.after.stored? s.creation.name s.creation.kind = some s.creation
  kept : ∀ name k r, s.before.stored? name k = some r → s.after.stored? name k = some r

def createAll (m : MemoryCluster) (cs : List Creation) : MemoryCluster :=
  cs.foldl (fun m c => (c.create.run m).2) m

def successes : MemoryCluster → List Creation → List Success
  | _, [] => []
  | m, c :: cs =>
    match c.create.run m with
    | (.ok (), m') => ⟨m, c, m'⟩ :: successes m' cs
    | (.error _, m') => successes m' cs

/-- The names of the resources of a kind that are created, in the order in which they are. -/
def created (m : MemoryCluster) (cs : List Creation) (k : Kind) : List String :=
  ((m.successes cs).filter fun s => s.creation.kind = k).map fun s => s.creation.name

theorem createAll_cons {result : Except ClusterError Unit} (h : c.create.run m = (result, m')) :
    m.createAll (c :: cs) = m'.createAll cs := by
  show (c.create.run m).2.createAll cs = _
  rw [h]

theorem successes_of_ok (h : c.create.run m = (.ok (), m')) :
    m.successes (c :: cs) = ⟨m, c, m'⟩ :: m'.successes cs := by
  rw [successes, h]

theorem successes_of_error {e : ClusterError} (h : c.create.run m = (.error e, m')) :
    m.successes (c :: cs) = m'.successes cs := by
  rw [successes, h]

theorem created_of_ok (h : c.create.run m = (.ok (), m')) (k : Kind) :
    m.created (c :: cs) k = (if c.kind = k then [c.name] else []) ++ m'.created cs k := by
  rw [created, successes_of_ok h]
  by_cases hkind : c.kind = k <;> simp [hkind, created]

theorem created_of_error {e : ClusterError} (h : c.create.run m = (.error e, m')) (k : Kind) :
    m.created (c :: cs) k = m'.created cs k := by
  rw [created, successes_of_error h, created]

/-- What is stored in the end: what was there before and what has been created. -/
theorem mem_names_createAll_iff :
    name ∈ (m.createAll cs).names k ↔ name ∈ m.names k ∨ name ∈ m.created cs k := by
  induction cs generalizing m with
  | nil => simp [createAll, created, successes]
  | cons c cs ih =>
    obtain ⟨m', hrun, hcreated⟩ | ⟨e, hrun, -⟩ := create_cases c m
    · rw [createAll_cons hrun, created_of_ok hrun, ih, hcreated.mem_names_iff, List.mem_append]
      have hname : name ∈ (if c.kind = k then [c.name] else []) ↔ c.kind = k ∧ c.name = name := by
        split
        · next heq => simp [heq, eq_comm]
        · next hne => simp [hne]
      rw [hname, or_assoc, or_left_comm]
    · rw [createAll_cons hrun, created_of_error hrun, ih]

/-- What is noted in the end: what was noted before and what has been created, once for each time. -/
theorem noted_createAll : (m.createAll cs).noted k = m.noted k + (m.created cs k).length := by
  induction cs generalizing m with
  | nil => rfl
  | cons c cs ih =>
    obtain ⟨m', hrun, hcreated⟩ | ⟨e, hrun, -⟩ := create_cases c m
    · rw [createAll_cons hrun, created_of_ok hrun, ih, hcreated.noted_eq, List.length_append]
      split <;> simp [Nat.add_assoc]
    · rw [createAll_cons hrun, created_of_error hrun, ih]

/-- A creation adds a resource exactly if there was none of its name. -/
theorem Created.adds_iff (h : Created c m m') :
    (⟨m, c, m'⟩ : Success).Adds ↔ c.name ∉ m.names c.kind := by
  rw [MemoryCluster.mem_names_iff, Bool.not_eq_true, Option.isSome_eq_false_iff,
    Option.isNone_iff_eq_none]
  constructor
  · intro hadds
    exact hadds.absent
  · intro habsent
    refine ⟨habsent, ?_, ?_⟩
    · exact (h.stored? _ _).trans (if_pos ⟨rfl, rfl⟩)
    · intro name k r hr
      have hother : ¬ (c.kind = k ∧ c.name = name) := by
        rintro ⟨rfl, rfl⟩
        rw [habsent] at hr
        cases hr
      exact ((h.stored? _ _).trans (if_neg hother)).trans hr

/-- All creations of a kind add resources exactly if their names are distinct, and none was taken before. -/
theorem forall_adds_iff : (∀ s ∈ m.successes cs, s.creation.kind = k → s.Adds) ↔
    (m.created cs k).Nodup ∧ ∀ name ∈ m.created cs k, name ∉ m.names k := by
  induction cs generalizing m with
  | nil => simp [successes, created]
  | cons c cs ih =>
    obtain ⟨m', hrun, hcreated⟩ | ⟨e, hrun, -⟩ := create_cases c m
    · rw [successes_of_ok hrun, created_of_ok hrun, List.forall_mem_cons, ih]
      simp only [hcreated.mem_names_iff]
      by_cases hkind : c.kind = k
      · subst hkind
        simp only [if_true, true_imp_iff, true_and, hcreated.adds_iff, List.singleton_append,
          List.nodup_cons, List.forall_mem_cons]
        -- a name is taken by the creation itself, so a later one of the name adds nothing
        constructor
        · rintro ⟨habsent, hnodup, hfresh⟩
          refine ⟨⟨?_, hnodup⟩, habsent, ?_⟩
          · exact fun hmem => hfresh _ hmem (.inl rfl)
          · exact fun name hmem hthere => hfresh name hmem (.inr hthere)
        · rintro ⟨⟨hnew, hnodup⟩, habsent, hfresh⟩
          refine ⟨habsent, hnodup, ?_⟩
          rintro name hmem (rfl | hthere)
          · exact hnew hmem
          · exact hfresh name hmem hthere
      · simp [hkind]
    · rw [successes_of_error hrun, created_of_error hrun, ih]

/-- Claims are never replaced. -/
theorem adds_of_claim {s : Success} (hs : s ∈ m.successes cs) (hkind : s.creation.kind = .claim) :
    s.Adds := by
  induction cs generalizing m with
  | nil => cases hs
  | cons c cs ih =>
    obtain ⟨m', hrun, hcreated⟩ | ⟨e, hrun, -⟩ := create_cases c m
    · rw [successes_of_ok hrun, List.mem_cons] at hs
      obtain rfl | hs := hs
      · refine hcreated.adds_iff.2 ?_
        have habsent := hcreated.absent hkind
        rw [MemoryCluster.mem_names_iff, hkind, habsent]
        exact Bool.false_ne_true
      · exact ih hs
    · rw [successes_of_error hrun] at hs
      exact ih hs

/-- Where pods are not turned down, every secret and every pod is created. -/
theorem created_eq_map (hkind : k ≠ .claim) (hreject : m.podRejection = none) :
    m.created cs k = (cs.filter fun c => c.kind = k).map Creation.name := by
  induction cs generalizing m with
  | nil => rfl
  | cons c cs ih =>
    obtain ⟨m', hrun, hcreated⟩ | ⟨e, hrun, hclaim⟩ := create_cases c m
    · rw [created_of_ok hrun, ih (hcreated.podRejection.trans hreject)]
      by_cases hc : c.kind = k <;> simp [hc]
    · have hc : c.kind = .claim := by simpa [hreject] using hclaim
      rw [created_of_error hrun, ih hreject, List.filter_cons_of_neg (by simp [hc, Ne.symm hkind])]

/-- Nothing has been done to the cluster. -/
structure Unused (m : MemoryCluster) : Prop where
  operations : m.operations = []
  secrets : m.secrets = {}
  pods : m.pods = {}
  claims : m.claims = {}

theorem Unused.names_eq (h : m.Unused) (k : Kind) : m.names k = [] := by
  cases k with
  | secret => rw [names, h.secrets]; rfl
  | pod => rw [names, h.pods]; rfl
  | claim => rw [names, h.claims]; rfl

theorem Unused.noted_eq (h : m.Unused) (k : Kind) : m.noted k = 0 := by
  rw [noted, h.operations]
  rfl

/-- Of each name one resource is stored. -/
theorem Unused.length_names (h : m.Unused) (cs : List Creation) (k : Kind) :
    ((m.createAll cs).names k).length = (m.created cs k).dedup.length := by
  refine List.Perm.length_eq ?_
  rw [List.perm_ext_iff_of_nodup (nodup_names _ k) (List.nodup_dedup _)]
  intro name
  rw [mem_names_createAll_iff, h.names_eq, List.mem_dedup]
  simp

theorem Unused.noted_eq_iff (h : m.Unused) (cs : List Creation) (k : Kind) :
    (m.createAll cs).noted k = ((m.createAll cs).names k).length ↔ (m.created cs k).Nodup := by
  rw [noted_createAll, h.noted_eq, Nat.zero_add, h.length_names]
  constructor
  · intro hlength
    rw [← (List.dedup_sublist _).eq_of_length hlength.symm]
    exact List.nodup_dedup _
  · intro hnodup
    rw [hnodup.dedup]

theorem Unused.balanced (h : m.Unused) : m.Balanced := by
  intro k
  rw [h.noted_eq, h.names_eq]
  rfl

/-- **What is noted of creations agrees with what is stored**, for each kind of resource, exactly if no two
of the kind have been created under one name. Exactly then every creation of the kind has added a resource
and left the others as they were. Of claims this is always so; and secrets and pods are all created unless
pods are turned down. -/
theorem accounted_createAll (h : m.Unused) (cs : List Creation) (k : Kind) :
    ((m.createAll cs).noted k = ((m.createAll cs).names k).length ↔ (m.created cs k).Nodup) ∧
    ((∀ s ∈ m.successes cs, s.creation.kind = k → s.Adds) ↔ (m.created cs k).Nodup) ∧
    (k = .claim → (m.created cs k).Nodup) ∧
    (k ≠ .claim → m.podRejection = none →
      m.created cs k = (cs.filter fun c => c.kind = k).map Creation.name) := by
  have hadds : (∀ s ∈ m.successes cs, s.creation.kind = k → s.Adds) ↔ (m.created cs k).Nodup := by
    rw [forall_adds_iff, h.names_eq]
    simp
  refine ⟨h.noted_eq_iff cs k, hadds, ?_, created_eq_map⟩
  intro hclaim
  refine hadds.1 ?_
  intro s hs hkind
  exact adds_of_claim hs (hkind.trans hclaim)

end EventWorker.MemoryCluster
