import EventWorker.Proofs.Cluster.Memory

/-!
# Rivals for a cache

Whoever sees to a cache first looks whether its claim is there and then creates it if it is not. These
are two calls to the cluster, and others that want the same cache may come in between. Here any number of
them see to it at once, and take turns in any order (`Rivals.course`); whatever else happens in the
meantime leaves the claim alone.

The claim is there in the end, and no more than one of them has created it. But the others are not all
served: one that has looked before the claim was created, and comes to create it afterwards, is refused
although it has what it wants. So all of them are served exactly if there are never two at once that have
looked in vain and not created the claim yet.

The argument counts those that have looked in vain, whatever has become of them since (`inVain`). While
the claim is missing they become more; once it is there, their number does not change any more, and of
those that are left all but one are refused.

Main statement: `Rivals.outcome_of_rivals`.
-/

namespace EventWorker

open Resource

/-- How far someone has got who sees to a cache. -/
inductive CacheAttempt where
  | waiting
  /-- They have looked, and the claim was not there. -/
  | missed
  | done (result : Except CacheError Cluster.CacheStatus)
  deriving DecidableEq

namespace CacheAttempt

variable {σ : Type}

/-- What looking for the claim comes to. -/
def ofLook : Except CacheError Bool → CacheAttempt
  | .ok true => done (.ok .reused)
  | .ok false => missed
  | .error e => done (.error e)

/-- What creating the claim comes to. -/
def ofCreation : Except CacheError Unit → CacheAttempt
  | .ok () => done (.ok .created)
  | .error e => done (.error e)

/-- The next call to the cluster, unless there is none left to make. -/
def advance (c : Cluster σ) (claim : Claim) : CacheAttempt → StateM σ CacheAttempt
  | waiting => do return ofLook (← (c.checkCache claim).run)
  | missed => do return ofCreation (← (c.createCache claim).run)
  | done result => return done result

variable {c : Cluster σ} {claim : Claim} {s s' : σ}

theorem advance_waiting {result : Except CacheError Bool}
    (h : (c.checkCache claim).run s = (result, s')) :
    waiting.advance c claim s = (ofLook result, s') := by
  rw [advance]
  simp only [bind, StateT.bind, h]
  rfl

theorem advance_missed {result : Except CacheError Unit}
    (h : (c.createCache claim).run s = (result, s')) :
    missed.advance c claim s = (ofCreation result, s') := by
  rw [advance]
  simp only [bind, StateT.bind, h]
  rfl

/-- **Seeing to a cache takes at most two calls**, and these are the two. -/
theorem ensure_eq_advance (c : Cluster σ) (claim : Claim) (s : σ) :
    let looked := waiting.advance c claim s
    let tried := looked.1.advance c claim looked.2
    tried = (done ((c.ensure claim).run s).1, ((c.ensure claim).run s).2) := by
  intro looked tried
  rcases hcheck : (c.checkCache claim).run s with ⟨e | there, s'⟩
  · have hlooked : looked = (done (.error e), s') := advance_waiting hcheck
    have hensure : (c.ensure claim).run s = (.error e, s') := Call.bind_of_error hcheck
    simp only [tried, hlooked, hensure]
    rfl
  · have hensure : (c.ensure claim).run s = _ := Call.bind_of_ok hcheck
    cases there with
    | true =>
      have hlooked : looked = (done (.ok .reused), s') := advance_waiting hcheck
      simp only [tried, hlooked, hensure]
      rfl
    | false =>
      have hlooked : looked = (missed, s') := advance_waiting hcheck
      rcases hcreate : (c.createCache claim).run s' with ⟨e | ⟨⟩, s''⟩
      · have hrest : (c.ensure claim).run s = (.error e, s'') :=
          hensure.trans (Call.bind_of_error hcreate)
        simp only [tried, hlooked, hrest, advance_missed hcreate, ofCreation]
      · have hrest : (c.ensure claim).run s = (.ok .created, s'') :=
          hensure.trans (Call.bind_of_ok hcreate)
        simp only [tried, hlooked, hrest, advance_missed hcreate, ofCreation]

/-- They have looked, and the claim was not there. -/
def isMissed : CacheAttempt → Bool
  | missed => true
  | _ => false

def isWaiting : CacheAttempt → Bool
  | waiting => true
  | _ => false

def isDone : CacheAttempt → Bool
  | done _ => true
  | _ => false

def hasCreated : CacheAttempt → Bool
  | done (.ok .created) => true
  | _ => false

def hasFailed : CacheAttempt → Bool
  | done (.error _) => true
  | _ => false

/-- They have looked in vain, whatever has become of them since. -/
def inVain : CacheAttempt → Bool
  | missed => true
  | done (.ok .created) => true
  | done (.error _) => true
  | _ => false

end CacheAttempt

/-! ### What the cluster promises -/

/-- The claim of a name can be looked for and created, each in one step, and is created exactly if there
is none. The states in which there is one are told apart from those in which there is none. -/
structure Cluster.Minds {σ : Type} (c : Cluster σ) (space name : String) (there missing : σ → Prop) :
    Prop where
  found : ∀ s, there s → ∃ claim s', (c.getClaim space name).run s = (.ok claim, s') ∧ there s'
  notFound : ∀ s, missing s →
    ∃ e s', (c.getClaim space name).run s = (.error e, s') ∧ e.isNotFound = true ∧ missing s'
  created : ∀ s, missing s → ∀ claim : Claim, claim.metadata.namespaceText = space →
    claim.name = name → ∃ s', (c.createClaim claim).run s = (.ok (), s') ∧ there s'
  refused : ∀ s, there s → ∀ claim : Claim, claim.metadata.namespaceText = space →
    claim.name = name → ∃ reason s', (c.createClaim claim).run s = (.error (.rejected reason), s') ∧
      there s'

theorem Cluster.Minds.not_missing {σ : Type} {c : Cluster σ} {space name : String}
    {there missing : σ → Prop} (hc : c.Minds space name there missing) {s : σ} (hthere : there s) :
    ¬ missing s := by
  intro hmissing
  obtain ⟨claim, s', hfound, -⟩ := hc.found s hthere
  obtain ⟨e, s'', hnone, -⟩ := hc.notFound s hmissing
  cases hfound.symm.trans hnone

namespace MemoryCluster

/-- Claims can be looked for, and whether there is one of the name is known. -/
def Knows (name : String) (there : Bool) (m : MemoryCluster) : Prop :=
  m.claimReadFailure = none ∧ m.claims.contains name = there

/-- A cluster in memory keeps the promise as long as claims can be looked for. -/
theorem minds (space name : String) : cluster.Minds space name (Knows name true) (Knows name false) where
  found m h := by
    obtain ⟨found, hfound⟩ := Option.isSome_iff_exists.1 h.2
    refine ⟨found, m, ?_, h⟩
    show (getClaim name).run m = _
    simp only [getClaim, run_call, h.1, hfound]
  notFound m h := by
    have habsent : m.claims.get? name = none := by simpa [Table.contains] using h.2
    refine ⟨.notFound Claim.kindName name, m, ?_, rfl, h⟩
    show (getClaim name).run m = _
    simp only [getClaim, run_call, h.1, habsent]
  created m h claim _ hname := by
    refine ⟨{ m.note ("claim:" ++ claim.name) with claims := m.claims.insert claim.name claim }, ?_,
      h.1, ?_⟩
    · show (createClaim claim).run m = _
      simp only [createClaim, run_call, hname, h.2]
      rfl
    · show ((m.claims.insert claim.name claim).get? name).isSome = true
      rw [Table.get?_insert, if_pos hname]
      rfl
  refused m h claim _ hname := by
    refine ⟨"claim '" ++ claim.name ++ "' already exists", m, ?_, h⟩
    show (createClaim claim).run m = _
    simp only [createClaim, run_call, hname, h.2]
    rfl

end MemoryCluster

namespace CacheAttempt

variable {σ : Type} {c : Cluster σ} {space name : String} {there missing : σ → Prop} {claim : Claim}
  {s : σ} (hc : c.Minds space name there missing) (hspace : claim.metadata.namespaceText = space)
  (hname : claim.name = name)

include hc hspace hname

/-- Whoever finds the claim uses it. -/
theorem advance_waiting_of_there (hs : there s) :
    ∃ s', waiting.advance c claim s = (done (.ok .reused), s') ∧ there s' := by
  subst hspace hname
  obtain ⟨found, s', hget, hs'⟩ := hc.found s hs
  have hcheck : (c.checkCache claim).run s = (.ok true, s') := Call.lift_run_bind hget
  exact ⟨s', advance_waiting hcheck, hs'⟩

theorem advance_waiting_of_missing (hs : missing s) :
    ∃ s', waiting.advance c claim s = (missed, s') ∧ missing s' := by
  subst hspace hname
  obtain ⟨e, s', hget, he, hs'⟩ := hc.notFound s hs
  have hcheck : (c.checkCache claim).run s = (.ok false, s') := by
    refine (Call.lift_run_bind hget).trans ?_
    show (if e.isNotFound = true then _ else _ : Call σ CacheError Bool).run s' = _
    rw [if_pos he]
    rfl
  exact ⟨s', advance_waiting hcheck, hs'⟩

/-- The first to create the claim succeeds. -/
theorem advance_missed_of_missing (hs : missing s) :
    ∃ s', missed.advance c claim s = (done (.ok .created), s') ∧ there s' := by
  obtain ⟨s', hcreate, hs'⟩ := hc.created s hs claim hspace hname
  exact ⟨s', advance_missed (Call.mapFault_of_ok hcreate), hs'⟩

/-- Whoever comes too late is refused, although the claim is there. -/
theorem advance_missed_of_there (hs : there s) : ∃ reason s',
    missed.advance c claim s = (done (.error (.create name (.rejected reason))), s') ∧ there s' := by
  obtain ⟨reason, s', hcreate, hs'⟩ := hc.refused s hs claim hspace hname
  refine ⟨reason, s', ?_, hs'⟩
  rw [← hname]
  exact advance_missed (Call.mapFault_of_error hcreate)

/-- Once the claim is there, nobody else looks in vain and nobody else creates it. -/
theorem advance_of_there (a : CacheAttempt) (hs : there s) : ∃ a' s', a.advance c claim s = (a', s') ∧
    there s' ∧ a'.inVain = a.inVain ∧ a'.hasCreated = a.hasCreated ∧
    ∀ e, a' = done (.error e) → a = a' ∨ ∃ reason, e = .create name (.rejected reason) := by
  cases a with
  | waiting =>
    obtain ⟨s', hadvance, hs'⟩ := advance_waiting_of_there hc hspace hname hs
    exact ⟨_, s', hadvance, hs', rfl, rfl, fun e he => by cases he⟩
  | missed =>
    obtain ⟨reason, s', hadvance, hs'⟩ := advance_missed_of_there hc hspace hname hs
    refine ⟨_, s', hadvance, hs', rfl, rfl, fun e he => .inr ⟨reason, ?_⟩⟩
    exact (Except.error.inj (done.inj he)).symm
  | done result => exact ⟨_, s, rfl, hs, rfl, rfl, fun e he => .inl rfl⟩

/-- As long as it is missing, whoever looks does so in vain, and the first to go on creates it. -/
theorem advance_of_missing {a : CacheAttempt} (ha : a.isDone = false) (hs : missing s) :
    (∃ s', a = waiting ∧ a.advance c claim s = (missed, s') ∧ missing s') ∨
      ∃ s', a = missed ∧ a.advance c claim s = (done (.ok .created), s') ∧ there s' := by
  cases a with
  | waiting =>
    obtain ⟨s', hadvance, hs'⟩ := advance_waiting_of_missing hc hspace hname hs
    exact .inl ⟨s', rfl, hadvance, hs'⟩
  | missed =>
    obtain ⟨s', hadvance, hs'⟩ := advance_missed_of_missing hc hspace hname hs
    exact .inr ⟨s', rfl, hadvance, hs'⟩
  | done result => cases ha

end CacheAttempt

/-! ### Taking turns -/

/-- Several that see to a cache, each with the claim that they would create. -/
structure Rivals (σ : Type) where
  state : σ
  attempts : List (Claim × CacheAttempt)

/-- What happens next: one of them makes a call, or something else happens to the cluster. -/
inductive Rivals.Move (σ : Type) where
  | turn (i : Nat)
  | other (f : σ → σ)

namespace Rivals

open CacheAttempt

variable {σ : Type}

/-- Nobody has made a call yet. -/
def fresh (s : σ) (claims : List Claim) : Rivals σ where
  state := s
  attempts := claims.map (·, .waiting)

def move (c : Cluster σ) (r : Rivals σ) : Move σ → Rivals σ
  | .turn i =>
    match r.attempts[i]? with
    | none => r
    | some (claim, a) =>
      let (a, state) := a.advance c claim r.state
      { state, attempts := r.attempts.set i (claim, a) }
  | .other f => { r with state := f r.state }

/-- The last of a course. -/
def final (c : Cluster σ) (r : Rivals σ) (moves : List (Move σ)) : Rivals σ :=
  moves.foldl (move c) r

/-- How it goes from one move to the next, from the beginning to the end. -/
def course (c : Cluster σ) (r : Rivals σ) : List (Move σ) → List (Rivals σ)
  | [] => [r]
  | m :: moves => r :: course c (r.move c m) moves

def Done (r : Rivals σ) : Prop :=
  ∀ a ∈ r.attempts, a.2.isDone = true

/-- Everybody has been given the cache. -/
def Served (r : Rivals σ) : Prop :=
  ∀ a ∈ r.attempts, ∃ status, a.2 = .done (.ok status)

def count (p : CacheAttempt → Bool) (r : Rivals σ) : Nat :=
  r.attempts.countP fun a => p a.2

/-- The claims that they would create have the name in question, and nobody fails but by being refused. -/
structure Regular (space name : String) (r : Rivals σ) : Prop where
  agreed : ∀ a ∈ r.attempts, a.1.metadata.namespaceText = space ∧ a.1.name = name
  refused : ∀ a ∈ r.attempts, ∀ e, a.2 = .done (.error e) → ∃ reason, e = .create name (.rejected reason)

/-- Nobody has come to an end yet. -/
def Idle (r : Rivals σ) : Prop :=
  ∀ a ∈ r.attempts, a.2.isDone = false

/-- What else happens leaves the claim alone. -/
def Move.LeavesAlone (there missing : σ → Prop) : Move σ → Prop
  | .turn _ => True
  | .other f => (∀ s, there s → there (f s)) ∧ ∀ s, missing s → missing (f s)

/-- Those that have looked in vain are still about to create the claim, or they have come to an end. -/
theorem count_inVain (r : Rivals σ) :
    r.count inVain = r.count isMissed + r.count hasCreated + r.count hasFailed := by
  obtain ⟨state, attempts⟩ := r
  simp only [count]
  induction attempts with
  | nil => rfl
  | cons a attempts ih =>
    have hone : (if inVain a.2 = true then 1 else 0) = (if isMissed a.2 = true then 1 else 0) +
        (if hasCreated a.2 = true then 1 else 0) + if hasFailed a.2 = true then 1 else 0 := by
      rcases a.2 with _ | _ | e | _ | _ <;> rfl
    rw [List.countP_cons, List.countP_cons, List.countP_cons, List.countP_cons, ih, hone]
    omega

theorem Idle.count_eq_zero {r : Rivals σ} (h : r.Idle) {p : CacheAttempt → Bool}
    (hp : ∀ a, p a = true → a.isDone = true) : r.count p = 0 := by
  refine List.countP_eq_zero.2 fun a ha hpa => ?_
  have hdone := hp a.2 hpa
  rw [h a ha] at hdone
  cases hdone

theorem isDone_of_hasCreated (a : CacheAttempt) (h : a.hasCreated = true) : a.isDone = true := by
  rcases a with _ | _ | _ | _ | _ <;> first | rfl | cases h

theorem isDone_of_hasFailed (a : CacheAttempt) (h : a.hasFailed = true) : a.isDone = true := by
  rcases a with _ | _ | _ | _ | _ <;> first | rfl | cases h

/-- As long as nobody has come to an end, all that have looked in vain are about to create the claim. -/
theorem Idle.count_inVain {r : Rivals σ} (h : r.Idle) : r.count inVain = r.count isMissed := by
  rw [Rivals.count_inVain, h.count_eq_zero isDone_of_hasCreated, h.count_eq_zero isDone_of_hasFailed,
    Nat.add_zero]

section Turn

variable {c : Cluster σ} {r : Rivals σ} {i : Nat} {claim : Claim} {a a' : CacheAttempt} {state : σ}

theorem move_turn (hi : r.attempts[i]? = some (claim, a))
    (hadvance : a.advance c claim r.state = (a', state)) :
    r.move c (.turn i) = { state, attempts := r.attempts.set i (claim, a') } := by
  simp only [move, hi, hadvance]

theorem move_turn_of_none (hi : r.attempts[i]? = none) : r.move c (.turn i) = r := by
  simp only [move, hi]

/-- A turn replaces one attempt in all that is counted. -/
theorem count_set (hi : r.attempts[i]? = some (claim, a)) (a' : CacheAttempt) (state : σ)
    (p : CacheAttempt → Bool) :
    ({ state, attempts := r.attempts.set i (claim, a') } : Rivals σ).count p + (p a).toNat =
      r.count p + (p a').toNat := by
  obtain ⟨hlt, hget⟩ := List.getElem?_eq_some_iff.1 hi
  have hset := List.countP_set (p := fun a => p a.2) (a := (claim, a')) hlt
  have hpos : p a = true → 0 < r.attempts.countP fun a => p a.2 :=
    fun hp => List.countP_pos_iff.2 ⟨(claim, a), List.mem_of_getElem? hi, hp⟩
  simp only [hget] at hset
  simp only [count, hset]
  cases hp : p a with
  | false => cases hp' : p a' <;> simp
  | true =>
    have hone := hpos hp
    cases hp' : p a' <;> simp <;> omega

/-- A turn that fails in no other way than by being refused leaves everything regular. -/
theorem Regular.set {space name : String} (hr : r.Regular space name)
    (hi : r.attempts[i]? = some (claim, a)) (state : σ)
    (ha' : ∀ e, a' = .done (.error e) → ∃ reason, e = .create name (.rejected reason)) :
    Regular space name { state, attempts := r.attempts.set i (claim, a') } where
  agreed b hb := by
    rcases List.mem_or_eq_of_mem_set hb with hb | rfl
    · exact hr.agreed b hb
    · exact hr.agreed (claim, a) (List.mem_of_getElem? hi)
  refused b hb e he := by
    rcases List.mem_or_eq_of_mem_set hb with hb | rfl
    · exact hr.refused b hb e he
    · exact ha' e he

end Turn

/-! ### One move -/

section Move

variable {c : Cluster σ} {space name : String} {there missing : σ → Prop} {r : Rivals σ} {m : Move σ}
  (hc : c.Minds space name there missing) (hm : m.LeavesAlone there missing)

include hc hm

/-- Once the claim is there, it stays, and those that have looked in vain stay the same. -/
theorem move_of_there (hr : r.Regular space name) (hs : there r.state) :
    (r.move c m).Regular space name ∧ there (r.move c m).state ∧
      (r.move c m).count inVain = r.count inVain ∧
      (r.move c m).count hasCreated = r.count hasCreated := by
  cases m with
  | other f => exact ⟨⟨hr.agreed, hr.refused⟩, hm.1 _ hs, rfl, rfl⟩
  | turn i =>
    cases hi : r.attempts[i]? with
    | none =>
      rw [move_turn_of_none hi]
      exact ⟨hr, hs, rfl, rfl⟩
    | some x =>
      obtain ⟨claim, a⟩ := x
      have hmem := List.mem_of_getElem? hi
      have hagreed := hr.agreed _ hmem
      obtain ⟨a', s', hadvance, hs', hvain, hcreated, hrefused⟩ :=
        advance_of_there hc hagreed.1 hagreed.2 a hs
      rw [move_turn hi hadvance]
      refine ⟨hr.set hi s' fun e he => ?_, hs', ?_, ?_⟩
      · rcases hrefused e he with rfl | hreason
        · exact hr.refused _ hmem e he
        · exact hreason
      · have hcount := count_set hi a' s' inVain
        rw [hvain] at hcount
        omega
      · have hcount := count_set hi a' s' hasCreated
        rw [hcreated] at hcount
        omega

/-- As long as it is missing, those that have looked in vain become more, up to the move that creates the
claim. -/
theorem move_of_missing (hr : r.Regular space name) (hidle : r.Idle) (hs : missing r.state) :
    (r.move c m).Regular space name ∧
      ((missing (r.move c m).state ∧ (r.move c m).Idle ∧
          r.count inVain ≤ (r.move c m).count inVain) ∨
        (there (r.move c m).state ∧ (r.move c m).count hasCreated = 1 ∧
          (r.move c m).count inVain = r.count inVain)) := by
  cases m with
  | other f =>
    exact ⟨⟨hr.agreed, hr.refused⟩, .inl ⟨hm.2 _ hs, hidle, Nat.le_refl _⟩⟩
  | turn i =>
    cases hi : r.attempts[i]? with
    | none =>
      rw [move_turn_of_none hi]
      exact ⟨hr, .inl ⟨hs, hidle, Nat.le_refl _⟩⟩
    | some x =>
      obtain ⟨claim, a⟩ := x
      have hmem := List.mem_of_getElem? hi
      have hagreed := hr.agreed _ hmem
      rcases advance_of_missing hc hagreed.1 hagreed.2 (hidle _ hmem) hs with
        ⟨s', rfl, hadvance, hs'⟩ | ⟨s', rfl, hadvance, hs'⟩
      · rw [move_turn hi hadvance]
        refine ⟨hr.set hi s' (fun e he => by cases he), .inl ⟨hs', fun b hb => ?_, ?_⟩⟩
        · rcases List.mem_or_eq_of_mem_set hb with hb | rfl
          · exact hidle b hb
          · rfl
        · have hcount : _ + 0 = _ + 1 := count_set hi missed s' inVain
          omega
      · rw [move_turn hi hadvance]
        refine ⟨hr.set hi s' (fun e he => by cases he), .inr ⟨hs', ?_, ?_⟩⟩
        · have hcount : _ + 0 = _ + 1 := count_set hi (.done (.ok .created)) s' hasCreated
          rw [hidle.count_eq_zero isDone_of_hasCreated] at hcount
          omega
        · have hcount : _ + 1 = _ + 1 := count_set hi (.done (.ok .created)) s' inVain
          omega

end Move

/-! ### Any number of moves -/

section Course

variable {c : Cluster σ} {space name : String} {there missing : σ → Prop} {r : Rivals σ}
  {moves : List (Move σ)} (hc : c.Minds space name there missing)
  (hmoves : ∀ m ∈ moves, m.LeavesAlone there missing)

include hc hmoves

/-- Once the claim is there, the number of those that have looked in vain has been settled. -/
theorem course_of_there (hr : r.Regular space name) (hs : there r.state) :
    (final c r moves).Regular space name ∧ there (final c r moves).state ∧
      (final c r moves).count inVain = r.count inVain ∧
      (final c r moves).count hasCreated = r.count hasCreated ∧
      ∀ q ∈ course c r moves, q.count isMissed ≤ r.count inVain := by
  have hfirst : r.count isMissed ≤ r.count inVain := by
    rw [count_inVain]
    omega
  induction moves generalizing r with
  | nil =>
    refine ⟨hr, hs, rfl, rfl, fun q hq => ?_⟩
    obtain rfl := List.mem_singleton.1 hq
    exact hfirst
  | cons m moves ih =>
    obtain ⟨hr', hs', hvain, hcreated⟩ := move_of_there hc (hmoves m List.mem_cons_self) hr hs
    have hfirst' : (r.move c m).count isMissed ≤ (r.move c m).count inVain := by
      rw [count_inVain]
      omega
    obtain ⟨hlast, hthere, hlastVain, hlastCreated, hcourse⟩ :=
      ih (fun m' hm' => hmoves m' (List.mem_cons_of_mem m hm')) hr' hs' hfirst'
    refine ⟨hlast, hthere, hlastVain.trans hvain, hlastCreated.trans hcreated, fun q hq => ?_⟩
    rcases List.mem_cons.1 hq with rfl | hq
    · exact hfirst
    · exact hvain ▸ hcourse q hq

/-- **As long as the claim is missing everybody looks in vain.** Once someone has created it, all that
have done so by then were about to create it at one time. -/
theorem course_of_missing (hr : r.Regular space name) (hidle : r.Idle) (hs : missing r.state) :
    (final c r moves).Regular space name ∧
      r.count inVain ≤ (final c r moves).count inVain ∧
      (∀ q ∈ course c r moves, q.count isMissed ≤ (final c r moves).count inVain) ∧
      ((missing (final c r moves).state ∧ (final c r moves).Idle) ∨
        (there (final c r moves).state ∧ (final c r moves).count hasCreated = 1 ∧
          ∃ q ∈ course c r moves, q.count isMissed = (final c r moves).count inVain)) := by
  induction moves generalizing r with
  | nil =>
    refine ⟨hr, Nat.le_refl _, fun q hq => ?_, .inl ⟨hs, hidle⟩⟩
    obtain rfl := List.mem_singleton.1 hq
    exact Nat.le_of_eq hidle.count_inVain.symm
  | cons m moves ih =>
    have hrest : ∀ m' ∈ moves, m'.LeavesAlone there missing :=
      fun m' hm' => hmoves m' (List.mem_cons_of_mem m hm')
    obtain ⟨hr', ⟨hs', hidle', hle⟩ | ⟨hs', hcreated, hvain⟩⟩ :=
      move_of_missing hc (hmoves m List.mem_cons_self) hr hidle hs
    · obtain ⟨hlast, hle', hcourse, hend⟩ := ih hrest hr' hidle' hs'
      refine ⟨hlast, Nat.le_trans hle hle', fun q hq => ?_, hend.imp_right ?_⟩
      · rcases List.mem_cons.1 hq with rfl | hq
        · exact hidle.count_inVain ▸ Nat.le_trans hle hle'
        · exact hcourse q hq
      · rintro ⟨hthere, hone, q, hq, hcount⟩
        exact ⟨hthere, hone, q, List.mem_cons_of_mem r hq, hcount⟩
    · -- this is the move that creates the claim
      obtain ⟨hlast, hthere, hlastVain, hlastCreated, hcourse⟩ := course_of_there hc hrest hr' hs'
      have hsame : (final c r (m :: moves)).count inVain = r.count inVain := hlastVain.trans hvain
      refine ⟨hlast, Nat.le_of_eq hsame.symm, fun q hq => ?_, .inr ⟨hthere, ?_, r, List.mem_cons_self, ?_⟩⟩
      · rw [hsame]
        rcases List.mem_cons.1 hq with rfl | hq
        · exact Nat.le_of_eq hidle.count_inVain.symm
        · exact hvain ▸ hcourse q hq
      · exact hlastCreated.trans hcreated
      · exact hidle.count_inVain.symm.trans hsame.symm

end Course

/-! ### Coming to an end -/

section Done

variable {c : Cluster σ} {r : Rivals σ}

/-- How many calls are left to make at most. -/
def work (r : Rivals σ) : Nat :=
  2 * r.count isWaiting + r.count isMissed

theorem work_move_turn {i : Nat} {claim : Claim} {a : CacheAttempt}
    (hi : r.attempts[i]? = some (claim, a)) (ha : a.isDone = false) :
    (r.move c (.turn i)).work < r.work := by
  rcases hadvance : a.advance c claim r.state with ⟨a', s'⟩
  rw [move_turn hi hadvance]
  have hwaiting := count_set hi a' s' isWaiting
  have hmissed := count_set hi a' s' isMissed
  have hless : 2 * (isWaiting a').toNat + (isMissed a').toNat <
      2 * (isWaiting a).toNat + (isMissed a).toNat := by
    cases a with
    | done result => cases ha
    | waiting =>
      rcases hcheck : (c.checkCache claim).run r.state with ⟨result, s''⟩
      cases (advance_waiting hcheck).symm.trans hadvance
      rcases result with e | _ | _ <;> simp [ofLook, isWaiting, isMissed]
    | missed =>
      rcases hcreate : (c.createCache claim).run r.state with ⟨result, s''⟩
      cases (advance_missed hcreate).symm.trans hadvance
      rcases result with e | _ <;> simp [ofCreation, isWaiting, isMissed]
  unfold work
  omega

/-- **Nobody is kept waiting for ever**: however far all of them have got, there are turns that bring them
to an end. -/
theorem exists_final_done (c : Cluster σ) (r : Rivals σ) :
    ∃ turns : List Nat, (r.final c (turns.map .turn)).Done := by
  induction hwork : r.work using Nat.strong_induction_on generalizing r with
  | _ n ih =>
    by_cases hdone : r.Done
    · exact ⟨[], hdone⟩
    · obtain ⟨⟨claim, a⟩, hmem, ha⟩ : ∃ a ∈ r.attempts, a.2.isDone = false := by
        simpa [Done] using hdone
      obtain ⟨i, hi⟩ := List.getElem?_of_mem hmem
      obtain ⟨turns, hturns⟩ := ih _ (hwork ▸ work_move_turn (c := c) hi ha) _ rfl
      exact ⟨i :: turns, hturns⟩

theorem Done.count_isMissed (h : r.Done) : r.count isMissed = 0 := by
  refine List.countP_eq_zero.2 fun a ha hmissed => ?_
  have hdone := h a ha
  generalize a.2 = attempt at hmissed hdone
  cases attempt with
  | missed => cases hdone
  | waiting => cases hmissed
  | done result => cases hmissed

/-- Whoever is not served has failed. -/
theorem Done.served_iff (h : r.Done) : r.Served ↔ r.count hasFailed = 0 := by
  rw [count, List.countP_eq_zero]
  refine forall₂_congr fun a ha => ?_
  have hdone := h a ha
  generalize a.2 = attempt at hdone
  rcases attempt with _ | _ | e | status
  · cases hdone
  · cases hdone
  · exact iff_of_false (fun ⟨status, hstatus⟩ => by cases hstatus) fun hfailed => hfailed rfl
  · exact iff_of_true ⟨status, rfl⟩ fun hfailed => by cases hfailed

theorem map_fst_move (m : Move σ) : (r.move c m).attempts.map (·.1) = r.attempts.map (·.1) := by
  cases m with
  | other f => rfl
  | turn i =>
    cases hi : r.attempts[i]? with
    | none => rw [move_turn_of_none hi]
    | some x =>
      obtain ⟨claim, a⟩ := x
      rw [move_turn hi rfl]
      obtain ⟨hlt, hget⟩ := List.getElem?_eq_some_iff.1 hi
      have hlt' : i < (r.attempts.map (·.1)).length := by rwa [List.length_map]
      have hsame : (r.attempts.map (·.1))[i] = claim := by rw [List.getElem_map, hget]
      rw [List.map_set, ← hsame, List.set_getElem_self]

theorem map_fst_final (moves : List (Move σ)) :
    (r.final c moves).attempts.map (·.1) = r.attempts.map (·.1) := by
  induction moves generalizing r with
  | nil => rfl
  | cons m moves ih => exact ih.trans (map_fst_move m)

end Done

/-! ### What becomes of them -/

/-- What has become of all that have seen to a cache, once they have come to an end. -/
structure Outcome (c : Cluster σ) (name : String) (there missing : σ → Prop) (s : σ)
    (claims : List Claim) (moves : List (Move σ)) : Prop where
  /-- The claim is there. -/
  state : claims ≠ [] → there ((fresh s claims).final c moves).state
  /-- If it has been there from the beginning, everybody uses it. -/
  reused : there s → ∀ a ∈ ((fresh s claims).final c moves).attempts, a.2 = .done (.ok .reused)
  /-- Otherwise one of them has created it. -/
  created : missing s → claims ≠ [] → ((fresh s claims).final c moves).count hasCreated = 1
  /-- Nobody has failed but by being refused the claim when they came to create it. -/
  refused : ∀ a ∈ ((fresh s claims).final c moves).attempts, ∀ e, a.2 = .done (.error e) →
    ∃ reason, e = .create name (.rejected reason)
  /-- All are served if there were never two at once that had looked in vain and not gone on yet. -/
  served_iff : ((fresh s claims).final c moves).Served ↔
    ∀ q ∈ (fresh s claims).course c moves, q.count isMissed ≤ 1

section Outcome

variable {c : Cluster σ} {space name : String} {there missing : σ → Prop} {s : σ}
  {claims : List Claim} {moves : List (Move σ)}

theorem regular_fresh (s : σ)
    (h : ∀ claim ∈ claims, claim.metadata.namespaceText = space ∧ claim.name = name) :
    (fresh s claims).Regular space name where
  agreed a ha := by
    obtain ⟨claim, hclaim, rfl⟩ := List.mem_map.1 ha
    exact h claim hclaim
  refused a ha e he := by
    obtain ⟨claim, -, rfl⟩ := List.mem_map.1 ha
    cases he

theorem idle_fresh (s : σ) (claims : List Claim) : (fresh s claims).Idle := by
  intro a ha
  obtain ⟨claim, -, rfl⟩ := List.mem_map.1 ha
  rfl

theorem count_isMissed_fresh (s : σ) (claims : List Claim) : (fresh s claims).count isMissed = 0 := by
  refine List.countP_eq_zero.2 fun a ha hmissed => ?_
  obtain ⟨claim, -, rfl⟩ := List.mem_map.1 ha
  cases hmissed

theorem eq_nil_of_done_of_idle {r : Rivals σ} (hdone : r.Done) (hidle : r.Idle) : r.attempts = [] := by
  refine List.eq_nil_iff_forall_not_mem.2 fun a ha => ?_
  have hboth := hdone a ha
  rw [hidle a ha] at hboth
  cases hboth

/-- If the claim has been there from the beginning, nobody looks in vain. -/
theorem outcome_of_there (hc : c.Minds space name there missing)
    (hclaims : ∀ claim ∈ claims, claim.metadata.namespaceText = space ∧ claim.name = name)
    (hmoves : ∀ m ∈ moves, m.LeavesAlone there missing) (hs : there s)
    (hdone : ((fresh s claims).final c moves).Done) : Outcome c name there missing s claims moves := by
  obtain ⟨hlast, hthere, hvain, -, hcourse⟩ :=
    course_of_there hc hmoves (regular_fresh s hclaims) hs
  have hnone : (fresh s claims).count inVain = 0 :=
    (idle_fresh s claims).count_inVain.trans (count_isMissed_fresh s claims)
  rw [hnone] at hvain hcourse
  have hreused : ∀ a ∈ ((fresh s claims).final c moves).attempts, a.2 = .done (.ok .reused) := by
    intro a ha
    have hfinished := hdone a ha
    have hnot := List.countP_eq_zero.1 hvain a ha
    generalize a.2 = attempt at hfinished hnot
    rcases attempt with _ | _ | e | _ | _
    · cases hfinished
    · cases hfinished
    · exact absurd rfl hnot
    · rfl
    · exact absurd rfl hnot
  exact {
    state := fun _ => hthere
    reused := fun _ => hreused
    created := fun hmissing => absurd hmissing (hc.not_missing hs)
    refused := hlast.refused
    served_iff := iff_of_true (fun a ha => ⟨.reused, hreused a ha⟩)
      fun q hq => Nat.le_trans (hcourse q hq) Nat.one_pos.le }

/-- If it has not, the one that creates it is among those that have looked in vain by then, and all others
of them are refused. -/
theorem outcome_of_missing (hc : c.Minds space name there missing)
    (hclaims : ∀ claim ∈ claims, claim.metadata.namespaceText = space ∧ claim.name = name)
    (hmoves : ∀ m ∈ moves, m.LeavesAlone there missing) (hs : missing s)
    (hdone : ((fresh s claims).final c moves).Done) : Outcome c name there missing s claims moves := by
  obtain ⟨hlast, -, hcourse, hend⟩ :=
    course_of_missing hc hmoves (regular_fresh s hclaims) (idle_fresh s claims) hs
  have hnotThere : ∀ h : there s, False := fun h => hc.not_missing h hs
  have hcount := count_inVain ((fresh s claims).final c moves)
  rw [hdone.count_isMissed, Nat.zero_add] at hcount
  rcases hend with ⟨-, hidle⟩ | ⟨hthere, hone, q, hq, hall⟩
  · -- nobody was there at all
    have hempty := eq_nil_of_done_of_idle hdone hidle
    have hclaimsEmpty : claims = [] := by
      have hmap := map_fst_final (c := c) (r := fresh s claims) moves
      rw [hempty] at hmap
      simpa [fresh] using hmap.symm
    have hvain : ((fresh s claims).final c moves).count inVain = 0 := by
      rw [count, hempty]
      rfl
    exact {
      state := fun hne => absurd hclaimsEmpty hne
      reused := fun h => (hnotThere h).elim
      created := fun _ hne => absurd hclaimsEmpty hne
      refused := hlast.refused
      served_iff := iff_of_true (fun a ha => absurd (hempty ▸ ha) List.not_mem_nil)
        fun q hq => Nat.le_trans (hvain ▸ hcourse q hq) Nat.one_pos.le }
  · exact {
      state := fun _ => hthere
      reused := fun h => (hnotThere h).elim
      created := fun _ _ => hone
      refused := hlast.refused
      served_iff := by
        rw [hdone.served_iff]
        constructor
        · intro hfailed q' hq'
          have hle := hcourse q' hq'
          omega
        · intro hle
          have hq' := hle q hq
          omega }

/-- **Any number of rivals, in any order**: they all come to an end if they are given turns, and when they
have, the claim is there and one of them at most has created it. All of them are served exactly if no two
have been about to create it at once. -/
theorem outcome_of_rivals (hc : c.Minds space name there missing)
    (hclaims : ∀ claim ∈ claims, claim.metadata.namespaceText = space ∧ claim.name = name)
    (hs : there s ∨ missing s) (hmoves : ∀ m ∈ moves, m.LeavesAlone there missing) :
    (∃ turns : List Nat, ((fresh s claims).final c (moves ++ turns.map .turn)).Done) ∧
    ((fresh s claims).final c moves).attempts.map (·.1) = claims ∧
    (((fresh s claims).final c moves).Done → Outcome c name there missing s claims moves) := by
  refine ⟨?_, ?_, fun hdone => ?_⟩
  · obtain ⟨turns, hturns⟩ := exists_final_done c ((fresh s claims).final c moves)
    refine ⟨turns, ?_⟩
    rw [final, List.foldl_append]
    exact hturns
  · rw [map_fst_final, fresh, List.map_map]
    exact List.map_id claims
  · rcases hs with hs | hs
    · exact outcome_of_there hc hclaims hmoves hs hdone
    · exact outcome_of_missing hc hclaims hmoves hs hdone

end Outcome

/-! ### Two jobs with one cache -/

/-- The cache of a job. -/
def buildCache : Claim :=
  sharedClaim "org-repo-build" "ci" "1Gi" none {}

/-- Two that want it, in a cluster in which it is not there. -/
def couple : Rivals MemoryCluster :=
  fresh .succeeding [buildCache, buildCache]

/-- If one comes after the other, both are served. -/
theorem outcome_in_order :
    Outcome MemoryCluster.cluster "org-repo-build" (MemoryCluster.Knows "org-repo-build" true)
      (MemoryCluster.Knows "org-repo-build" false) .succeeding [buildCache, buildCache]
      [.turn 0, .turn 0, .turn 1] ∧
    (couple.final MemoryCluster.cluster [.turn 0, .turn 0, .turn 1]).attempts.map (·.2) =
      [.done (.ok .created), .done (.ok .reused)] := by
  have hclaims : ∀ claim ∈ [buildCache, buildCache],
      claim.metadata.namespaceText = "ci" ∧ claim.name = "org-repo-build" := by
    intro claim hclaim
    obtain rfl : claim = buildCache := by simpa using hclaim
    exact ⟨rfl, rfl⟩
  have hresults : (couple.final MemoryCluster.cluster [.turn 0, .turn 0, .turn 1]).attempts.map (·.2) =
      [.done (.ok .created), .done (.ok .reused)] := by decide +kernel
  have hdone : (couple.final MemoryCluster.cluster [.turn 0, .turn 0, .turn 1]).Done := by
    intro a ha
    have hmem := List.mem_map_of_mem (f := (·.2)) ha
    rw [hresults] at hmem
    rcases List.mem_pair.1 hmem with h | h <;> exact h ▸ rfl
  exact ⟨(outcome_of_rivals (MemoryCluster.minds "ci" "org-repo-build") hclaims (.inr ⟨rfl, rfl⟩)
    (by simp [Move.LeavesAlone])).2.2 hdone, hresults⟩

/-- If both look before either goes on, one of them is refused. -/
theorem not_served_at_once :
    (couple.final MemoryCluster.cluster [.turn 0, .turn 1, .turn 0, .turn 1]).attempts.map (·.2) =
      [.done (.ok .created), .done (.error (.create "org-repo-build"
        (.rejected "claim 'org-repo-build' already exists")))] ∧
    ¬ (couple.final MemoryCluster.cluster [.turn 0, .turn 1, .turn 0, .turn 1]).Served := by
  have hresults : (couple.final MemoryCluster.cluster
      [.turn 0, .turn 1, .turn 0, .turn 1]).attempts.map (·.2) =
      [.done (.ok .created), .done (.error (.create "org-repo-build"
        (.rejected "claim 'org-repo-build' already exists")))] := by decide +kernel
  refine ⟨hresults, fun hserved => ?_⟩
  have hmem : CacheAttempt.done (.error (.create "org-repo-build"
      (.rejected "claim 'org-repo-build' already exists"))) ∈
      (couple.final MemoryCluster.cluster [.turn 0, .turn 1, .turn 0, .turn 1]).attempts.map (·.2) := by
    rw [hresults]
    exact List.mem_cons_of_mem _ List.mem_cons_self
  obtain ⟨a, ha, heq⟩ := List.mem_map.1 hmem
  obtain ⟨status, hstatus⟩ := hserved a ha
  cases heq.symm.trans hstatus

end Rivals

end EventWorker
