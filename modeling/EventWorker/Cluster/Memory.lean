import EventWorker.Cluster

/-!
# The cluster in memory

A cluster that keeps its resources and does nothing with them. What becomes of a unit is scripted by
the unit's name: the phases that readings find, one after another until only the last is left, and the
feeds of its subscriptions. A unit without a script is in one phase all the time. Failures can be
switched on, and every change is noted in the list of operations. Dry runs use such a cluster.
-/

namespace EventWorker

open Resource

/-- An item of a scripted feed. -/
inductive FeedItem where
  | phase (p : Phase)
  | fault (reason : String)
  /-- The feed stays open without another item. -/
  | hold

/-- The feed that items make up to the first one that holds it. -/
def Feed.ofItems : List FeedItem → Feed
  | [] => {}
  | .hold :: _ => { held := true }
  | .phase p :: items =>
    let rest := ofItems items
    { rest with items := (0, .ok p) :: rest.items }
  | .fault reason :: items =>
    let rest := ofItems items
    { rest with items := (0, .error (.stream reason)) :: rest.items }

structure MemoryCluster where
  secrets : Table Secret := {}
  pods : Table Pod := {}
  claims : Table Claim := {}
  projects : Table Project := {}
  phases : Table (List Phase) := {}
  defaultPhase : Option Phase := none
  feeds : Table (List (List FeedItem)) := {}
  logs : Table String := {}
  operations : List String := []
  phaseReads : Nat := 0
  subscriptions : Nat := 0
  claimDeletes : Nat := 0
  claimReadFailure : Option String := none
  podRejection : Option String := none
  claimDeleteFailure : Option String := none
  deriving Inhabited

namespace MemoryCluster

/-- A cluster in which every unit succeeds at once. -/
def succeeding : MemoryCluster :=
  { defaultPhase := some .succeeded }

/-- The phase of a unit without a script. -/
def usualPhase (m : MemoryCluster) : Phase :=
  m.defaultPhase.getD .pending

/-! ## Setting it up -/

def scriptPhases (m : MemoryCluster) (name : String) (phases : List Phase) : MemoryCluster :=
  { m with phases := m.phases.insert name phases }

/-- Adds a feed behind those that are scripted already. -/
def scriptFeed (m : MemoryCluster) (name : String) (items : List FeedItem) : MemoryCluster :=
  { m with feeds := m.feeds.insert name ((m.feeds.get? name).getD [] ++ [items]) }

def setLogs (m : MemoryCluster) (name logs : String) : MemoryCluster :=
  { m with logs := m.logs.insert name logs }

def addProject (m : MemoryCluster) (p : Project) : MemoryCluster :=
  { m with projects := m.projects.insert p.id p }

def addClaim (m : MemoryCluster) (c : Claim) : MemoryCluster :=
  { m with claims := m.claims.insert c.name c }

/-! ## Calls -/

def note (m : MemoryCluster) (operation : String) : MemoryCluster :=
  { m with operations := m.operations ++ [operation] }

/-- A call that a function of the state answers. -/
def call {α : Type} (f : MemoryCluster → Except ClusterError α × MemoryCluster) :
    Call MemoryCluster ClusterError α :=
  ExceptT.mk f

def createSecret (s : Secret) : Call MemoryCluster ClusterError Unit :=
  call fun m =>
    let name := s.metadata.nameText
    (.ok (), { m.note ("secret:" ++ name) with secrets := m.secrets.insert name s })

def createPod (p : Pod) : Call MemoryCluster ClusterError Unit :=
  call fun m =>
    match m.podRejection with
    | some reason => (.error (.rejected reason), m)
    | none =>
      let name := p.metadata.nameText
      (.ok (), { m.note ("pod:" ++ name) with pods := m.pods.insert name p })

def getClaim (name : String) : Call MemoryCluster ClusterError Claim :=
  call fun m =>
    match m.claimReadFailure with
    | some reason => (.error (.request reason), m)
    | none =>
      match m.claims.get? name with
      | some c => (.ok c, m)
      | none => (.error (.notFound Claim.kindName name), m)

def createClaim (c : Claim) : Call MemoryCluster ClusterError Unit :=
  call fun m =>
    if m.claims.contains c.name then
      (.error (.rejected ("claim '" ++ c.name ++ "' already exists")), m)
    else (.ok (), { m.note ("claim:" ++ c.name) with claims := m.claims.insert c.name c })

def deleteClaim (name : String) : Call MemoryCluster ClusterError Unit :=
  call fun m =>
    let m := { m with claimDeletes := m.claimDeletes + 1 }
    match m.claimDeleteFailure with
    | some reason => (.error (.request reason), m)
    | none =>
      let m := m.note ("delete-claim:" ++ name)
      if m.claims.contains name then (.ok (), { m with claims := m.claims.erase name })
      else (.error (.notFound Claim.kindName name), m)

def readPhase (u : UnitRef) : Call MemoryCluster ClusterError (Option Phase) :=
  call fun m =>
    let m := { m with phaseReads := m.phaseReads + 1 }
    match m.phases.get? u.name with
    | some (p :: q :: rest) => (.ok (some p), { m with phases := m.phases.insert u.name (q :: rest) })
    | some phases => (.ok phases.head?, m)
    | none => (.ok (if m.pods.contains u.name then some m.usualPhase else none), m)

def subscribe (u : UnitRef) : Call MemoryCluster ClusterError Feed :=
  call fun m =>
    let m := { m with subscriptions := m.subscriptions + 1 }
    match m.feeds.get? u.name with
    | some (items :: rest) => (.ok (.ofItems items), { m with feeds := m.feeds.insert u.name rest })
    | _ => (.ok (.ofItems [.phase m.usualPhase]), m)

def readLogs (u : UnitRef) : Call MemoryCluster ClusterError String :=
  call fun m => (.ok ((m.logs.get? u.name).getD ""), m)

/-- The project of an identifier. -/
def loadProject (id : String) : Call MemoryCluster ClusterError Project :=
  call fun m =>
    match m.projects.get? id with
    | some p => (.ok p, m)
    | none => (.error (.notFound "Project" id), m)

/-- The calls of the cluster in memory. It knows no namespaces. -/
def cluster : Cluster MemoryCluster where
  createSecret := createSecret
  createPod := createPod
  getClaim _ := getClaim
  createClaim := createClaim
  deleteClaim _ := deleteClaim
  readPhase := readPhase
  subscribe := subscribe
  readLogs := readLogs
  operations := MemoryCluster.operations

end MemoryCluster

end EventWorker
