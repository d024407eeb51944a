import EventWorker.Proofs.Cluster.Memory
import EventWorker.Proofs.Http.Target
import EventWorker.Proofs.Job.Name
import EventWorker.WorkerApi

/-!
# Whom the worker API is asked about

Every request to the worker API is about one event, and its address is to name it: after the base come
`v2`, `events`, the event's id and the labels of what is to be done. The id is put there as it is. So the
address names the event only if nothing of the id means something else in an address (`IsPiece`). And
before the request is sent the address is normalised, so what the host is asked for names the event only
if besides nothing of the id is lost by that (`IsKept`). Requests for two events with such ids are never
for one resource.

Main statement: `addressed_iff`.
-/

namespace EventWorker

namespace WorkerApi

open Url

variable {σ : Type}

/-! ### Operations -/

/-- What the API can be asked to do. -/
inductive Operation where
  | create (eventId : String) (job : Job)
  | watch (u : UnitRef)
  | logs (u : UnitRef)

namespace Operation

def eventId : Operation → String
  | create eventId _ => eventId
  | watch u => u.eventId
  | logs u => u.eventId

def jobName : Operation → String
  | create _ job => job.name
  | watch u => u.job
  | logs u => u.job

/-- What comes after the event in the path. -/
def tail : Operation → List String
  | create _ _ => ["worker", "jobs"]
  | watch u => ["worker", "jobs", u.job, "status"]
  | logs _ => ["logs"]

def query : Operation → Option String
  | create _ _ => none
  | watch _ => some "watch=true"
  | logs u => some ("job=" ++ u.job ++ "&container=" ++ u.job ++ "&follow=false")

/-- The resource of the operation, given the path of all events. -/
def address (op : Operation) (events : List (List UInt8)) : Address where
  path := events ++ (op.eventId :: op.tail).map Text.bytesOf
  query := op.query
  fragment := none

def url (op : Operation) (api : WorkerApi σ) : String :=
  match op with
  | create eventId _ => api.jobsUrl eventId
  | watch u => api.statusUrl u
  | logs u => api.logsUrl u

def method : Operation → Http.Method
  | create _ _ => .post
  | watch _ => .get
  | logs _ => .get

def body : Operation → Option Document
  | create _ job => (JobRequest.ofJob job).toDocument
  | watch _ => none
  | logs _ => none

/-- The request on behalf of whoever holds the token. -/
def request (op : Operation) (api : WorkerApi σ) : Http.Request where
  method := op.method
  target := op.url api
  authorization := api.token.map ("Bearer " ++ ·)
  body := op.body

def perform (op : Operation) (api : WorkerApi σ) : Call σ ClusterError Unit :=
  match op with
  | create eventId job => api.createJob eventId job
  | watch u => discard (api.subscribe u)
  | logs u => discard (api.readLogs u)

end Operation

/-- The API with a server that notes what it is sent. -/
def noting (api : WorkerApi σ) (answer : Http.Request → Except Http.Fault Http.Response) :
    WorkerApi (List Http.Request) where
  base := api.base
  token := api.token
  exchange := fun r sent => (answer r, sent ++ [r])

/-! ### What is sent -/

namespace Operation

variable {op : Operation}

/-- An operation is one request; what is made of the answer asks for nothing more. -/
theorem snd_run_perform (op : Operation) (api : WorkerApi σ) (s : σ) :
    ((op.perform api).run s).2 = ((api.send op.method (op.url api) op.body).run s).2 := by
  cases op with
  | create eventId job =>
    rw [perform, createJob, Call.snd_run_bind fun _ _ => rfl, Call.snd_run_mapFault]
    rfl
  | watch u =>
    rw [perform, Call.snd_run_discard, subscribe,
      Call.snd_run_bind fun _ _ => Call.snd_run_bind fun _ _ => rfl, Call.snd_run_mapFault]
    rfl
  | logs u =>
    rw [perform, Call.snd_run_discard, readLogs, Call.snd_run_bind, Call.snd_run_mapFault]
    · rfl
    · intro r t
      refine Call.snd_run_bind fun _ t => ?_
      split
      · rfl
      · rfl

theorem snd_run_perform_noting (op : Operation) (api : WorkerApi σ)
    (answer : Http.Request → Except Http.Fault Http.Response) (sent : List Http.Request)
    (husable : isUsable (op.url api)) :
    ((op.perform (api.noting answer)).run sent).2 =
      if (api.token.getD "").toList.all fitsHeader then sent ++ [op.request api] else sent := by
  have hurl : op.url (api.noting answer) = op.url api := by
    cases op <;> rfl
  have htoken : (api.noting answer).token = api.token := rfl
  rw [snd_run_perform, hurl, send, husable, Bool.true_and, htoken]
  split
  · rfl
  · rfl

/-! ### Addresses -/

theorem areLabels_events : AreLabels (["v2", "events"].map String.toList) := by
  decide

theorem areLabels_tail (h : IsJobName op.jobName) : AreLabels (op.tail.map String.toList) := by
  cases op with
  | create _ _ => exact (by decide : AreLabels (["worker", "jobs"].map String.toList))
  | watch u =>
    have hname : ∀ c ∈ u.job.toList, isLabelChar c := (isJobName_iff.1 h).2.2.1
    have hstatus : AreLabels (u.job.toList :: ["status"].map String.toList) :=
      List.forall_mem_cons.2 ⟨hname, (by decide : AreLabels (["status"].map String.toList))⟩
    exact List.forall_mem_append.2
      ⟨(by decide : AreLabels (["worker", "jobs"].map String.toList)), hstatus⟩
  | logs _ => exact (by decide : AreLabels (["logs"].map String.toList))

theorem keptInQuery_query (h : IsJobName op.jobName) :
    ∀ q ∈ op.query.map String.toList, ∀ c ∈ q, keptInQuery c := by
  intro q hq
  cases op with
  | create _ _ => cases hq
  | watch _ =>
    cases hq
    exact List.all_eq_true.1 (by decide)
  | logs u =>
    cases hq
    have hname : u.job.toList.all keptInQuery := List.all_eq_true.2 fun c hc =>
      (inert_of_isLabelChar ((isJobName_iff.1 h).2.2.1 c hc)).1
    rw [← List.all_eq_true]
    simp only [String.toList_append, List.all_append, hname, Bool.and_true]
    decide

/-- What follows the base: the id stands between labels. -/
def suffix (op : Operation) : List Char :=
  written (["v2", "events"].map String.toList ++ op.eventId.toList :: op.tail.map String.toList)
    (op.query.map String.toList)

theorem url_eq (op : Operation) (api : WorkerApi σ) :
    op.url api = api.base ++ String.ofList op.suffix := by
  rw [← String.toList_inj]
  cases op <;> simp [url, jobsUrl, statusUrl, logsUrl, eventUrl, suffix, written, eventId, tail, query]

theorem isSuffix_suffix (op : Operation) : IsSuffix op.suffix where
  head := by
    cases op <;> exact ⟨_, rfl⟩
  last := by
    cases op with
    | create eventId _ =>
      exact ⟨("/v2/events/" ++ eventId ++ "/worker/job").toList, 's',
        by simp [suffix, written, Operation.eventId, tail, query], rfl⟩
    | watch u =>
      exact ⟨("/v2/events/" ++ u.eventId ++ "/worker/jobs/" ++ u.job ++ "/status?watch=tru").toList, 'e',
        by simp [suffix, written, eventId, tail, query], rfl⟩
    | logs u =>
      exact ⟨("/v2/events/" ++ u.eventId ++ "/logs?job=" ++ u.job ++ "&container=" ++ u.job ++
        "&follow=fals").toList, 'e', by simp [suffix, written, eventId, tail, query], rfl⟩

theorem map_bytesOf (texts : List String) :
    (texts.map String.toList).map (·.flatMap String.utf8EncodeChar) = texts.map Text.bytesOf := by
  rw [List.map_map]
  rfl

theorem address_eq (op : Operation) (events : List (List UInt8)) : op.address events =
    { path := events ++ (op.eventId.toList :: op.tail.map String.toList).map
        (·.flatMap String.utf8EncodeChar)
      query := (op.query.map String.toList).map String.ofList
      fragment := none } := by
  have hquery : (op.query.map String.toList).map String.ofList = op.query := by
    cases op.query with
    | none => rfl
    | some q => exact congrArg some String.ofList_toList
  rw [address, hquery, ← map_bytesOf]
  rfl

end Operation

/-- **A request to the worker API names its event** exactly if the event's id is a piece of an address.
Under a base that names its host one request is sent. The host is asked for a resource of the event exactly
if the id is kept, and for two events whose ids are kept never for the same resource. -/
theorem addressed_iff (api : WorkerApi σ) (op : Operation) (hbase : IsUnmarked api.base.toList)
    (hjob : IsJobName op.jobName) :
    (Address.ofText (op.request api).target =
        op.address ((Address.ofText api.base).path ++ ["v2", "events"].map Text.bytesOf) ↔
      IsPiece (· == '/') op.eventId.toList) ∧
    (isUsable (api.base ++ "/") →
      (∀ answer sent, ((op.perform (api.noting answer)).run sent).2 =
        if (api.token.getD "").toList.all fitsHeader then sent ++ [op.request api] else sent) ∧
      (Address.ofText (target (op.request api).target) =
          op.address (Address.ofText (target (api.base ++ "/v2/events"))).path ↔
        IsKept op.eventId.toList) ∧
      ∀ other : Operation, IsJobName other.jobName → IsKept op.eventId.toList →
        IsKept other.eventId.toList → op.eventId ≠ other.eventId →
          target (op.request api).target ≠ target (other.request api).target) := by
  have hlead := Operation.areLabels_events
  have hevents : IsSuffix (written (["v2", "events"].map String.toList) none) :=
    ⟨⟨_, rfl⟩, "/v2/event".toList, 's', rfl, rfl⟩
  refine ⟨?_, fun husable => ?_⟩
  · have hquery : ∀ q ∈ op.query.map String.toList, '#' ∉ q := fun q hq hmem => by
      cases Operation.keptInQuery_query hjob q hq '#' hmem
    rw [← Address.ofText_laidOut_iff hbase hlead (Operation.areLabels_tail hjob) hquery,
      Operation.address_eq, ← Operation.map_bytesOf, List.append_assoc, ← List.map_append]
    show Address.ofText (op.url api) = _ ↔ _
    rw [Operation.url_eq]
    rfl
  · have htarget : ∀ o : Operation, IsJobName o.jobName → isUsable (o.url api) ∧
        (Address.ofText (target (o.request api).target) =
          o.address (Address.ofText (target (api.base ++ "/v2/events"))).path ↔
            IsKept o.eventId.toList) := by
      intro o ho
      have h := ofText_target_laidOut_iff husable hbase hlead (List.cons_ne_nil _ _)
        (Operation.areLabels_tail ho) (Operation.keptInQuery_query ho) hevents o.isSuffix_suffix
      rw [Operation.address_eq]
      show isUsable (o.url api) ∧ (Address.ofText (target (o.url api)) = _ ↔ _)
      rw [Operation.url_eq]
      exact h
    refine ⟨fun answer sent => op.snd_run_perform_noting api answer sent (htarget op hjob).1,
      (htarget op hjob).2, fun other hother hkept hkeptOther hne heq => hne ?_⟩
    have hpath := congrArg (fun t => (Address.ofText t).path) heq
    simp only [(htarget op hjob).2.2 hkept, (htarget other hother).2.2 hkeptOther, Operation.address,
      List.append_cancel_left_eq, List.map_cons, List.cons.injEq] at hpath
    exact Text.bytesOf_inj.1 hpath.1

/-! ### Ids that are kept, and others -/

/-- An API at which nobody listens. -/
def deserted : WorkerApi Unit :=
  .ofAddress "https://api.example/ferry/" none Http.unreachable

def buildOf (eventId : String) : Operation :=
  .create eventId { name := "build", container := { image := "alpine" } }

theorem addressed_kept :
    IsUnmarked deserted.base.toList ∧ IsJobName (buildOf "run 1").jobName ∧
      isUsable (deserted.base ++ "/") ∧ IsKept (buildOf "run 1").eventId.toList ∧
      target ((buildOf "run 1").request deserted).target = "/ferry/v2/events/run%201/worker/jobs" ∧
      Address.ofText (target ((buildOf "run 1").request deserted).target) =
        (buildOf "run 1").address (Address.ofText (target (deserted.base ++ "/v2/events"))).path ∧
      target ((buildOf "run 1").request deserted).target ≠
        target ((buildOf "run-1").request deserted).target := by
  have hbase : IsUnmarked deserted.base.toList := by decide
  have husable : isUsable (deserted.base ++ "/") := by decide +kernel
  have hkept : IsKept (buildOf "run 1").eventId.toList := by decide
  have hother : IsKept (buildOf "run-1").eventId.toList := by decide
  have hjob : IsJobName "build" := by decide
  obtain ⟨-, h⟩ := addressed_iff deserted (buildOf "run 1") hbase hjob
  obtain ⟨-, htarget, hapart⟩ := h husable
  exact ⟨hbase, hjob, husable, hkept, by decide +kernel, htarget.2 hkept,
    hapart (buildOf "run-1") hjob hkept hother (by decide)⟩

/-- The address of the first event names another event's resource, and the host is asked for one resource
of two events. -/
theorem not_addressed_astray :
    IsUnmarked deserted.base.toList ∧ IsJobName (buildOf "org/repo").jobName ∧
      isUsable (deserted.base ++ "/") ∧
      Address.ofText ((buildOf "org/repo").request deserted).target ≠
        (buildOf "org/repo").address
          ((Address.ofText deserted.base).path ++ ["v2", "events"].map Text.bytesOf) ∧
      target ((buildOf "run 1").request deserted).target =
        target ((buildOf "run%201").request deserted).target := by
  decide +kernel

end WorkerApi

end EventWorker
