import LawyerAgent.AIJobOperations
import LawyerAgent.IdentityTables
import LawyerAgent.AIJobSubmission
import LawyerAgent.IdempotencyService

/-!
# AI job service

`AIJobService.create`: the permission is looked up again in the database, the
request is reserved under its idempotency key, and a new job, its grant and
its first outbox row are stored together with the completed reservation.
-/

set_option autoImplicit false

namespace LawyerAgent.AIJobService
open Relational Common AIJobDomain AIJobTables
open AIJobRepository AIJobOperations AIJobSubmission
open IdentityTables
open Idempotency IdempotencyRepository IdempotencyService

structure JobDatabase where
  store : Store
  records : Records

def storeOf : Lens JobDatabase Store where
  get := JobDatabase.store
  set := fun t s => {s with store := t}
  get_set := fun _ _ => rfl
  set_get := fun _ => rfl

def recordsOf : Lens JobDatabase Records where
  get := JobDatabase.records
  set := fun t s => {s with records := t}
  get_set := fun _ _ => rfl
  set_get := fun _ => rfl

inductive AIJobServiceFailure where
  | accessDenied
  | notFound
  | repository (failure : AIJobFailure)
  | idempotency (failure : IdempotencyFailure)

structure AcceptedAIJob where
  jobId : UUID7
  tenantId : UUID7
  etag : String
  replayed : Bool := false

/-- One call. `prepared` holds the digests of the idempotency key and of the
request body, `recordId` the identifier drawn for a new idempotency record. -/
structure CreateCall where
  service : Checked idempotencyServiceChecks
  command : CreateAIJobCommand
  prepared : PreparedIdempotencyRequest
  recordId : UUID7
  ids : CreationIds
  now : Time
  currentTimestamp : Time

def jobScope (command : CreateAIJobFields) : IdempotencyScope :=
  ⟨⟨.membership,command.membershipId,some command.tenantId⟩,rfl⟩

def reserveRequest (q : CreateCall) : ReserveRequest where
  service := q.service
  scope := jobScope q.command.value
  operation := "ai_job.create"
  prepared := q.prepared
  newId := q.recordId
  now := q.now
  currentTimestamp := q.currentTimestamp

def jobResult (jobId : UUID7) : IdempotencyResultFields where
  resultType := "ai_job.job"
  resultId := jobId

def create (identity : Identity) (q : CreateCall) :
    Tx AIJobServiceFailure JobDatabase AcceptedAIJob := do
  let command := q.command.value
  let reloaded := permissionCodes command.tenantId command.membershipId identity
  require (AIJobPermission.create.value ∈ reloaded) .accessDenied
  let reservation ← within .idempotency recordsOf (reserve (reserveRequest q))
  match reservation.replay with
  | some reference => do
    let job ← within .repository storeOf (get command.tenantId reference.value.resultId)
    let job ← orFail .notFound job
    pure {
      jobId := job.value.id
      tenantId := command.tenantId
      etag := "\"" ++ toString job.value.version ++ "\""
      replayed := true}
  | none => do
    let graph ← ofExcept (fun message => .repository (.valueError message))
      (submittedGraph command q.ids reservation.recordId q.now)
    within .repository storeOf (addJobGraph graph q.currentTimestamp)
    let result ← ofExcept (fun message => .idempotency (.valueError message))
      (postInit idempotencyResultChecks (jobResult q.ids.jobId))
    within .idempotency recordsOf (IdempotencyService.complete reservation result q.now)
    pure {
      jobId := q.ids.jobId
      tenantId := command.tenantId
      etag := "\"\x7b1\x7d\""}

structure Submitted (identity : Identity) (q : CreateCall) (accepted : AcceptedAIJob)
    (db db' : JobDatabase) (graph : NewAIJobGraph) : Prop where
  permission : AIJobPermission.create.value ∈
    permissionCodes q.command.value.tenantId q.command.value.membershipId identity
  jobId : accepted.jobId = q.ids.jobId
  job : Inserted (jobModel graph.value.job q.currentTimestamp) db.store.jobs db'.store.jobs
  grant : Inserted (grantModel graph.value.grant) db.store.grants db'.store.grants
  built : ∃ recordId, submittedGraph q.command.value q.ids recordId q.now = .ok graph

theorem create_submitted {identity : Identity} {q : CreateCall} {accepted : AcceptedAIJob}
    {db db' : JobDatabase} (h : create identity q db = .ok (accepted,db'))
    (hnew : accepted.replayed = false) : ∃ graph, Submitted identity q accepted db db' graph := by
  obtain ⟨_,s₁,h₁,hk₁⟩ := bind_ok.mp h
  obtain ⟨hpermission,rfl⟩ := require_ok.mp h₁
  obtain ⟨reservation,s₂,h₂,hk₂⟩ := bind_ok.mp hk₁
  obtain ⟨records,-,rfl⟩ := within_ok.mp h₂
  cases hreplay : reservation.replay with
  | some reference =>
    rw [hreplay] at hk₂
    obtain ⟨found,s₃,-,hk₃⟩ := bind_ok.mp hk₂
    obtain ⟨job,s₄,-,hk₄⟩ := bind_ok.mp hk₃
    obtain ⟨rfl,-⟩ := pure_ok.mp hk₄
    cases hnew
  | none =>
    rw [hreplay] at hk₂
    obtain ⟨graph,s₃,h₃,hk₃⟩ := bind_ok.mp hk₂
    obtain ⟨hgraph,rfl⟩ := ofExcept_ok.mp h₃
    obtain ⟨_,s₄,h₄,hk₄⟩ := bind_ok.mp hk₃
    obtain ⟨store,hadd,rfl⟩ := within_ok.mp h₄
    obtain ⟨result,s₅,h₅,hk₅⟩ := bind_ok.mp hk₄
    obtain ⟨-,rfl⟩ := ofExcept_ok.mp h₅
    obtain ⟨_,s₆,h₆,hk₆⟩ := bind_ok.mp hk₅
    obtain ⟨records',-,rfl⟩ := within_ok.mp h₆
    obtain ⟨rfl,rfl⟩ := pure_ok.mp hk₆
    obtain ⟨hjob,hgrant,-,-,-⟩ := addJobGraph_ok hadd
    exact ⟨graph,hpermission,rfl,hjob,hgrant,reservation.recordId,hgraph⟩

end LawyerAgent.AIJobService
