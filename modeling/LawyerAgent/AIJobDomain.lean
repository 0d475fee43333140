import LawyerAgent.Common

/-!
# AI job domain

The job status machine, the durable execution grant and the typed requests
of the repository, with the checks their constructors make.
-/

set_option autoImplicit false

namespace LawyerAgent.AIJobDomain
open Common

def maxAttempts : ℕ := 10

def jobPolicyVersion : String := "ai-job-policy-v1"
def jobScopeManifestVersion : String := "ai-job-scope-v1"
def syntheticHandlerKind : String := "synthetic.v1"
def syntheticInputSchemaVersion : String := "synthetic-input-v1"

inductive AIJobStatus where
  | queued
  | running
  | retryScheduled
  | cancelRequested
  | succeeded
  | failed
  | cancelled
deriving DecidableEq, Repr

inductive InboxStatus where
  | accepted
  | processing
  | completed
  | rejected
deriving DecidableEq, Repr

inductive AIJobPermission where
  | create
  | read
  | cancel
deriving DecidableEq, Repr

def AIJobPermission.value : AIJobPermission → String
  | .create => "ai_job.create"
  | .read => "ai_job.read"
  | .cancel => "ai_job.cancel"

inductive JobVisibility where
  | ownerOnly
deriving DecidableEq, Repr

inductive RiskClass where
  | synthetic
deriving DecidableEq, Repr

inductive ReleaseState where
  | nonPublishable
deriving DecidableEq, Repr

inductive JobScopeCode where
  | ownerShared
  | tenantWide
deriving DecidableEq, Repr

def allowedTransitions : List (AIJobStatus × AIJobStatus) :=
  [(.queued,.running),
   (.queued,.cancelled),
   (.queued,.failed),
   (.running,.succeeded),
   (.running,.retryScheduled),
   (.running,.failed),
   (.running,.cancelRequested),
   (.cancelRequested,.cancelled),
   (.retryScheduled,.running),
   (.retryScheduled,.cancelled),
   (.retryScheduled,.failed)]

def terminalJobStatuses : List AIJobStatus := [.succeeded,.failed,.cancelled]

def leaseHoldingStatuses : List AIJobStatus := [.running,.cancelRequested]

def claimableStatuses : List AIJobStatus := [.queued,.retryScheduled]

theorem terminal_final (p : AIJobStatus × AIJobStatus) (h : p ∈ allowedTransitions) :
    p.1 ∉ terminalJobStatuses := by
  revert p
  decide

structure JobAuthorizationScope where
  owner : Bool
  shared : Bool
  tenantWide : Bool
deriving DecidableEq, Repr

def JobAuthorizationScope.scopeCode (s : JobAuthorizationScope) : Except String JobScopeCode :=
  if s.tenantWide then
    if s.owner && s.shared then .ok .tenantWide
    else .error "tenant-wide scope requires owner and shared access"
  else if s.owner && s.shared then .ok .ownerShared
  else .error "job authorization scope has no supported mapping"

structure AIJobFields where
  id : UUID7
  tenantId : UUID7
  handlerCode : String
  handlerVersion : String
  inputSchemaVersion : String
  inputJson : JsonObject
  inputFingerprint : Digest
  createdByUserId : UUID7
  createdByMembershipId : UUID7
  createdBySessionId : UUID7
  actorSnapshotJson : JsonObject
  policyVersionAtSubmit : String
  visibility : JobVisibility
  status : AIJobStatus
  currentAttemptNo : ℕ
  maxAttempts : ℕ
  riskClass : RiskClass
  releaseState : ReleaseState
  idempotencyRecordId : UUID7
  correlationId : UUID7
  submittedAt : Time
  expiresAt : Time
  version : ℕ
  nextAttemptAt : Option Time := none
  leaseOwner : Option String := none
  leaseToken : Option UUID7 := none
  leaseFence : Option ℕ := none
  leaseExpiresAt : Option Time := none
  cancelRequestedAt : Option Time := none
  cancelRequestedByUserId : Option UUID7 := none
  cancelReasonCode : Option String := none
  resultJson : Option JsonObject := none
  failureClass : Option String := none
  failureCode : Option String := none
  startedAt : Option Time := none
  completedAt : Option Time := none

def aiJobChecks : Checks AIJobFields := fun j =>
  [(0 < j.version,"job version must be a positive integer"),
   (0 < j.maxAttempts,"job max_attempts must be a positive integer"),
   (j.maxAttempts ≤ AIJobDomain.maxAttempts,"job max_attempts exceeds the limit"),
   (j.currentAttemptNo ≤ j.maxAttempts,"job current_attempt_no is out of range")]

abbrev AIJob : Type := Checked aiJobChecks

structure JobExecutionGrantFields where
  id : UUID7
  tenantId : UUID7
  jobId : UUID7
  userId : UUID7
  membershipId : UUID7
  permissionCode : AIJobPermission
  authVersionAtSubmit : ℕ
  authzVersionAtSubmit : ℕ
  policyVersion : String
  jobScopeManifestVersion : String
  jobScopeCode : JobScopeCode
  issuedAt : Time
  revokedAt : Option Time := none
  revocationReasonCode : Option String := none
  version : ℕ := 1

def jobExecutionGrantChecks : Checks JobExecutionGrantFields := fun g =>
  [(g.permissionCode = .create,"durable grant permission code must be ai_job.create"),
   (0 < g.authVersionAtSubmit,"grant auth_version_at_submit must be a positive integer"),
   (0 < g.authzVersionAtSubmit,"grant authz_version_at_submit must be a positive integer"),
   (g.policyVersion ≠ "","grant policy version is invalid"),
   (g.jobScopeManifestVersion ≠ "","grant job scope manifest version is invalid"),
   (0 < g.version,"grant version must be a positive integer"),
   (g.revokedAt.isNone = g.revocationReasonCode.isNone,
    "grant revocation timestamp and reason must be set together")]

abbrev JobExecutionGrant : Type := Checked jobExecutionGrantChecks

structure NewAIJobOutboxFields where
  id : UUID7
  tenantId : UUID7
  jobId : UUID7
  dispatchGeneration : ℕ
  envelopeGeneration : ℕ
  maxEnvelopeGenerations : ℕ
  eventType : String
  routingKey : String
  schemaVersion : ℕ
  availableAt : Time

def newAIJobOutboxChecks : Checks NewAIJobOutboxFields := fun o =>
  [(0 < o.dispatchGeneration,"outbox dispatch_generation must be a positive integer"),
   (0 < o.envelopeGeneration,"outbox envelope_generation must be a positive integer"),
   (0 < o.maxEnvelopeGenerations,"outbox max_envelope_generations must be a positive integer"),
   (o.envelopeGeneration ≤ o.maxEnvelopeGenerations,
    "outbox envelope generation exceeds its cap"),
   (o.eventType ≠ "","outbox event type is invalid"),
   (o.routingKey ≠ "","outbox routing key is invalid"),
   (0 < o.schemaVersion,"outbox schema_version must be a positive integer")]

abbrev NewAIJobOutbox : Type := Checked newAIJobOutboxChecks

structure NewAIJobGraphFields where
  job : AIJob
  grant : JobExecutionGrant
  outbox : NewAIJobOutbox

def newAIJobGraphChecks : Checks NewAIJobGraphFields := fun g =>
  [(g.job.value.tenantId = g.grant.value.tenantId ∧
    g.job.value.tenantId = g.outbox.value.tenantId ∧
    g.job.value.id = g.grant.value.jobId ∧
    g.job.value.id = g.outbox.value.jobId,
    "job graph parts must reference the same tenant and job")]

abbrev NewAIJobGraph : Type := Checked newAIJobGraphChecks

structure ClaimJobFields where
  tenantId : UUID7
  jobId : UUID7
  workerInstanceRef : String
  leaseToken : UUID7
  leaseFence : ℕ
  attemptId : UUID7
  attemptNo : ℕ
  triggerMessageId : UUID7
  handlerCode : String
  handlerVersion : String
  startedAt : Time
  leaseExpiresAt : Time

def claimJobChecks : Checks ClaimJobFields := fun r =>
  [(r.workerInstanceRef ≠ "","claim worker instance ref is invalid"),
   (0 < r.leaseFence,"claim lease_fence must be a positive integer"),
   (0 < r.attemptNo,"claim attempt_no must be a positive integer"),
   (r.handlerCode ≠ "","claim handler code is invalid"),
   (r.handlerVersion ≠ "","claim handler version is invalid"),
   (r.startedAt < r.leaseExpiresAt,"claim lease expiry must be after start")]

abbrev ClaimJobRequest : Type := Checked claimJobChecks

structure ClaimedExecution where
  job : AIJob
  attemptId : UUID7
  attemptNo : ℕ
  leaseToken : UUID7
  leaseFence : ℕ
  triggerMessageId : UUID7
  workerInstanceRef : String
  leaseExpiresAt : Time

inductive ClaimOutcome where
  | claimed (execution : ClaimedExecution)
  | rejected (reasonCode : String)

structure FencedHeartbeatFields where
  tenantId : UUID7
  jobId : UUID7
  leaseToken : UUID7
  leaseFence : ℕ
  expectedVersion : ℕ
  heartbeatAt : Time
  leaseExpiresAt : Time

def fencedHeartbeatChecks : Checks FencedHeartbeatFields := fun r =>
  [(0 < r.leaseFence,"heartbeat lease_fence must be a positive integer"),
   (0 < r.expectedVersion,"heartbeat expected_version must be a positive integer"),
   (r.heartbeatAt < r.leaseExpiresAt,"heartbeat lease expiry must be after heartbeat time")]

abbrev FencedHeartbeat : Type := Checked fencedHeartbeatChecks

structure FencedFinalizeSuccessFields where
  tenantId : UUID7
  jobId : UUID7
  leaseToken : UUID7
  leaseFence : ℕ
  expectedVersion : ℕ
  result : JsonObject
  now : Time

def fencedFinalizeSuccessChecks : Checks FencedFinalizeSuccessFields := fun r =>
  [(0 < r.leaseFence,"finalize lease_fence must be a positive integer"),
   (0 < r.expectedVersion,"finalize expected_version must be a positive integer")]

abbrev FencedFinalizeSuccess : Type := Checked fencedFinalizeSuccessChecks

end LawyerAgent.AIJobDomain
