import LawyerAgent.AIJobTables
import LawyerAgent.Envelope
import Mathlib.Data.List.Sort

/-!
# AI job repository

Each operation is one transaction over the store. The condition and the values
of an update statement are definitions of their own, under the operation they
belong to. Fresh identifiers, clock values and the rows other transactions
hold locked are arguments.
-/

set_option autoImplicit false

namespace LawyerAgent.AIJobRepository
open Relational Common AIJobDomain AIJobTables
open Envelope

inductive AIJobFailure where
  | integrityError
  | valueError (message : String)
  | runtimeError (message : String)
  | jobAuthorityUnavailable (reasonCode : String)
deriving DecidableEq, Repr

abbrev StoreTx (α : Type) : Type := Tx AIJobFailure Store α

def job (model : AIJobModel) : Except String AIJob :=
  postInit aiJobChecks model.toAIJobFields

def jobModel (job : AIJob) (currentTimestamp : Time) : AIJobModel :=
  {job.value with updatedAt := currentTimestamp}

def grantModel (grant : JobExecutionGrant) : AIJobExecutionGrantModel :=
  {grant.value with revokedAt := none, revocationReasonCode := none, version := 1}

def outboxModel (graph : NewAIJobGraphFields) : AIJobOutboxModel where
  id := graph.outbox.value.id
  tenantId := graph.outbox.value.tenantId
  jobId := graph.outbox.value.jobId
  dispatchGeneration := graph.outbox.value.dispatchGeneration
  envelopeGeneration := graph.outbox.value.envelopeGeneration
  maxEnvelopeGenerations := graph.outbox.value.maxEnvelopeGenerations
  eventType := graph.outbox.value.eventType
  routingKey := graph.outbox.value.routingKey
  schemaVersion := graph.outbox.value.schemaVersion
  correlationId := some graph.job.value.correlationId
  availableAt := graph.outbox.value.availableAt

def isJob (tenantId jobId : UUID7) (j : AIJobModel) : Bool :=
  j.tenantId == tenantId && j.id == jobId

def get (tenantId jobId : UUID7) : StoreTx (Option AIJob) := do
  let model ← read fun s => selectRow (isJob tenantId jobId) s.jobs
  match model with
  | none => pure none
  | some model => some <$> ofExcept .valueError (job model)

/-- The foreign key into `ai_jobs`. -/
def referencesJob (tenantId jobId : UUID7) : StoreTx Unit := do
  let model ← read fun s => selectRow (isJob tenantId jobId) s.jobs
  require (model.isSome = true) .integrityError

def addJobGraph (graph : NewAIJobGraph) (currentTimestamp : Time) : StoreTx Unit := do
  zoom jobsOf (insertRow .integrityError (jobModel graph.value.job currentTimestamp))
  zoom grantsOf (insertRow .integrityError (grantModel graph.value.grant))
  zoom outboxOf (insertRow .integrityError (outboxModel graph.value))

def claimable (request : ClaimJobFields) (j : AIJobModel) : Bool :=
  isJob request.tenantId request.jobId j &&
  decide (j.status ∈ claimableStatuses) &&
  j.leaseOwner.isNone &&
  decide (request.startedAt < j.expiresAt) &&
  j.nextAttemptAt.all (decide <| · ≤ request.startedAt)

def claimedJob (request : ClaimJobFields) (j : AIJobModel) : AIJobModel :=
  {j with
    status := .running
    currentAttemptNo := request.attemptNo
    leaseOwner := some request.workerInstanceRef
    leaseToken := some request.leaseToken
    leaseFence := some request.leaseFence
    leaseExpiresAt := some request.leaseExpiresAt
    startedAt := some request.startedAt
    version := j.version+1
    updatedAt := request.startedAt}

def attemptModel (request : ClaimJobFields) (currentTimestamp : Time) : AIJobAttemptModel where
  id := request.attemptId
  tenantId := request.tenantId
  jobId := request.jobId
  attemptNo := request.attemptNo
  status := .claimed
  triggerMessageId := request.triggerMessageId
  workerInstanceRef := some request.workerInstanceRef
  leaseToken := request.leaseToken
  leaseFence := request.leaseFence
  handlerCode := request.handlerCode
  handlerVersion := request.handlerVersion
  startedAt := request.startedAt
  updatedAt := currentTimestamp

def claimDueJob (request : ClaimJobRequest) (currentTimestamp : Time) :
    StoreTx ClaimOutcome := do
  let r := request.value
  let changed ← zoom jobsOf (updateRows .integrityError (claimable r) (claimedJob r))
  if changed ≠ 1 then
    pure (.rejected "job_not_claimable")
  else
    zoom attemptsOf (insertRow .integrityError (attemptModel r currentTimestamp))
    let model ← read fun s => selectRow (isJob r.tenantId r.jobId) s.jobs
    let model ← orFail (.runtimeError "claimed job disappeared") model
    let job ← ofExcept .valueError (job model)
    pure (.claimed {
      job := job
      attemptId := r.attemptId
      attemptNo := r.attemptNo
      leaseToken := r.leaseToken
      leaseFence := r.leaseFence
      triggerMessageId := r.triggerMessageId
      workerInstanceRef := r.workerInstanceRef
      leaseExpiresAt := r.leaseExpiresAt})

/-- The fence of a lease holder: token, fence and row version together. -/
def leaseHeldBy (tenantId jobId leaseToken : UUID7) (leaseFence expectedVersion : ℕ)
    (j : AIJobModel) : Bool :=
  isJob tenantId jobId j && j.leaseToken == some leaseToken &&
  j.leaseFence == some leaseFence && j.version == expectedVersion

def heartbeatGuard (r : FencedHeartbeatFields) (j : AIJobModel) : Bool :=
  leaseHeldBy r.tenantId r.jobId r.leaseToken r.leaseFence r.expectedVersion j &&
  decide (j.status ∈ leaseHoldingStatuses)

def heartbeatJob (r : FencedHeartbeatFields) (j : AIJobModel) : AIJobModel :=
  {j with
    leaseExpiresAt := some r.leaseExpiresAt
    version := j.version+1
    updatedAt := r.heartbeatAt}

def heartbeat (request : FencedHeartbeat) : StoreTx Bool := do
  let r := request.value
  let changed ← zoom jobsOf (updateRows .integrityError (heartbeatGuard r) (heartbeatJob r))
  pure (changed == 1)

def finalizeGuard (r : FencedFinalizeSuccessFields) (j : AIJobModel) : Bool :=
  leaseHeldBy r.tenantId r.jobId r.leaseToken r.leaseFence r.expectedVersion j &&
  j.status == .running

def finalizedJob (r : FencedFinalizeSuccessFields) (j : AIJobModel) : AIJobModel :=
  {j with
    status := .succeeded
    resultJson := some r.result
    completedAt := some r.now
    leaseOwner := none
    leaseToken := none
    leaseFence := none
    leaseExpiresAt := none
    nextAttemptAt := none
    version := j.version+1
    updatedAt := r.now}

def finalizedAttemptGuard (r : FencedFinalizeSuccessFields) (a : AIJobAttemptModel) : Bool :=
  a.tenantId == r.tenantId && a.jobId == r.jobId && a.leaseFence == r.leaseFence &&
  a.status == .claimed

def succeededAttempt (r : FencedFinalizeSuccessFields) (a : AIJobAttemptModel) :
    AIJobAttemptModel :=
  {a with
    status := .succeeded
    finishedAt := some r.now
    version := a.version+1
    updatedAt := r.now}

def finalizeSuccess (request : FencedFinalizeSuccess) : StoreTx Bool := do
  let r := request.value
  let changed ← zoom jobsOf (updateRows .integrityError (finalizeGuard r) (finalizedJob r))
  if changed ≠ 1 then
    pure false
  else
    let _ ← zoom attemptsOf
      (updateRows .integrityError (finalizedAttemptGuard r) (succeededAttempt r))
    pure true

def unstarted (tenantId jobId : UUID7) (j : AIJobModel) : Bool :=
  isJob tenantId jobId j && decide (j.status ∈ claimableStatuses) &&
  j.leaseOwner.isNone && j.leaseToken.isNone

def failedJob (failureClass failureCode : String) (now : Time) (j : AIJobModel) : AIJobModel :=
  {j with
    status := .failed
    failureClass := some failureClass
    failureCode := some failureCode
    completedAt := some now
    nextAttemptAt := none
    version := j.version+1
    updatedAt := now}

def failJobWithoutAttempt (tenantId jobId : UUID7) (failureClass failureCode : String)
    (now : Time) : StoreTx Bool := do
  let changed ← zoom jobsOf (updateRows .integrityError (unstarted tenantId jobId)
    (failedJob failureClass failureCode now))
  pure (changed == 1)

def cancelledJob (now : Time) (j : AIJobModel) : AIJobModel :=
  {j with
    status := .cancelled
    completedAt := some now
    nextAttemptAt := none
    version := j.version+1
    updatedAt := now}

def cancelClaimableJob (tenantId jobId : UUID7) (now : Time) : StoreTx Bool := do
  let changed ← zoom jobsOf (updateRows .integrityError (unstarted tenantId jobId)
    (cancelledJob now))
  pure (changed == 1)

structure ClaimCandidate where
  tenantId : UUID7
  jobId : UUID7
  correlationId : UUID7
  schemaVersion : ℕ

structure ClaimedOutbox where
  id : UUID7
  tenantId : UUID7
  jobId : UUID7
  routingKey : String
  envelope : AIJobEnvelope
  envelopeDigest : Digest
  claimToken : UUID7
  claimFence : ℕ
  version : ℕ
  publishAttemptCount : ℕ
  maxPublishAttempts : ℕ

/-- The arguments of one batch. `envelopeFactory` and `newToken` draw fresh
values, so they are given for each row of the batch by its position. -/
structure OutboxBatch where
  now : Time
  claimExpiresAt : Time
  workerRef : String
  limit : ℕ
  locked : UUID7 → Bool
  envelopeFactory : ℕ → ClaimCandidate → Except AIJobFailure AIJobEnvelope
  newToken : ℕ → UUID7

def dueOutbox (now : Time) (o : AIJobOutboxModel) : Bool :=
  (o.status == .pending && decide (o.availableAt ≤ now)) ||
  (o.status == .publishing && o.claimExpiresAt.any (decide <| · < now))

def outboxBefore (o p : AIJobOutboxModel) : Prop := o.id.int.toNat ≤ p.id.int.toNat

instance : DecidableRel outboxBefore := fun o p =>
  inferInstanceAs (Decidable (o.id.int.toNat ≤ p.id.int.toNat))

def dueBatch (batch : OutboxBatch) (t : Table aiJobOutbox) : List AIJobOutboxModel :=
  ((selectRows (fun o => dueOutbox batch.now o && !batch.locked o.id) t).insertionSort
    outboxBefore).take batch.limit

def signedOutbox (sha256 : List UInt8 → Digest)
    (envelopeFactory : ClaimCandidate → Except AIJobFailure AIJobEnvelope)
    (model : AIJobOutboxModel) : Except AIJobFailure AIJobOutboxModel :=
  match model.messageId with
  | some _ => .ok model
  | none =>
    match model.correlationId with
    | none => .error (.runtimeError "outbox row is missing its correlation id")
    | some correlationId => do
      let envelope ← envelopeFactory
        ⟨model.tenantId,model.jobId,correlationId,model.schemaVersion⟩
      .ok {model with
        messageId := some envelope.value.messageId
        nonce := some envelope.value.nonce
        issuedAt := some envelope.value.issuedAt
        signature := some envelope.value.signature
        envelopeDigest := some (envelopeDigest sha256 envelope)}

def publishingOutbox (batch : OutboxBatch) (k : ℕ) (model : AIJobOutboxModel) :
    AIJobOutboxModel :=
  {model with
    status := .publishing
    claimOwner := some batch.workerRef
    claimToken := some (batch.newToken k)
    claimFence := some (model.claimFence.getD 0+1)
    claimExpiresAt := some batch.claimExpiresAt
    publishAttemptCount := model.publishAttemptCount+1
    version := model.version+1}

def claimedOutbox (model : AIJobOutboxModel) : Except AIJobFailure ClaimedOutbox :=
  match model.messageId, model.correlationId, model.nonce, model.signature,
      model.issuedAt, model.claimToken, model.claimFence, model.envelopeDigest with
  | some messageId, some correlationId, some nonce, some signature,
      some issuedAt, some claimToken, some claimFence, some digest =>
    match postInit aiJobEnvelopeChecks {
        schemaVersion := model.schemaVersion
        messageId := messageId
        jobId := model.jobId
        tenantId := model.tenantId
        correlationId := correlationId
        issuedAt := issuedAt
        nonce := nonce
        signature := signature} with
    | .error message => .error (.valueError message)
    | .ok envelope => .ok {
        id := model.id
        tenantId := model.tenantId
        jobId := model.jobId
        routingKey := model.routingKey
        envelope := envelope
        envelopeDigest := digest
        claimToken := claimToken
        claimFence := claimFence
        version := model.version
        publishAttemptCount := model.publishAttemptCount
        maxPublishAttempts := model.maxPublishAttempts}
  | _, _, _, _, _, _, _, _ => .error (.runtimeError "claimed outbox envelope is incomplete")

def claimOutboxRows (sha256 : List UInt8 → Digest) (batch : OutboxBatch) :
    ℕ → List AIJobOutboxModel → StoreTx (List ClaimedOutbox)
  | _, [] => pure []
  | k, model::models => do
    let signed ← ofExcept id (signedOutbox sha256 (batch.envelopeFactory k) model)
    let publishing := publishingOutbox batch k signed
    let claim ← ofExcept id (claimedOutbox publishing)
    let _ ← zoom outboxOf
      (updateRows .integrityError (fun o => o.id == model.id) fun _ => publishing)
    let claims ← claimOutboxRows sha256 batch (k+1) models
    pure (claim::claims)

def claimOutboxBatch (sha256 : List UInt8 → Digest) (batch : OutboxBatch) :
    StoreTx (List ClaimedOutbox) := do
  let models ← read fun s => dueBatch batch s.outbox
  claimOutboxRows sha256 batch 0 models

def outboxClaimedBy (claim : ClaimedOutbox) (o : AIJobOutboxModel) : Bool :=
  o.id == claim.id && o.claimToken == some claim.claimToken &&
  o.claimFence == some claim.claimFence && o.version == claim.version &&
  o.status == .publishing

def publishedOutbox (now : Time) (o : AIJobOutboxModel) : AIJobOutboxModel :=
  {o with
    status := .published
    publishedAt := some now
    confirmedAt := some now
    version := o.version+1}

def markPublished (claim : ClaimedOutbox) (now : Time) : StoreTx Bool := do
  let changed ← zoom outboxOf
    (updateRows .integrityError (outboxClaimedBy claim) (publishedOutbox now))
  pure (changed == 1)

def blockedOutbox (errorCode : PublisherErrorCode) (o : AIJobOutboxModel) : AIJobOutboxModel :=
  {o with
    status := .blocked
    lastErrorCode := some errorCode
    claimOwner := none
    claimToken := none
    claimFence := none
    claimExpiresAt := none
    version := o.version+1}

def releasedOutbox (errorCode : PublisherErrorCode) (now : Time) (o : AIJobOutboxModel) :
    AIJobOutboxModel :=
  {o with
    status := .pending
    lastErrorCode := some errorCode
    claimOwner := none
    claimToken := none
    claimFence := none
    claimExpiresAt := none
    availableAt := now+seconds 5
    version := o.version+1}

def releaseOrBlock (claim : ClaimedOutbox) (errorCode : PublisherErrorCode) (now : Time) :
    StoreTx Bool := do
  if claim.maxPublishAttempts ≤ claim.publishAttemptCount then
    let changed ← zoom outboxOf
      (updateRows .integrityError (outboxClaimedBy claim) (blockedOutbox errorCode))
    pure (changed == 1)
  else
    let changed ← zoom outboxOf
      (updateRows .integrityError (outboxClaimedBy claim) (releasedOutbox errorCode now))
    pure (changed == 1)

def inboxRow (tenantId messageId : UUID7) (s : Store) : Option AIJobInboxModel :=
  selectRow (fun i => i.tenantId == tenantId && i.messageId == messageId) s.inbox

def unboundInbox (inboxId : UUID7) (statuses : List InboxStatus) (i : AIJobInboxModel) : Bool :=
  i.id == inboxId && i.handlingAttemptId.isNone && i.handlingFence.isNone &&
  decide (i.status ∈ statuses)

def completedInbox (rejectionCode : Option String) (now : Time) (i : AIJobInboxModel) :
    AIJobInboxModel :=
  {i with
    status := .completed
    completedAt := some now
    rejectionCode := rejectionCode}

def completeInboxTerminal (inboxId : UUID7) (rejectionCode : Option String) (now : Time) :
    StoreTx Bool := do
  let changed ← zoom inboxOf (updateRows .integrityError
    (unboundInbox inboxId [.accepted,.processing]) (completedInbox rejectionCode now))
  pure (changed == 1)

def processingInbox (attemptId : UUID7) (leaseFence : ℕ) (now : Time) (i : AIJobInboxModel) :
    AIJobInboxModel :=
  {i with
    status := .processing
    handlingAttemptId := some attemptId
    handlingFence := some leaseFence
    lastReceivedAt := now}

/-- The foreign key of a bound row into `ai_job_attempts`. -/
def referencesAttempt (i : AIJobInboxModel) (s : Store) : Bool :=
  match i.handlingAttemptId, i.handlingFence with
  | some attemptId, some fence => s.attempts.rows.any fun a =>
      a.tenantId == i.tenantId && a.jobId == i.jobId && a.id == attemptId &&
      a.leaseFence == fence
  | _, _ => true

def bindInboxProcessing (inboxId attemptId : UUID7) (leaseFence : ℕ) (now : Time) :
    StoreTx Bool := do
  let changed ← zoom inboxOf (updateRows .integrityError
    (unboundInbox inboxId [.accepted]) (processingInbox attemptId leaseFence now))
  let bound ← read fun s => s.inbox.rows.all fun i => referencesAttempt i s
  require (bound = true) .integrityError
  pure (changed == 1)

def acceptedInbox (inboxId tenantId messageId jobId : UUID7) (digest nonceDigest : Digest)
    (now : Time) : AIJobInboxModel where
  id := inboxId
  tenantId := tenantId
  messageId := messageId
  jobId := jobId
  schemaVersion := 1
  envelopeDigest := digest
  nonceDigest := nonceDigest
  status := .accepted
  firstReceivedAt := now
  lastReceivedAt := now
  deliveryCount := 1

def insertInboxAccepted (inboxId tenantId messageId jobId : UUID7)
    (digest nonceDigest : Digest) (now : Time) : StoreTx Unit := do
  referencesJob tenantId jobId
  zoom inboxOf (insertRow .integrityError
    (acceptedInbox inboxId tenantId messageId jobId digest nonceDigest now))

end LawyerAgent.AIJobRepository
