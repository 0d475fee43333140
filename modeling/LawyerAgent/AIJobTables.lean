import LawyerAgent.AIJobDomain
import LawyerAgent.Relational.Table

/-!
# AI job tables

The rows of the five runtime tables and their constraints. Foreign keys
between these tables are checked by the statements that insert or bind rows;
those into the identity tables belong to other components.
-/

set_option autoImplicit false

namespace LawyerAgent.AIJobTables
open Relational Common AIJobDomain

inductive AttemptStatus where
  | claimed
  | running
  | succeeded
  | retryableFailed
  | permanentFailed
  | cancelled
  | leaseExpired
deriving DecidableEq, Repr

inductive OutboxStatus where
  | pending
  | publishing
  | published
  | blocked
  | superseded
deriving DecidableEq, Repr

inductive PublisherErrorCode where
  | rabbitUnroutable
  | rabbitNack
  | rabbitTimeout
  | rabbitChannelClosed
  | rabbitConnectionLost
  | publishExhausted
deriving DecidableEq, Repr

structure AIJobModel extends AIJobFields where
  updatedAt : Time

structure AIJobExecutionGrantModel extends JobExecutionGrantFields

structure AIJobAttemptModel where
  id : UUID7
  tenantId : UUID7
  jobId : UUID7
  attemptNo : ℕ
  status : AttemptStatus := .claimed
  triggerMessageId : UUID7
  workerInstanceRef : Option String
  leaseToken : UUID7
  leaseFence : ℕ
  handlerCode : String
  handlerVersion : String
  startedAt : Time
  finishedAt : Option Time := none
  version : ℕ := 1
  updatedAt : Time

structure AIJobOutboxModel where
  id : UUID7
  tenantId : UUID7
  jobId : UUID7
  dispatchGeneration : ℕ
  envelopeGeneration : ℕ := 1
  maxEnvelopeGenerations : ℕ := 4
  eventType : String
  routingKey : String
  schemaVersion : ℕ := 1
  messageId : Option UUID7 := none
  correlationId : Option UUID7 := none
  issuedAt : Option Time := none
  nonce : Option String := none
  signature : Option String := none
  envelopeDigest : Option Digest := none
  status : OutboxStatus := .pending
  availableAt : Time
  publishAttemptCount : ℕ := 0
  maxPublishAttempts : ℕ := 8
  claimOwner : Option String := none
  claimToken : Option UUID7 := none
  claimFence : Option ℕ := none
  claimExpiresAt : Option Time := none
  publishedAt : Option Time := none
  confirmedAt : Option Time := none
  lastErrorCode : Option PublisherErrorCode := none
  version : ℕ := 1

structure AIJobInboxModel where
  id : UUID7
  tenantId : UUID7
  messageId : UUID7
  jobId : UUID7
  schemaVersion : ℕ := 1
  envelopeDigest : Digest
  nonceDigest : Digest
  status : InboxStatus := .accepted
  firstReceivedAt : Time
  lastReceivedAt : Time
  deliveryCount : ℕ := 1
  handlingAttemptId : Option UUID7 := none
  handlingFence : Option ℕ := none
  completedAt : Option Time := none
  rejectionCode : Option String := none

def leaseConsistency (j : AIJobModel) : Bool :=
  (j.leaseOwner.isNone && j.leaseToken.isNone && j.leaseFence.isNone &&
    j.leaseExpiresAt.isNone && decide (j.status ∉ leaseHoldingStatuses)) ||
  (j.leaseOwner.isSome && j.leaseToken.isSome && j.leaseFence.isSome &&
    j.leaseExpiresAt.isSome && decide (j.status ∈ leaseHoldingStatuses))

def terminalConsistency (j : AIJobModel) : Bool :=
  (decide (j.status ∈ terminalJobStatuses) && j.completedAt.isSome &&
    j.nextAttemptAt.isNone) ||
  (decide (j.status ∉ terminalJobStatuses) && j.completedAt.isNone)

/-- The unique constraint on `(tenant_id, id)` follows from the primary key. -/
def aiJobs : Schema AIJobModel UUID7 where
  key := fun j => j.id
  check := fun j =>
    decide (1 ≤ j.maxAttempts ∧ j.maxAttempts ≤ 10) &&
    decide (j.currentAttemptNo ≤ j.maxAttempts) &&
    leaseConsistency j && terminalConsistency j &&
    decide (j.submittedAt < j.expiresAt ∧ j.expiresAt ≤ j.submittedAt+hours 24) &&
    decide (j.version ≤ integerMax) && j.leaseFence.all (decide <| · ≤ integerMax)
  clash := fun _ _ => false

def aiJobExecutionGrants : Schema AIJobExecutionGrantModel UUID7 where
  key := fun g => g.id
  check := fun g =>
    decide (g.permissionCode = .create) &&
    (g.revokedAt.isNone == g.revocationReasonCode.isNone) &&
    decide (g.authVersionAtSubmit ≤ integerMax) &&
    decide (g.authzVersionAtSubmit ≤ integerMax)
  clash := fun g h => g.tenantId == h.tenantId && g.jobId == h.jobId

def aiJobAttempts : Schema AIJobAttemptModel UUID7 where
  key := fun a => a.id
  check := fun a =>
    decide (1 ≤ a.attemptNo ∧ a.attemptNo ≤ 10) &&
    decide (a.leaseFence ≤ integerMax) && decide (a.version ≤ integerMax)
  clash := fun a b => a.tenantId == b.tenantId &&
    ((a.jobId == b.jobId && a.attemptNo == b.attemptNo) ||
      a.triggerMessageId == b.triggerMessageId)

/-- `NULL` message ids do not collide. -/
def aiJobOutbox : Schema AIJobOutboxModel UUID7 where
  key := fun o => o.id
  check := fun o =>
    decide (1 ≤ o.envelopeGeneration ∧ o.envelopeGeneration ≤ o.maxEnvelopeGenerations) &&
    decide (1 ≤ o.maxEnvelopeGenerations ∧ o.maxEnvelopeGenerations ≤ 4) &&
    decide (o.publishAttemptCount ≤ integerMax) &&
    ((o.claimOwner.isNone && o.claimToken.isNone && o.claimFence.isNone &&
        o.claimExpiresAt.isNone) ||
      (o.claimOwner.isSome && o.claimToken.isSome && o.claimFence.isSome &&
        o.claimExpiresAt.isSome)) &&
    decide (o.version ≤ integerMax) && o.claimFence.all (decide <| · ≤ integerMax)
  clash := fun o p => o.tenantId == p.tenantId &&
    ((o.jobId == p.jobId && o.dispatchGeneration == p.dispatchGeneration &&
        o.envelopeGeneration == p.envelopeGeneration) ||
      (o.messageId.isSome && o.messageId == p.messageId))

def aiJobInbox : Schema AIJobInboxModel UUID7 where
  key := fun i => i.id
  check := fun i => i.handlingAttemptId.isNone == i.handlingFence.isNone
  clash := fun i k => i.tenantId == k.tenantId &&
    (i.messageId == k.messageId || i.nonceDigest == k.nonceDigest)

structure Store where
  jobs : Table aiJobs
  grants : Table aiJobExecutionGrants
  attempts : Table aiJobAttempts
  outbox : Table aiJobOutbox
  inbox : Table aiJobInbox

def Store.empty : Store :=
  ⟨Table.empty,Table.empty,Table.empty,Table.empty,Table.empty⟩

def jobsOf : Lens Store (Table aiJobs) where
  get := Store.jobs
  set := fun t s => {s with jobs := t}
  get_set := fun _ _ => rfl
  set_get := fun _ => rfl

def grantsOf : Lens Store (Table aiJobExecutionGrants) where
  get := Store.grants
  set := fun t s => {s with grants := t}
  get_set := fun _ _ => rfl
  set_get := fun _ => rfl

def attemptsOf : Lens Store (Table aiJobAttempts) where
  get := Store.attempts
  set := fun t s => {s with attempts := t}
  get_set := fun _ _ => rfl
  set_get := fun _ => rfl

def outboxOf : Lens Store (Table aiJobOutbox) where
  get := Store.outbox
  set := fun t s => {s with outbox := t}
  get_set := fun _ _ => rfl
  set_get := fun _ => rfl

def inboxOf : Lens Store (Table aiJobInbox) where
  get := Store.inbox
  set := fun t s => {s with inbox := t}
  get_set := fun _ _ => rfl
  set_get := fun _ => rfl

theorem job_lease {t : Table aiJobs} {j : AIJobModel} (h : j ∈ t) :
    j.leaseOwner.isSome = decide (j.status ∈ leaseHoldingStatuses) ∧
    j.leaseToken.isSome = decide (j.status ∈ leaseHoldingStatuses) ∧
    j.leaseFence.isSome = decide (j.status ∈ leaseHoldingStatuses) ∧
    j.leaseExpiresAt.isSome = decide (j.status ∈ leaseHoldingStatuses) := by
  have hc := checked h
  have hl : leaseConsistency j = true := by
    simp only [aiJobs,Bool.and_eq_true] at hc
    exact hc.1.1.1.1.2
  by_cases hs : j.status ∈ leaseHoldingStatuses
  · simpa [leaseConsistency,hs,and_assoc] using hl
  · simpa [leaseConsistency,hs,and_assoc] using hl

theorem job_terminal {t : Table aiJobs} {j : AIJobModel} (h : j ∈ t) :
    j.completedAt.isSome = decide (j.status ∈ terminalJobStatuses) ∧
    (j.status ∈ terminalJobStatuses → j.nextAttemptAt = none) := by
  have hc := checked h
  have ht : terminalConsistency j = true := by
    simp only [aiJobs,Bool.and_eq_true] at hc
    exact hc.1.1.1.2
  by_cases hs : j.status ∈ terminalJobStatuses
  · simpa [terminalConsistency,hs] using ht
  · simpa [terminalConsistency,hs] using ht

end LawyerAgent.AIJobTables
