import LawyerAgent.MembershipMutation

/-!
# Outbox of authorization cache invalidations

A row is pending until a dispatcher claims it or the call that wrote it has
invalidated the cache itself. A claim expires with its lease and is taken
over under a new token.
-/

set_option autoImplicit false

namespace LawyerAgent.AuthorizationCacheOutbox
open Relational Common TenantWorkflowTables
open TenantAuthorization

abbrev CacheOutbox : Type := Table authzCacheInvalidationOutbox

abbrev OutboxTx (α : Type) : Type := Tx TenancyFailure CacheOutbox α

structure AuthorizationCacheInvalidationTask where
  id : UUID7
  tenantId : UUID7
  membershipId : UUID7
  authzVersion : ℕ
  idempotencyRecordId : UUID7
  attemptCount : ℕ
  claimToken : Option UUID7
deriving DecidableEq

def task (o : AuthorizationCacheInvalidationOutboxModel) : AuthorizationCacheInvalidationTask where
  id := o.id
  tenantId := o.tenantId
  membershipId := o.membershipId
  authzVersion := o.authzVersion
  idempotencyRecordId := o.idempotencyRecordId
  attemptCount := o.attemptCount
  claimToken := o.claimToken

def claimable (now processingExpiredBefore : Time)
    (o : AuthorizationCacheInvalidationOutboxModel) : Bool :=
  (o.status == .pending && decide (o.availableAt ≤ now)) ||
  (o.status == .processing && o.processingStartedAt.any (decide <| · ≤ processingExpiredBefore))

def availableBefore (o p : AuthorizationCacheInvalidationOutboxModel) : Prop :=
  o.availableAt < p.availableAt ∨ o.availableAt = p.availableAt ∧ o.id.int.toNat ≤ p.id.int.toNat

instance : DecidableRel availableBefore :=
  fun _ _ => inferInstanceAs (Decidable (_ ∨ _))

/-- One claim: `locked` rows are skipped, `newToken` draws the tokens. -/
structure ClaimBatch where
  now : Time
  processingExpiredBefore : Time
  limit : ℕ
  locked : UUID7 → Bool
  newToken : UUID7 → UUID7

def claimedBatch (b : ClaimBatch) (t : CacheOutbox) :
    List AuthorizationCacheInvalidationOutboxModel :=
  ((selectRows (fun o => claimable b.now b.processingExpiredBefore o && !b.locked o.id)
    t).insertionSort availableBefore).take b.limit

def claimedRow (b : ClaimBatch) (o : AuthorizationCacheInvalidationOutboxModel) :
    AuthorizationCacheInvalidationOutboxModel :=
  {o with
    status := .processing
    attemptCount := o.attemptCount+1
    processingStartedAt := some b.now
    claimToken := some (b.newToken o.id)
    lastErrorCode := none
    version := o.version+1
    updatedAt := b.now}

def inBatch (b : ClaimBatch) (t : CacheOutbox) (o : AuthorizationCacheInvalidationOutboxModel) :
    Bool :=
  (claimedBatch b t).any fun c => c.id == o.id

def claimBatch (b : ClaimBatch) : OutboxTx (List AuthorizationCacheInvalidationTask) := do
  require (1 ≤ b.limit ∧ b.limit ≤ 100) (.valueError "cache invalidation claim limit is invalid")
  let t ← read id
  let _ ← updateRows .integrityError (inBatch b t) (claimedRow b)
  pure ((claimedBatch b t).map fun o => task (claimedRow b o))

def completedRow (now : Time) (o : AuthorizationCacheInvalidationOutboxModel) :
    AuthorizationCacheInvalidationOutboxModel :=
  {o with
    status := .completed
    completedAt := some now
    processingStartedAt := none
    claimToken := none
    lastErrorCode := none
    version := o.version+1
    updatedAt := now}

def isPending (taskId : UUID7) (o : AuthorizationCacheInvalidationOutboxModel) : Bool :=
  o.id == taskId && o.status == .pending

def markImmediateCompleted (taskId : UUID7) (now : Time) : OutboxTx Bool := do
  let changed ← updateRows .integrityError (isPending taskId) (completedRow now)
  pure (changed == 1)

def heldUnder (taskId claimToken : UUID7) (o : AuthorizationCacheInvalidationOutboxModel) :
    Bool :=
  o.id == taskId && o.status == .processing && o.claimToken == some claimToken

def markCompleted (taskId claimToken : UUID7) (now : Time) : OutboxTx Bool := do
  let changed ← updateRows .integrityError (heldUnder taskId claimToken) (completedRow now)
  pure (changed == 1)

def releasedRow (availableAt : Time) (errorCode : String) (now : Time)
    (o : AuthorizationCacheInvalidationOutboxModel) : AuthorizationCacheInvalidationOutboxModel :=
  {o with
    status := .pending
    availableAt := availableAt
    processingStartedAt := none
    claimToken := none
    lastErrorCode := some errorCode
    version := o.version+1
    updatedAt := now}

def releaseFailed (taskId claimToken : UUID7) (availableAt : Time) (errorCode : String)
    (now : Time) : OutboxTx Bool := do
  require (errorCode = "cache_unavailable")
    (.valueError "cache invalidation outbox error code is invalid")
  let changed ← updateRows .integrityError (heldUnder taskId claimToken)
    (releasedRow availableAt errorCode now)
  pure (changed == 1)

structure DispatcherFields where
  processingLease : Time := seconds 300

def dispatcherChecks : Checks DispatcherFields := fun d =>
  [(0 < d.processingLease,"cache invalidation dispatcher dependencies are invalid")]

/-- The claim of one `run_once`. -/
def runClaim (dispatcher : Checked dispatcherChecks) (now : Time) (limit : ℕ)
    (locked : UUID7 → Bool) (newToken : UUID7 → UUID7) : ClaimBatch where
  now := now
  processingExpiredBefore := now-dispatcher.value.processingLease
  limit := limit
  locked := locked
  newToken := newToken

def retryAt (now : Time) (attemptCount : ℕ) : Time :=
  now+seconds (min 300 (2^min attemptCount 8))

/-- What `run_once` does with a task once the cache has answered. -/
def settleTask (now : Time) (t : AuthorizationCacheInvalidationTask) (invalidated : Bool) :
    OutboxTx Bool := do
  let claimToken ← orFail (.runtimeError "claimed cache task is missing its fencing token")
    t.claimToken
  if invalidated then markCompleted t.id claimToken now
  else releaseFailed t.id claimToken (retryAt now t.attemptCount) "cache_unavailable" now

end LawyerAgent.AuthorizationCacheOutbox
