import LawyerAgent.Idempotency

/-!
# Idempotency repository

A record is unique under scope type, scope, operation and key. Every update
names the record by its id, the status and the fingerprint it must still have.
-/

set_option autoImplicit false

namespace LawyerAgent.IdempotencyRepository
open Relational Common Idempotency

structure IdempotencyRecordModel where
  id : UUID7
  tenantId : Option UUID7
  scopeType : IdempotencyScopeType
  scopeId : UUID7
  operation : String
  keyHash : Digest
  requestFingerprint : Digest
  status : IdempotencyStatus := .reserved
  resultType : Option String := none
  resultId : Option UUID7 := none
  expiresAt : Time
  version : ℕ := 1
  updatedAt : Time

def idempotencyRecords : Schema IdempotencyRecordModel UUID7 where
  key := fun r => r.id
  check := fun r =>
    ((r.scopeType == .membership && r.tenantId.isSome) ||
      (decide (r.scopeType ∈ [.user,.platform]) && r.tenantId.isNone)) &&
    decide (r.version ≤ integerMax)
  clash := fun r s => r.scopeType == s.scopeType && r.scopeId == s.scopeId &&
    r.operation == s.operation && r.keyHash == s.keyHash

abbrev Records : Type := Table idempotencyRecords

abbrev RecordsTx (α : Type) : Type := Tx IdempotencyFailure Records α

structure NewIdempotencyRecord where
  id : UUID7
  scope : IdempotencyScope
  operation : String
  keyHash : Digest
  requestFingerprint : Digest
  expiresAt : Time

structure StoredIdempotencyRecord where
  id : UUID7
  scope : IdempotencyScope
  operation : String
  keyHash : Digest
  requestFingerprint : Digest
  status : IdempotencyStatus
  result : Option IdempotencyResultReference
  expiresAt : Time

structure AcquiredIdempotencyRecord where
  record : StoredIdempotencyRecord
  inserted : Bool

def storedResult (model : IdempotencyRecordModel) :
    Except IdempotencyFailure (Option IdempotencyResultReference) :=
  match model.resultType, model.resultId with
  | none, none => .ok none
  | some resultType, some resultId => some <$> deserializeResultType resultType resultId
  | _, _ => .error (.stateError "idempotency result reference is incomplete")

def stored (model : IdempotencyRecordModel) :
    Except IdempotencyFailure StoredIdempotencyRecord := do
  let result ← storedResult model
  let scope ← (postInit idempotencyScopeChecks
    ⟨model.scopeType,model.scopeId,model.tenantId⟩).mapError .valueError
  .ok {
    id := model.id
    scope := scope
    operation := model.operation
    keyHash := model.keyHash
    requestFingerprint := model.requestFingerprint
    status := model.status
    result := result
    expiresAt := model.expiresAt}

def candidateModel (candidate : NewIdempotencyRecord) (currentTimestamp : Time) :
    IdempotencyRecordModel where
  id := candidate.id
  tenantId := candidate.scope.value.tenantId
  scopeType := candidate.scope.value.scopeType
  scopeId := candidate.scope.value.scopeId
  operation := candidate.operation
  keyHash := candidate.keyHash
  requestFingerprint := candidate.requestFingerprint
  expiresAt := candidate.expiresAt
  updatedAt := currentTimestamp

def hasKey (candidate : NewIdempotencyRecord) (r : IdempotencyRecordModel) : Bool :=
  r.scopeType == candidate.scope.value.scopeType &&
  r.scopeId == candidate.scope.value.scopeId &&
  r.operation == candidate.operation && r.keyHash == candidate.keyHash

def acquire (candidate : NewIdempotencyRecord) (currentTimestamp : Time) :
    RecordsTx AcquiredIdempotencyRecord := do
  insertOrKeep .integrityError (candidateModel candidate currentTimestamp)
  let model ← read (selectRow (hasKey candidate))
  let model ← orFail (.stateError "idempotency record disappeared during reservation") model
  let record ← ofExcept id (stored model)
  require (record.scope.value = candidate.scope.value)
    (.stateError "idempotency scope collision")
  pure ⟨record,model.id == candidate.id⟩

def restartable (recordId : UUID7) (oldRequestFingerprint : Digest)
    (allowedStatuses : List IdempotencyStatus) (expiredBefore : Option Time)
    (r : IdempotencyRecordModel) : Bool :=
  r.id == recordId && r.requestFingerprint == oldRequestFingerprint &&
  decide (r.status ∈ allowedStatuses) &&
  expiredBefore.all fun t => decide (r.expiresAt ≤ t)

def restartedRecord (newRequestFingerprint : Digest) (expiresAt : Time)
    (r : IdempotencyRecordModel) : IdempotencyRecordModel :=
  {r with
    requestFingerprint := newRequestFingerprint
    status := .reserved
    resultType := none
    resultId := none
    expiresAt := expiresAt
    version := r.version+1}

def restart (recordId : UUID7) (oldRequestFingerprint newRequestFingerprint : Digest)
    (allowedStatuses : List IdempotencyStatus) (expiredBefore : Option Time)
    (expiresAt : Time) : RecordsTx Bool := do
  require (allowedStatuses ≠ [])
    (.valueError "idempotency restart statuses must be strongly typed")
  let changed ← updateRows .integrityError
    (restartable recordId oldRequestFingerprint allowedStatuses expiredBefore)
    (restartedRecord newRequestFingerprint expiresAt)
  pure (changed == 1)

/-- The condition under which a record is completed or failed. -/
def reservedFor (recordId : UUID7) (requestFingerprint : Digest)
    (r : IdempotencyRecordModel) : Bool :=
  r.id == recordId && r.status == .reserved && r.requestFingerprint == requestFingerprint

def completedRecord (resultType : String) (resultId : UUID7) (now : Time)
    (r : IdempotencyRecordModel) : IdempotencyRecordModel :=
  {r with
    status := .completed
    resultType := some resultType
    resultId := some resultId
    version := r.version+1
    updatedAt := now}

def complete (recordId : UUID7) (requestFingerprint : Digest)
    (result : IdempotencyResultReference) (now : Time) : RecordsTx Bool := do
  let resultType ← ofExcept id (serializeResultType result)
  let changed ← updateRows .integrityError (reservedFor recordId requestFingerprint)
    (completedRecord resultType result.value.resultId now)
  pure (changed == 1)

def failedRecord (now : Time) (r : IdempotencyRecordModel) : IdempotencyRecordModel :=
  {r with
    status := .failed
    resultType := none
    resultId := none
    version := r.version+1
    updatedAt := now}

def fail (recordId : UUID7) (requestFingerprint : Digest) (now : Time) : RecordsTx Bool := do
  let changed ← updateRows .integrityError (reservedFor recordId requestFingerprint)
    (failedRecord now)
  pure (changed == 1)

end LawyerAgent.IdempotencyRepository
