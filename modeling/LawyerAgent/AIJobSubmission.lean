import LawyerAgent.AIJobDomain
import LawyerAgent.Envelope

/-!
# Submission of an AI job

The job, the durable grant and the first outbox row that `AIJobService.create`
builds from an accepted command. The grant always records the owner-and-shared
scope, whatever the roles of the submitter.
-/

set_option autoImplicit false

namespace LawyerAgent.AIJobSubmission
open Common AIJobDomain Envelope

structure CreateAIJobFields where
  tenantId : UUID7
  membershipId : UUID7
  userId : UUID7
  sessionId : UUID7
  authVersion : ℕ
  authzVersion : ℕ
  idempotencyKey : String
  kind : String := syntheticHandlerKind
  scenario : String := "success"
  workUnits : ℤ := 1

def createAIJobChecks : Checks CreateAIJobFields := fun c =>
  [(c.idempotencyKey ≠ "","idempotency key must be non-empty text"),
   (c.kind = syntheticHandlerKind,"only the synthetic handler is currently available"),
   (c.scenario ∈ ["success","retry_once","permanent_failure","wait_for_cancel"],
    "unknown synthetic scenario"),
   (1 ≤ c.workUnits ∧ c.workUnits ≤ 10,"work units must be between 1 and 10")]

abbrev CreateAIJobCommand : Type := Checked createAIJobChecks

/-- The identifiers drawn by one creation. -/
structure CreationIds where
  jobId : UUID7
  correlationId : UUID7
  grantId : UUID7
  outboxId : UUID7

def inputFingerprint : Digest :=
  0x6969696969696969696969696969696969696969696969696969696969696969

def uuidJson (u : UUID7) : Json := .string (String.ofList (uuidText u))

def submittedJob (command : CreateAIJobFields) (ids : CreationIds) (recordId : UUID7)
    (now : Time) : AIJobFields where
  id := ids.jobId
  tenantId := command.tenantId
  handlerCode := command.kind
  handlerVersion := "v1"
  inputSchemaVersion := syntheticInputSchemaVersion
  inputJson := [("scenario",.string command.scenario),("work_units",.number command.workUnits)]
  inputFingerprint := inputFingerprint
  createdByUserId := command.userId
  createdByMembershipId := command.membershipId
  createdBySessionId := command.sessionId
  actorSnapshotJson :=
    [("user_id",uuidJson command.userId),
     ("membership_id",uuidJson command.membershipId),
     ("session_id",uuidJson command.sessionId),
     ("auth_version",.number command.authVersion),
     ("authz_version",.number command.authzVersion)]
  policyVersionAtSubmit := jobPolicyVersion
  visibility := .ownerOnly
  status := .queued
  currentAttemptNo := 0
  maxAttempts := 4
  riskClass := .synthetic
  releaseState := .nonPublishable
  idempotencyRecordId := recordId
  correlationId := ids.correlationId
  submittedAt := now
  expiresAt := now+hours 1
  version := 1

def submittedGrant (command : CreateAIJobFields) (ids : CreationIds) (now : Time) :
    JobExecutionGrantFields where
  id := ids.grantId
  tenantId := command.tenantId
  jobId := ids.jobId
  userId := command.userId
  membershipId := command.membershipId
  permissionCode := .create
  authVersionAtSubmit := command.authVersion
  authzVersionAtSubmit := command.authzVersion
  policyVersion := jobPolicyVersion
  jobScopeManifestVersion := jobScopeManifestVersion
  jobScopeCode := .ownerShared
  issuedAt := now
  version := 1

def submittedOutbox (command : CreateAIJobFields) (ids : CreationIds) (now : Time) :
    NewAIJobOutboxFields where
  id := ids.outboxId
  tenantId := command.tenantId
  jobId := ids.jobId
  dispatchGeneration := 1
  envelopeGeneration := 1
  maxEnvelopeGenerations := 4
  eventType := "ai_job.execute_requested"
  routingKey := "ai.job.execute"
  schemaVersion := 1
  availableAt := now

def submittedGraph (command : CreateAIJobFields) (ids : CreationIds) (recordId : UUID7)
    (now : Time) : Except String NewAIJobGraph := do
  let job ← postInit aiJobChecks (submittedJob command ids recordId now)
  let grant ← postInit jobExecutionGrantChecks (submittedGrant command ids now)
  let outbox ← postInit newAIJobOutboxChecks (submittedOutbox command ids now)
  postInit newAIJobGraphChecks ⟨job,grant,outbox⟩

theorem submittedGraph_ok {command : CreateAIJobFields} {ids : CreationIds}
    {recordId : UUID7} {now : Time} {graph : NewAIJobGraph}
    (h : submittedGraph command ids recordId now = .ok graph) :
    graph.value.job.value = submittedJob command ids recordId now ∧
    graph.value.grant.value = submittedGrant command ids now ∧
    graph.value.outbox.value = submittedOutbox command ids now := by
  simp only [submittedGraph,bind,Except.bind] at h
  split at h
  · cases h
  rename_i job hjob
  split at h
  · cases h
  rename_i grant hgrant
  split at h
  · cases h
  rename_i outbox houtbox
  rw [postInit_ok h]
  exact ⟨postInit_ok hjob,postInit_ok hgrant,postInit_ok houtbox⟩

end LawyerAgent.AIJobSubmission
