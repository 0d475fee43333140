import LawyerAgent.CanonicalJson
import LawyerAgent.SessionTables

/-!
# Contract review tables

One row for each review run. The three columns of its PDF are set together,
and so are the two of its failure lease.
-/

set_option autoImplicit false

namespace LawyerAgent.ContractReviewTables
open Relational Common CanonicalJson IdentityTables
open SessionTables

inductive RunStatus where
  | awaitingUpload
  | uploaded
  | running
  | draft
  | noEvidence
  | failed
  | cancelled
deriving DecidableEq, Repr

def RunStatus.terminal : RunStatus → Bool
  | .draft | .noEvidence | .failed | .cancelled => true
  | _ => false

structure ContractReviewRunModel where
  id : UUID7
  tenantId : UUID7
  createdByUserId : UUID7
  createdByMembershipId : UUID7
  idempotencyHash : Digest
  requestFingerprint : Digest
  filename : String
  instruction : String
  asOf : ℤ
  status : RunStatus := .awaitingUpload
  pdfObjectKey : Option String := none
  pdfSha256 : Option Digest := none
  pdfSize : Option ℤ := none
  parsedDocument : Option JsonObject := none
  resultJson : Option JsonObject := none
  evidenceManifest : Option JsonObject := none
  failureCode : Option String := none
  failureLeaseHash : Option Digest := none
  failureLeaseExpiresAt : Option Time := none
  version : ℕ := 1
  createdAt : Time
  updatedAt : Time

def pdfIdentityOk (r : ContractReviewRunModel) : Bool :=
  (r.pdfObjectKey.isNone && r.pdfSha256.isNone && r.pdfSize.isNone) ||
  (r.pdfObjectKey.isSome && r.pdfSha256.isSome && r.pdfSize.isSome)

def contractReviewRuns : Schema ContractReviewRunModel UUID7 where
  key := fun r => r.id
  check := fun r =>
    r.pdfSize.all (fun size => 1 ≤ size && size ≤ 52428800) && pdfIdentityOk r &&
    r.failureLeaseHash.isSome == r.failureLeaseExpiresAt.isSome &&
    decide (r.version ≤ integerMax)
  clash := fun r s => r.tenantId == s.tenantId &&
    r.createdByMembershipId == s.createdByMembershipId && r.idempotencyHash == s.idempotencyHash

structure ContractDatabase where
  identity : Identity
  sessions : Table authSessions
  runs : Table contractReviewRuns

def runsOf : Lens ContractDatabase (Table contractReviewRuns) where
  get := ContractDatabase.runs
  set := fun t s => {s with runs := t}
  get_set := fun _ _ => rfl
  set_get := fun _ => rfl

structure FailureLease where
  tenantId : UUID7
  runId : UUID7
  token : String

structure RunRecord where
  id : UUID7
  tenantId : UUID7
  createdByUserId : UUID7
  createdByMembershipId : UUID7
  filename : String
  instruction : String
  asOf : ℤ
  status : RunStatus
  pdfObjectKey : Option String
  pdfSha256 : Option String
  pdfSize : Option ℤ
  parsedDocument : Option JsonObject
  result : Option JsonObject
  evidenceManifest : Option JsonObject
  failureCode : Option String
  version : ℕ
  createdAt : Time
  updatedAt : Time
  failureLease : Option FailureLease := none

/-- `_record` -/
def recordOf (r : ContractReviewRunModel) : RunRecord where
  id := r.id
  tenantId := r.tenantId
  createdByUserId := r.createdByUserId
  createdByMembershipId := r.createdByMembershipId
  filename := r.filename
  instruction := r.instruction
  asOf := r.asOf
  status := r.status
  pdfObjectKey := r.pdfObjectKey
  pdfSha256 := r.pdfSha256.map hex
  pdfSize := r.pdfSize
  parsedDocument := r.parsedDocument
  result := r.resultJson
  evidenceManifest := r.evidenceManifest
  failureCode := r.failureCode
  version := r.version
  createdAt := r.createdAt
  updatedAt := r.updatedAt

end LawyerAgent.ContractReviewTables

namespace LawyerAgent.ContractReviewPayloads
open Common CanonicalJson

/-- `model_validate` of the models a manifest embeds. -/
structure WireModels where
  verificationReport : Json → Bool
  retrievalReceipt : Json → Bool

def evidenceKeys : List String :=
  ["document_id","title","version","content_hash","source_ref","quality_flags","legal_metadata"]

def modelCallKeys : List String := ["operation","model_ref","status","latency_ms","usage"]

def mcpToolKeys : List String := ["name","capability","description","status"]

def keysOf (object : JsonObject) : List String := object.map Prod.fst

def sameKeys (keys expected : List String) : Bool :=
  keys.all (expected.contains ·) && expected.all (keys.contains ·)

/-- `str` of a value that prints as 64 hexadecimal digits, which a text or a
number may; the first component tells them apart. -/
def hexIdentity : Option Json → Option (Bool × String)
  | some (.string s) => if isHex 64 s.toList then some (true,s) else none
  | some (.number n) =>
    if isHex 64 (toString n).toList then some (false,toString n) else none
  | _ => none

def listOf : Option Json → Option (List Json)
  | some (.array items) => some items
  | _ => none

/-- `value.get(key, [])` -/
def listOrEmpty (object : JsonObject) (key : String) : Option (List Json) :=
  match List.lookup key object with
  | none => some []
  | value => listOf value

def textWithin (bound : ℕ) : Option Json → Bool
  | some (.string s) => 1 ≤ s.length && s.length ≤ bound
  | _ => false

def parsedDocumentOk (parsed : JsonObject) : Bool :=
  (hexIdentity (List.lookup "document_version_id" parsed)).isSome &&
  (listOf (List.lookup "blocks" parsed)).any (fun blocks => blocks.length ≤ 20000) &&
  (listOf (List.lookup "page_dimensions" parsed)).any (fun dimensions => dimensions.length ≤ 10000)

def manifestRequired : List String := ["documents","model_calls"]

def manifestOptional : List String := ["verification_report","retrieval_calls","mcp_tools"]

/-- `_validate_manifest_keys` -/
def manifestKeysOk (m : WireModels) (manifest : JsonObject) : Bool :=
  manifestRequired.all ((keysOf manifest).contains ·) &&
  (keysOf manifest).all ((manifestRequired++manifestOptional).contains ·) &&
  (listOrEmpty manifest "retrieval_calls").any (fun calls =>
    calls.length ≤ 7 && calls.all m.retrievalReceipt)

def verificationReportOk (m : WireModels) (manifest : JsonObject) : Bool :=
  (List.lookup "verification_report" manifest).all m.verificationReport

/-- A status that is a list or an object is not hashable, which is an error as well. -/
def mcpToolOk : Json → Bool
  | .object item =>
    sameKeys (keysOf item) mcpToolKeys &&
    textWithin 120 (List.lookup "name" item) &&
    textWithin 120 (List.lookup "capability" item) &&
    textWithin 500 (List.lookup "description" item) &&
    (match List.lookup "status" item with
      | some (.string status) => status == "discovered" || status == "authorized"
      | _ => false) &&
    jsonSize (.object item) ≤ 2048
  | _ => false

/-- `_validate_mcp_tools` -/
def mcpToolsOk (manifest : JsonObject) : Bool :=
  (listOrEmpty manifest "mcp_tools").any fun tools =>
    tools.length ≤ 32 && tools.all mcpToolOk

def modelCallOk : Json → Bool
  | .object item => sameKeys (keysOf item) modelCallKeys && jsonSize (.object item) ≤ 4096
  | _ => false

def evidenceDocumentOk : Json → Bool
  | .object item =>
    sameKeys (keysOf item) evidenceKeys &&
    (hexIdentity (List.lookup "document_id" item)).isSome &&
    (hexIdentity (List.lookup "content_hash" item)).isSome &&
    jsonSize (.object item) ≤ 16384
  | _ => false

def documentIdentity : Json → Option (Bool × String)
  | .object item => hexIdentity (List.lookup "document_id" item)
  | _ => none

def manifestSizesOk (manifest : JsonObject) (documents modelCalls : List Json) : Bool :=
  documents.length ≤ 7 && modelCalls.length ≤ 100 && jsonSize (.object manifest) ≤ 262144

def finishManifestOk (m : WireModels) (manifest : JsonObject) : Bool :=
  manifestKeysOk m manifest && verificationReportOk m manifest &&
  (listOf (List.lookup "documents" manifest)).any (fun documents =>
    (listOf (List.lookup "model_calls" manifest)).any (fun modelCalls =>
      manifestSizesOk manifest documents modelCalls && mcpToolsOk manifest &&
      documents.all evidenceDocumentOk && (documents.map documentIdentity).Nodup &&
      modelCalls.all modelCallOk))

/-- `_validate_failure_manifest` -/
def failureManifestOk (m : WireModels) (manifest : JsonObject) : Bool :=
  manifestKeysOk m manifest && verificationReportOk m manifest &&
  (listOf (List.lookup "documents" manifest)).any (fun documents =>
    (listOf (List.lookup "model_calls" manifest)).any (fun modelCalls =>
      documents.isEmpty && manifestSizesOk manifest documents modelCalls &&
      mcpToolsOk manifest && modelCalls.all modelCallOk))

/-- `_validate_finish_payloads`: every error of a manifest has one text. -/
def finishPayloadChecks (m : WireModels) (result parsed manifest : JsonObject) :
    List (Bool × String) :=
  [(jsonSize (.object result) ≤ 2097152,"result_too_large"),
   (jsonSize (.object parsed) ≤ 2097152,"parsed_document_too_large"),
   (parsedDocumentOk parsed,"parsed_document_invalid"),
   (finishManifestOk m manifest,"evidence_manifest_invalid")]

end LawyerAgent.ContractReviewPayloads
