import LawyerAgent.IdempotencyFingerprint
import LawyerAgent.IdempotencyService
import LawyerAgent.PythonText
import LawyerAgent.Relational.Evolution
import LawyerAgent.Relational.Run

/-!
# Registering documents

`MatterDocumentHttpService.register_document`: the matter is looked up in the
tenant of the call, the request is reserved under its idempotency key, and a
new document with its first version is stored together with the completed
reservation. A replay returns the document of the completed reservation.
-/

set_option autoImplicit false

namespace LawyerAgent.MatterDocuments
open Relational Common PythonText
open Idempotency IdempotencyRepository IdempotencyService
open IdempotencyFingerprint
open CanonicalJson (hex)
open Envelope (digits)

inductive DocumentUploadStatus where
  | uploaded
  | validating
  | accepted
  | needsReview
  | parsing
  | ready
  | failed
deriving DecidableEq

inductive DocumentKind where
  | original
  | derived
deriving DecidableEq

structure TenantMatter where
  id : UUID7
  tenantId : UUID7

structure TenantDocument where
  id : UUID7
  tenantId : UUID7
  matterId : UUID7
  displayName : String
  currentVersionNo : ℕ
  version : ℕ

/-- The review and parser fields are left unset by an upload. -/
structure DocumentVersion where
  id : UUID7
  tenantId : UUID7
  documentId : UUID7
  versionNo : ℕ
  kind : DocumentKind
  objectKey : String
  sha256 : Digest
  uploadStatus : DocumentUploadStatus
  fileName : String
  mimeType : String
  sizeBytes : ℕ
  createdByUserId : UUID7
  createdByMembershipId : UUID7
  uploadedAt : Time

def tenantMatters : Schema TenantMatter UUID7 where
  key := TenantMatter.id
  check := fun _ => true
  clash := fun _ _ => false

def tenantDocuments : Schema TenantDocument UUID7 where
  key := TenantDocument.id
  check := fun _ => true
  clash := fun _ _ => false

def documentVersions : Schema DocumentVersion UUID7 where
  key := DocumentVersion.id
  check := fun _ => true
  clash := fun v w => v.tenantId == w.tenantId && v.documentId == w.documentId &&
    v.versionNo == w.versionNo

structure Workspace where
  matters : Table tenantMatters
  documents : Table tenantDocuments
  versions : Table documentVersions
  records : Records

def Workspace.empty : Workspace := ⟨Table.empty,Table.empty,Table.empty,Table.empty⟩

def mattersOf : Lens Workspace (Table tenantMatters) where
  get := Workspace.matters
  set := fun t s => {s with matters := t}
  get_set := fun _ _ => rfl
  set_get := fun _ => rfl

def documentsOf : Lens Workspace (Table tenantDocuments) where
  get := Workspace.documents
  set := fun t s => {s with documents := t}
  get_set := fun _ _ => rfl
  set_get := fun _ => rfl

def versionsOf : Lens Workspace (Table documentVersions) where
  get := Workspace.versions
  set := fun t s => {s with versions := t}
  get_set := fun _ _ => rfl
  set_get := fun _ => rfl

def recordsOf : Lens Workspace Records where
  get := Workspace.records
  set := fun t s => {s with records := t}
  get_set := fun _ _ => rfl
  set_get := fun _ => rfl

inductive MatterDocumentFailure where
  | notFound
  | conflict
  | invalidRequest
  | idempotency (failure : IdempotencyFailure)
  | integrityError
deriving DecidableEq

abbrev WorkspaceTx (α : Type) : Type := Tx MatterDocumentFailure Workspace α

/-- The `ValueError`s of the idempotency service become invalid requests. -/
def idempotencyFailure : IdempotencyFailure → MatterDocumentFailure
  | .valueError _ => .invalidRequest
  | failure => .idempotency failure

/-- One call. The identifiers and clock values are the ones it draws; `recordId`
is drawn for a new idempotency record. -/
structure RegisterDocument where
  tenantId : UUID7
  membershipUserId : Option UUID7
  membershipId : Option UUID7
  matterId : UUID7
  fileName : String
  mimeType : String
  payload : List UInt8
  idempotencyKey : Option String
  now : Time
  currentTimestamp : Time
  uploadedAt : Time
  versionId : UUID7
  documentId : UUID7
  recordId : UUID7

structure DocumentService where
  hmac : List UInt8 → List UInt8 → Digest
  sha256 : List UInt8 → Digest
  keyHashSecret : List UInt8
  idempotency : Option (Checked idempotencyServiceChecks)

def maxUploadBytes : ℕ := 64*1024*1024

def allowedMimePrefix : List Char :=
  "application/vnd.openxmlformats-officedocument.wordprocessingml".toList

def mimeChar (c : Char) : Bool :=
  ('a' ≤ c && c ≤ 'z') || c.isDigit || decide (c ∈ ['.','+','-'])

/-- `[a-z0-9.+-]+/[a-z0-9.+-]+` -/
def mimePattern (mimeType : List Char) : Bool :=
  let major := mimeType.takeWhile (· ≠ '/')
  let minor := (mimeType.dropWhile (· ≠ '/')).drop 1
  decide (major ≠ [] ∧ minor ≠ []) && major.all mimeChar && minor.all mimeChar

def uploadStatus (mimeType : List Char) : DocumentUploadStatus :=
  if mimePattern mimeType = false ∨ ¬allowedMimePrefix <+: mimeType then .needsReview
  else .accepted

def tenantObjectKey (tenantId : UUID7) (originalName : String) : String :=
  let safe (c : Char) : Char :=
    if c.isAlphanum || decide (c ∈ ['.','_','-']) then c else '_'
  "tenant_"++String.ofList (digits 16 32 tenantId.int.toNat)++"/doc/"++
    String.ofList ((originalName.toList.map safe).take 255)

def uploadedVersion (S : DocumentService) (c : RegisterDocument) (userId membershipId : UUID7) :
    DocumentVersion where
  id := c.versionId
  tenantId := c.tenantId
  documentId := c.documentId
  versionNo := 1
  kind := .original
  objectKey := tenantObjectKey c.tenantId c.fileName
  sha256 := S.sha256 c.payload
  uploadStatus := uploadStatus c.mimeType.toList
  fileName := c.fileName
  mimeType := c.mimeType
  sizeBytes := c.payload.length
  createdByUserId := userId
  createdByMembershipId := membershipId
  uploadedAt := c.uploadedAt

/-- The file name is not blank here, so the display name is the file name. -/
def uploadedDocument (c : RegisterDocument) : TenantDocument where
  id := c.documentId
  tenantId := c.tenantId
  matterId := c.matterId
  displayName := c.fileName
  currentVersionNo := 1
  version := 1

def completeUpload (S : DocumentService) (c : RegisterDocument) (userId membershipId : UUID7) :
    WorkspaceTx DocumentVersion := do
  require (strip c.fileName.toList ≠ []) .invalidRequest
  require (c.payload ≠ []) .invalidRequest
  require (c.payload.length ≤ maxUploadBytes) .invalidRequest
  zoom documentsOf (insertRow .integrityError (uploadedDocument c))
  zoom versionsOf (insertRow .integrityError (uploadedVersion S c userId membershipId))
  pure (uploadedVersion S c userId membershipId)

def getMatter (tenantId matterId : UUID7) (s : Workspace) : Option TenantMatter :=
  selectRow (fun m => m.tenantId == tenantId && m.id == matterId) s.matters

def findVersion (tenantId documentId : UUID7) (s : Workspace) : Option DocumentVersion :=
  ((selectRows (fun v => v.tenantId == tenantId && v.documentId == documentId)
    s.versions).insertionSort fun v w => w.versionNo ≤ v.versionNo).head?

def registerValues (fileName mimeType payloadSha256 : String) : PyValue :=
  .mapping [(.str "file_name",.str fileName),(.str "mime_type",.str mimeType),
    (.str "payload_sha256",.str payloadSha256)]

def registerPaths : Finset JsonPath := {["file_name"],["mime_type"],["payload_sha256"]}

theorem registerValues_distinct (fileName mimeType payloadSha256 : String) :
    distinct (registerValues fileName mimeType payloadSha256) = true := by
  rfl

theorem registerPaths_checks (values : {v : PyValue // distinct v = true})
    (h : values.val.isMapping = true) :
    firstError (fingerprintPayloadChecks ⟨values,registerPaths,∅⟩) = none := by
  apply firstError_all
  simp only [fingerprintPayloadChecks,List.forall_mem_cons]
  have hoverlap : registerPaths ∩ ∅ = ∅ := by decide
  have hfront : ∀ left ∈ registerPaths ∪ ∅, ∀ right ∈ registerPaths ∪ ∅,
      ¬(left ≠ right ∧ left.length < right.length ∧ right.take left.length = left) := by
    decide
  exact ⟨h,by decide,by decide,decide_eq_true hoverlap,decide_eq_true hfront,by simp⟩

def registerPayload (fileName mimeType payloadSha256 : String) :
    IdempotencyFingerprintPayload where
  value := ⟨⟨registerValues fileName mimeType payloadSha256,registerValues_distinct _ _ _⟩,
    registerPaths,∅⟩
  valid := registerPaths_checks _ rfl

def registerRequest (S : DocumentService) (c : RegisterDocument) (key : String) :
    IdempotencyRequest where
  key := key
  method := "POST"
  canonicalRoute := "/api/v1/tenants/\x7btenant_id\x7d/matters/\x7bmatter_id\x7d/documents"
  body := registerPayload c.fileName c.mimeType (hex (S.sha256 c.payload))

def memberScope (tenantId membershipId : UUID7) : IdempotencyScope :=
  ⟨⟨.membership,membershipId,some tenantId⟩,
    Idempotency.membershipScope_ok tenantId membershipId⟩

def reserveDocument (service : Checked idempotencyServiceChecks) (c : RegisterDocument)
    (membershipId : UUID7) (prepared : PreparedIdempotencyRequest) : ReserveRequest where
  service := service
  scope := memberScope c.tenantId membershipId
  operation := "document.register"
  prepared := prepared
  newId := c.recordId
  now := c.now
  currentTimestamp := c.currentTimestamp

def documentResult (documentId : UUID7) : IdempotencyResultReference :=
  ⟨⟨"document.document_version",documentId,none,none⟩,by
    apply firstError_all
    simp only [idempotencyResultChecks,List.forall_mem_cons]
    decide⟩

def registerOnce (S : DocumentService) (service : Checked idempotencyServiceChecks)
    (c : RegisterDocument) (key : String) (userId membershipId : UUID7) :
    WorkspaceTx DocumentVersion := do
  let prepared ← ofExcept (fun _ => .invalidRequest)
    (prepare S.hmac S.sha256 S.keyHashSecret (registerRequest S c key))
  let reservation ← within idempotencyFailure recordsOf
    (reserve (reserveDocument service c membershipId prepared.prepared))
  match reservation.replay with
  | some replay => do
    let version ← read (findVersion c.tenantId replay.value.resultId)
    orFail .conflict version
  | none => do
    let created ← completeUpload S c userId membershipId
    within idempotencyFailure recordsOf
      (IdempotencyService.complete reservation (documentResult created.documentId) c.now)
    pure created

/-- The empty key counts as no key. -/
def registerDocument (S : DocumentService) (c : RegisterDocument) :
    WorkspaceTx DocumentVersion := do
  require (c.payload ≠ []) .invalidRequest
  let userId ← orFail .conflict c.membershipUserId
  let membershipId ← orFail .conflict c.membershipId
  let matter ← read (getMatter c.tenantId c.matterId)
  require (matter.isSome = true) .notFound
  match S.idempotency, c.idempotencyKey with
  | some service, some key =>
    if key = "" then completeUpload S c userId membershipId
    else registerOnce S service c key userId membershipId
  | _, _ => completeUpload S c userId membershipId

end LawyerAgent.MatterDocuments
