import LawyerAgent.ContractReviewTables
import LawyerAgent.PythonText
import LawyerAgent.TenantAuthorization

/-!
# Contract review runs

Every call is one unit of work of two parts. The first reads a snapshot and
answers or raises from it, or names the statement that is left to do; the
second is that statement, a guarded update or an insert, on whatever the table
holds by then.
-/

set_option autoImplicit false

namespace LawyerAgent.ContractReviewRuns
open Relational Common Envelope CanonicalJson
open PythonText IdentityTables
open SessionTables ContractReviewTables
open ContractReviewPayloads
open TenantAuthorization (TenantActor)

inductive ReviewFailure where
  | reviewError (code : String)
  | valueError (message : String)
  | integrityError
deriving DecidableEq, Repr

abbrev ReviewTx (α : Type) : Type := Tx ReviewFailure ContractDatabase α

def unavailable : ReviewFailure := .reviewError "resource_unavailable"

def conflict : ReviewFailure := .reviewError "contract_run_conflict"

/-- What `_authorize` returns. -/
structure Owner where
  tenantId : UUID7
  userId : UUID7
  membershipId : UUID7
deriving DecidableEq

/-- The session is the account's own or one of the tenant at this version. -/
def sessionBinding (tenantId membershipId : UUID7) (authzVersion : ℕ) (s : AuthSessionModel) :
    Bool :=
  (s.tenantId.isNone && s.membershipId.isNone && s.authzVersionAtIssue.isNone) ||
  (s.tenantId == some tenantId && s.membershipId == some membershipId &&
    s.authzVersionAtIssue == some authzVersion)

def actorCurrent (actor : TenantActor) (membershipId : UUID7) (now : Time) (user : UserModel)
    (tenant : TenantModel) (s : AuthSessionModel) (member : TenantMembershipModel) : Bool :=
  let p := actor.principal
  let c := actor.context
  user.status == .active && tenant.status == .active && member.status == .active &&
  p.audience == .tenant && p.sessionValid && s.revokedAt.isNone && decide (now < s.expiresAt) &&
  decide (member.validFrom ≤ now) && member.validUntil.all (fun u => decide (now < u)) &&
  p.authVersion == user.authVersion && p.sessionAuthVersion == user.authVersion &&
  s.authVersionAtIssue == user.authVersion &&
  sessionBinding c.tenantId membershipId member.authzVersion s &&
  c.authzVersion == some member.authzVersion &&
  c.sessionAuthzVersion == some member.authzVersion &&
  p.tenantId == some c.tenantId && p.membershipId == some membershipId

/-- `_authorize`; its inner join yields the codes of `permissionCodes`. -/
def authorizedOwner (actor : TenantActor) (permission : String) (now : Time)
    (db : ContractDatabase) : Option Owner := do
  let membershipId ← actor.context.membershipId
  let user ← selectRow (isUser actor.principal.userId) db.identity.users
  let tenant ← selectRow (isTenant actor.context.tenantId) db.identity.tenants
  let authSession ← selectRow (fun s => s.id == actor.principal.sessionId &&
    s.userId == actor.principal.userId) db.sessions
  let member ← selectRow (fun m => isMembership actor.context.tenantId membershipId m &&
    m.userId == actor.principal.userId) db.identity.memberships
  if actorCurrent actor membershipId now user tenant authSession member ∧
      permission ∈ permissionCodes actor.context.tenantId membershipId db.identity then
    some ⟨actor.context.tenantId,actor.principal.userId,membershipId⟩
  else none

def isOwned (owner : Owner) (runId : UUID7) (r : ContractReviewRunModel) : Bool :=
  r.tenantId == owner.tenantId && r.id == runId && r.createdByUserId == owner.userId &&
  r.createdByMembershipId == owner.membershipId

def authorize (actor : TenantActor) (permission : String) (now : Time) : ReviewTx Owner := do
  let owner ← read (authorizedOwner actor permission now)
  orFail unavailable owner

def owned (owner : Owner) (runId : UUID7) : ReviewTx ContractReviewRunModel := do
  let row ← read fun db => selectRow (isOwned owner runId) db.runs
  orFail unavailable row

def bigEndian : ℕ → ℕ → List UInt8
  | 0, _ => []
  | width+1, n => bigEndian width (n/256)++[n.toUInt8]

/-- `_failure_lease_digest`; `none` where the token is no digest's text. -/
def failureLeaseDigest (sha256 : List UInt8 → Digest) (lease : FailureLease) : Option Digest :=
  (fromHex lease.token).map fun token =>
    sha256 (bigEndian 16 lease.tenantId.int.toNat++bigEndian 16 lease.runId.int.toNat++
      bigEndian 32 token.toNat)

/-- What a transition writes; the two that end in `draft` and `noEvidence`, and
the two that end in `failed` and `cancelled`, share their values. -/
inductive RunChange where
  | attachPdf (key : String) (sha256 : Digest) (size : ℤ)
  | claim (leaseHash : Digest) (leaseExpiresAt : Time)
  | finish (withDraft : Bool) (result parsed manifest : JsonObject)
  | fail (code : String) (cancelled : Bool)
  | failOwned (code : String) (cancelled : Bool) (manifest : Option JsonObject)

def RunChange.expected : RunChange → RunStatus
  | .attachPdf _ _ _ => .awaitingUpload
  | .claim _ _ => .uploaded
  | _ => .running

def finishTarget (withDraft : Bool) : RunStatus := if withDraft then .draft else .noEvidence

def failTarget (cancelled : Bool) : RunStatus := if cancelled then .cancelled else .failed

def RunChange.target : RunChange → RunStatus
  | .attachPdf _ _ _ => .uploaded
  | .claim _ _ => .running
  | .finish withDraft _ _ _ => finishTarget withDraft
  | .fail _ cancelled => failTarget cancelled
  | .failOwned _ cancelled _ => failTarget cancelled

def RunChange.values (r : ContractReviewRunModel) : RunChange → ContractReviewRunModel
  | .attachPdf key sha256 size => {r with
      pdfObjectKey := some key
      pdfSha256 := some sha256
      pdfSize := some size}
  | .claim leaseHash leaseExpiresAt => {r with
      failureLeaseHash := some leaseHash
      failureLeaseExpiresAt := some leaseExpiresAt}
  | .finish _ result parsed manifest => {r with
      resultJson := some result
      parsedDocument := some parsed
      evidenceManifest := some manifest
      failureCode := none
      failureLeaseHash := none
      failureLeaseExpiresAt := none}
  | .fail code _ => {r with
      failureCode := some code
      failureLeaseHash := none
      failureLeaseExpiresAt := none}
  | .failOwned code _ manifest => {r with
      failureCode := some code
      evidenceManifest := manifest
      failureLeaseHash := none
      failureLeaseExpiresAt := none}

def changedRow (change : RunChange) (now : Time) (r : ContractReviewRunModel) :
    ContractReviewRunModel :=
  {change.values r with
    status := change.target
    version := r.version+1
    updatedAt := now}

/-- The update that is left after the reads, with the version that was read.
`_transition` reads the row back for its owner; `fail_owned` returns nothing
and holds its lease to the row once more. -/
structure RunUpdate where
  tenantId : UUID7
  runId : UUID7
  version : ℕ
  change : RunChange
  now : Time
  owner : Option Owner
  lease : Option Digest

def RunUpdate.matches (u : RunUpdate) (r : ContractReviewRunModel) : Bool :=
  r.tenantId == u.tenantId && r.id == u.runId && r.version == u.version &&
  r.status == u.change.expected &&
  u.lease.all fun digest => r.failureLeaseHash == some digest &&
    r.failureLeaseExpiresAt.any fun e => decide (u.now < e)

def RunUpdate.missed (u : RunUpdate) : ReviewFailure :=
  if u.lease.isSome then unavailable else conflict

/-- The statement of a transition; the source's audit event is left out. -/
def runUpdate (u : RunUpdate) : ReviewTx (Option RunRecord) := do
  let changed ← zoom runsOf (updateRows .integrityError u.matches (changedRow u.change u.now))
  require (changed = 1) u.missed
  match u.owner with
  | none => pure none
  | some owner => do
    let updated ← owned owner u.runId
    pure (some (recordOf updated))

inductive Statement where
  | insert (model : ContractReviewRunModel)
  | update (u : RunUpdate)

inductive Begun where
  | answered (record : Option RunRecord)
  | pending (s : Statement)

def insertRun (model : ContractReviewRunModel) : ReviewTx (Option RunRecord) := do
  zoom runsOf (insertRow .integrityError model)
  pure (some (recordOf model))

def perform : Statement → ReviewTx (Option RunRecord)
  | .insert model => insertRun model
  | .update u => runUpdate u

def uuidString (u : UUID7) : String := String.ofList (uuidText u)

/-- `str(value) == text`; no other value prints as an identifier. -/
def printsAs (value : Option Json) (text : String) : Bool :=
  match value with
  | some (.string s) => s == text
  | _ => false

/-- `_validate_finish_identity` -/
def finishIdentityOk (runId : UUID7) (withDraft : Bool) (result parsed : JsonObject)
    (r : ContractReviewRunModel) : Bool :=
  r.pdfSha256.any fun sha256 =>
    printsAs (List.lookup "document_version_id" parsed) (hex sha256) &&
    (!withDraft ||
      (printsAs (List.lookup "run_id" result) (uuidString runId) &&
        printsAs (List.lookup "document_version_id" result) (hex sha256)))

def codeChar (c : Char) : Bool :=
  ('a' ≤ c && c ≤ 'z') || c.isDigit || c == '_' || c == '.' || c == '-'

def failureCodeOk (code : String) : Bool :=
  1 ≤ code.length && code.length ≤ 64 && code.toList.all codeChar

/-- The reads of `_transition`. -/
def transition (actor : TenantActor) (runId : UUID7) (change : RunChange) (now : Time)
    (replay validate : ContractReviewRunModel → Bool) : ReviewTx Begun := do
  let owner ← authorize actor "ai_job.create" now
  let row ← owned owner runId
  require (validate row = true) conflict
  if row.status = change.expected then
    pure (.pending (.update ⟨owner.tenantId,runId,row.version,change,now,some owner,none⟩))
  else do
    require (replay row = true) conflict
    pure (.answered (some (recordOf row)))

structure CreateRequest where
  filename : String
  instruction : String
  asOf : ℤ
  idempotencyKey : String

def CreateRequest.stripped (q : CreateRequest) : CreateRequest :=
  {q with
    filename := stripString q.filename
    instruction := stripString q.instruction}

def createRequestOk (q : CreateRequest) : Bool :=
  q.filename ≠ "" && q.filename.utf8ByteSize ≤ 255 && q.instruction ≠ "" &&
  q.instruction.utf8ByteSize ≤ 16384 && 1 ≤ q.idempotencyKey.utf8ByteSize &&
  q.idempotencyKey.utf8ByteSize ≤ 512

/-- `date.isoformat` of a day count from 1970-01-01. -/
def isoformat (day : ℤ) : String :=
  let date := civilDate day
  String.ofList (digits 10 4 date.1.toNat++ '-'::digits 10 2 date.2.1.toNat++
    '-'::digits 10 2 date.2.2.toNat)

section Calls

variable (sha256 : List UInt8 → Digest) (wire : WireModels)

def requestFingerprint (q : CreateRequest) : Digest :=
  digestJson sha256 (.object [("filename",.string q.filename),
    ("instruction",.string q.instruction),("as_of",.string (isoformat q.asOf))])

def keyHash (q : CreateRequest) : Digest := sha256 (encode q.idempotencyKey.toList)

def createModel (owner : Owner) (q : CreateRequest) (newId : UUID7) (now : Time) :
    ContractReviewRunModel where
  id := newId
  tenantId := owner.tenantId
  createdByUserId := owner.userId
  createdByMembershipId := owner.membershipId
  idempotencyHash := keyHash sha256 q
  requestFingerprint := requestFingerprint sha256 q
  filename := q.filename
  instruction := q.instruction
  asOf := q.asOf
  createdAt := now
  updatedAt := now

def create (actor : TenantActor) (request : CreateRequest) (newId : UUID7) (now : Time) :
    ReviewTx Begun := do
  let q := request.stripped
  require (createRequestOk q = true) (.valueError "invalid_contract_review_request")
  let owner ← authorize actor "ai_job.create" now
  let existing ← read fun db => selectRow (fun r => r.tenantId == owner.tenantId &&
    r.createdByMembershipId == owner.membershipId &&
    r.idempotencyHash == keyHash sha256 q) db.runs
  match existing with
  | some r => do
    require (r.requestFingerprint = requestFingerprint sha256 q) conflict
    pure (.answered (some (recordOf r)))
  | none => pure (.pending (.insert (createModel sha256 owner q newId now)))

def pdfIdentityValid (key : String) (size : ℤ) : Bool :=
  1 ≤ key.utf8ByteSize && key.utf8ByteSize ≤ 1024 && 1 ≤ size && size ≤ 52428800

def attachPdf (actor : TenantActor) (runId : UUID7) (key digest : String) (size : ℤ)
    (now : Time) : ReviewTx Begun := do
  require (pdfIdentityValid key size = true) (.valueError "invalid_pdf_identity")
  let pdf ← orFail (.valueError "invalid_pdf_identity") (fromHex digest)
  transition actor runId (.attachPdf key pdf size) now
    (fun row => row.status == .uploaded && row.pdfObjectKey == some key &&
      row.pdfSha256 == some pdf && row.pdfSize == some size)
    (fun _ => true)

/-- The token is drawn by the call; `clock` is its second clock value. -/
def claim (actor : TenantActor) (runId : UUID7) (token : String) (clock now : Time) :
    ReviewTx Begun := do
  let digest ← orFail (.valueError "invalid_failure_lease")
    (failureLeaseDigest sha256 ⟨actor.context.tenantId,runId,token⟩)
  transition actor runId (.claim digest (clock+seconds (15*60))) now (fun _ => false)
    (fun _ => true)

/-- `_digest_json` of a column, which holds `null` where it is not set. -/
def digestColumn (column : Option JsonObject) : Digest :=
  digestJson sha256 (column.elim .null .object)

def finish (actor : TenantActor) (runId : UUID7) (withDraft : Bool)
    (result parsed manifest : JsonObject) (now : Time) : ReviewTx Begun := do
  ofExcept .valueError (match firstError (finishPayloadChecks wire result parsed manifest) with
    | none => .ok ()
    | some message => .error message)
  transition actor runId (.finish withDraft result parsed manifest) now
    (fun row => row.status == finishTarget withDraft &&
      digestColumn sha256 row.resultJson == digestColumn sha256 (some result) &&
      digestColumn sha256 row.parsedDocument == digestColumn sha256 (some parsed) &&
      digestColumn sha256 row.evidenceManifest == digestColumn sha256 (some manifest))
    (finishIdentityOk runId withDraft result parsed)

def fail (actor : TenantActor) (runId : UUID7) (code : String) (cancelled : Bool) (now : Time) :
    ReviewTx Begun := do
  require (failureCodeOk code = true) (.valueError "invalid_failure_code")
  transition actor runId (.fail code cancelled) now
    (fun row => row.status == failTarget cancelled && row.failureCode == some code)
    (fun _ => true)

/-- The reads of `fail_owned`: a run that has failed already is left alone. -/
def failOwned (lease : FailureLease) (code : String) (cancelled : Bool)
    (manifest : Option JsonObject) (now : Time) : ReviewTx Begun := do
  require (failureCodeOk code = true) (.valueError "invalid_failure_code")
  require (manifest.all (failureManifestOk wire) = true) (.valueError "evidence_manifest_invalid")
  let found ← read fun db => selectRow (fun r => r.tenantId == lease.tenantId &&
    r.id == lease.runId) db.runs
  let row ← orFail unavailable found
  if (row.status = .failed ∨ row.status = .cancelled) ∧ row.failureLeaseHash = none then
    pure (.answered none)
  else do
    let stored ← orFail unavailable row.failureLeaseHash
    let expiresAt ← orFail unavailable row.failureLeaseExpiresAt
    let digest ← orFail unavailable (failureLeaseDigest sha256 lease)
    require (digest = stored ∧ now < expiresAt) unavailable
    require (row.status = .running) unavailable
    pure (.pending (.update ⟨lease.tenantId,lease.runId,row.version,
      .failOwned code cancelled manifest,now,none,some digest⟩))

/-- A call with its arguments, the values it draws and its clock. -/
inductive RunCall where
  | create (actor : TenantActor) (request : CreateRequest) (newId : UUID7) (now : Time)
  | attachPdf (actor : TenantActor) (runId : UUID7) (key digest : String) (size : ℤ) (now : Time)
  | claim (actor : TenantActor) (runId : UUID7) (token : String) (clock now : Time)
  | finish (actor : TenantActor) (runId : UUID7) (withDraft : Bool)
      (result parsed manifest : JsonObject) (now : Time)
  | fail (actor : TenantActor) (runId : UUID7) (code : String) (cancelled : Bool) (now : Time)
  | failOwned (lease : FailureLease) (code : String) (cancelled : Bool)
      (manifest : Option JsonObject) (now : Time)

def beginCall : RunCall → ReviewTx Begun
  | .create actor request newId now => create sha256 actor request newId now
  | .attachPdf actor runId key digest size now => attachPdf actor runId key digest size now
  | .claim actor runId token clock now => claim sha256 actor runId token clock now
  | .finish actor runId withDraft result parsed manifest now =>
    finish sha256 wire actor runId withDraft result parsed manifest now
  | .fail actor runId code cancelled now => fail actor runId code cancelled now
  | .failOwned lease code cancelled manifest now =>
    failOwned sha256 wire lease code cancelled manifest now

def RunCall.returned (record : Option RunRecord) : RunCall → Option RunRecord
  | .claim actor runId token _ _ => record.map fun r =>
    {r with failureLease := some ⟨actor.context.tenantId,runId,token⟩}
  | _ => record

end Calls

end LawyerAgent.ContractReviewRuns
