import LawyerAgent.LegalArticleHeading
import LawyerAgent.Outcomes.Except
import LawyerAgent.Relational.Table
import LawyerAgent.Common
import Mathlib.Algebra.Order.Ring.Rat

/-!
# The quality gate and the dataset snapshot

`LegalCorpusQualityGate` measures a batch, and `LegalCorpusPublishService`
writes the snapshot of its dataset: one row for each dataset name, whose state
tells whether the dataset is published.
-/

set_option autoImplicit false

namespace LawyerAgent.CorpusPublish
open Relational Common
open PythonText (strip stripString)
open LegalArticleHeading

inductive DatasetState where
  | pending
  | published
  | superseded
  | rejected
deriving DecidableEq

inductive LoadStatus where
  | inventoried
  | parsing
  | completed
  | failed
deriving DecidableEq

structure DatasetSnapshot where
  id : UUID7
  datasetName : String
  parserVersion : String
  state : DatasetState
  manifest : JsonObject
  qualityMetrics : JsonObject
  releasedAt : Option Time
  named : strip datasetName.toList ≠ []
  parsed : strip parserVersion.toList ≠ []

structure LoadBatch where
  id : UUID7
  batchNo : String
  sourceRef : String
  fileSha256 : Digest
  parserVersion : String
  status : LoadStatus
  itemCounts : List (String × ℤ)
  startedAt : Option Time
  completedAt : Option Time
  errorMessage : Option String

structure QualityIssue where
  id : UUID7
  batchId : UUID7
  fileSha256 : Digest
  issueType : String
  message : String

/-- The floating-point operations of the gate: true division of integers,
`round(value, 4)` and `repr`. -/
structure FloatArithmetic where
  divide : ℤ → ℤ → ℚ
  round4 : ℚ → ℚ
  repr : ℚ → String

structure QualityReport where
  passed : Bool
  metrics : JsonObject
  issues : List String

structure QualityGate where
  minCoverage : ℚ
  parserVersion : String
  bounded : 0 < minCoverage ∧ minCoverage ≤ 1

/-- `_LEGACY_NUMERIC_ARTICLE_NO` -/
def legacyNumeric (text : Text) : Bool :=
  text ≠ [] && text.all fun c => isAsciiDigit c || isFullwidthDigit c

def nextArticle (current : ℕ × ℕ) (article : Option ℕ) : Option (ℕ × ℕ) :=
  article.bind fun number => if number = current.1+1 then some (number,0) else none

def nextSupplement (current : ℕ × ℕ) (article supplement : Option ℕ) : Option (ℕ × ℕ) :=
  article.bind fun number => supplement.bind fun part =>
    if number = current.1 ∧ part = current.2+1 then some (number,part) else none

/-- The article and supplement after an article number that continues them. -/
def continueWith (current : ℕ × ℕ) (item : Text) : Option (ℕ × ℕ) :=
  match Regex.fullmatch? articleNo item with
  | none => if legacyNumeric item then nextArticle current (cnNumber item) else none
  | some m =>
    let article := cnNumber (m.textOf .article item)
    if isSupplement m then nextSupplement current article (cnNumber (m.textOf .supplement item))
    else nextArticle current article

/-- `_sequence_break` without a numbering review. -/
def sequenceBreak : ℕ × ℕ → List String → Option String
  | _, [] => none
  | current, item::numbers =>
    match continueWith current item.toList with
    | none => some item
    | some next => sequenceBreak next numbers

structure BatchQuality where
  articleCount : ℤ
  articleNumbers : List String
  requiredFieldMissing : List String
  parseFailures : ℤ

def coverage (floats : FloatArithmetic) (q : BatchQuality) : ℚ :=
  if q.articleCount+q.parseFailures = 0 then 1
  else floats.divide q.articleCount (q.articleCount+q.parseFailures)

def qualityIssues (floats : FloatArithmetic) (gate : QualityGate) (q : BatchQuality) :
    List String :=
  (if q.articleCount ≤ 0 then ["no_articles"] else [])++
  (if coverage floats q < gate.minCoverage then ["coverage_below_threshold"] else [])++
  (if q.requiredFieldMissing ≠ [] then ["missing_required_fields"] else [])++
  (if q.articleCount ≠ q.articleNumbers.length then ["article_count_mismatch"] else [])++
  match sequenceBreak (0,0) q.articleNumbers with
  | some item => ["article_sequence_break:"++item]
  | none => []

def evaluate (floats : FloatArithmetic) (gate : QualityGate) (q : BatchQuality) :
    QualityReport where
  passed := (qualityIssues floats gate q).isEmpty
  metrics := [("article_count",.number q.articleCount),
    ("coverage",.float (floats.repr (floats.round4 (coverage floats q)))),
    ("parse_failures",.number q.parseFailures),
    ("required_field_missing",.array (q.requiredFieldMissing.map .string))]
  issues := qualityIssues floats gate q

def legalDatasetSnapshots : Schema DatasetSnapshot UUID7 where
  key := DatasetSnapshot.id
  check := fun s => decide (s.datasetName.length ≤ 64) && decide (s.parserVersion.length ≤ 64)
  clash := fun s t => s.datasetName == t.datasetName

def legalLoadBatches : Schema LoadBatch UUID7 where
  key := LoadBatch.id
  check := fun b => decide (b.batchNo.length ≤ 64) && decide (b.sourceRef.length ≤ 512) &&
    decide (b.parserVersion.length ≤ 64)
  clash := fun b c => b.fileSha256 == c.fileSha256 || b.batchNo == c.batchNo

def legalQualityIssues : Schema QualityIssue UUID7 where
  key := QualityIssue.id
  check := fun i => decide (i.issueType.length ≤ 64) && decide (i.message.length ≤ 2048)
  clash := fun _ _ => false

structure Inventory where
  datasets : Table legalDatasetSnapshots
  batches : Table legalLoadBatches
  issues : Table legalQualityIssues

def datasetsOf : Lens Inventory (Table legalDatasetSnapshots) where
  get := Inventory.datasets
  set := fun t s => {s with datasets := t}
  get_set := fun _ _ => rfl
  set_get := fun _ => rfl

def batchesOf : Lens Inventory (Table legalLoadBatches) where
  get := Inventory.batches
  set := fun t s => {s with batches := t}
  get_set := fun _ _ => rfl
  set_get := fun _ => rfl

def issuesOf : Lens Inventory (Table legalQualityIssues) where
  get := Inventory.issues
  set := fun t s => {s with issues := t}
  get_set := fun _ _ => rfl
  set_get := fun _ => rfl

inductive CorpusFailure where
  | valueError (text : String)
  | integrityError
deriving DecidableEq

abbrev InventoryTx (α : Type) : Type := Tx CorpusFailure Inventory α

/-- A stored document is read back in parts of one statement; `readable` says
whether that succeeds. -/
def findDataset (readable : JsonObject → Bool) (name : String) :
    InventoryTx (Option DatasetSnapshot) := do
  let found ← read fun s => selectRow (fun d => d.datasetName == name) s.datasets
  require ((found.all fun d => readable d.manifest && readable d.qualityMetrics) = true)
    (.valueError "json_document_invalid")
  pure found

def DatasetSnapshot.updateFrom (new : DatasetSnapshot) (row : DatasetSnapshot) : DatasetSnapshot :=
  { row with
    parserVersion := new.parserVersion
    state := new.state
    manifest := new.manifest
    qualityMetrics := new.qualityMetrics
    releasedAt := new.releasedAt
    parsed := new.parsed }

def upsertDataset (snapshot : DatasetSnapshot) : InventoryTx Unit := do
  let found ← read fun s => selectRow (fun d => d.datasetName == snapshot.datasetName) s.datasets
  match found with
  | none => zoom datasetsOf (insertRow .integrityError snapshot)
  | some row => do
    let _ ← zoom datasetsOf (updateRows .integrityError (fun d => d.id == row.id)
      snapshot.updateFrom)
    pure ()

def findBatch (batchId : UUID7) : InventoryTx (Option LoadBatch) :=
  read fun s => selectRow (fun b => b.id == batchId) s.batches

def completeBatch (batchId : UUID7) (itemCounts : List (String × ℤ)) (now : Time) :
    InventoryTx Bool := do
  let n ← zoom batchesOf (updateRows .integrityError
    (fun b => b.id == batchId && b.status == .inventoried)
    fun b => {b with status := .completed, itemCounts := itemCounts, completedAt := some now})
  pure (n == 1)

/-- The text of an issue before its first colon, or a name for all issues. -/
def issueType (issue : String) : String :=
  let name := stripString (String.ofList (issue.toList.takeWhile (· ≠ ':')))
  if name = "" then "quality_issue" else name

def newQualityIssue (batchId : UUID7) (fileSha256 : Digest) (issue : String) (id : UUID7) :
    QualityIssue where
  id := id
  batchId := batchId
  fileSha256 := fileSha256
  issueType := String.ofList ((issueType issue).toList.take 64)
  message := String.ofList (issue.toList.take 2048)

def replaceQualityIssues (batchId : UUID7) (fileSha256 : Digest) (issues : List String)
    (newId : ℕ → UUID7) : InventoryTx Unit := do
  let _ ← zoom issuesOf (deleteRows fun i => i.batchId == batchId)
  zoom issuesOf (insertRows .integrityError
    ((issues.filter (· ≠ "")).mapIdx fun n issue =>
      newQualityIssue batchId fileSha256 issue (newId n)))

structure PublishService where
  floats : FloatArithmetic
  readable : JsonObject → Bool
  gate : QualityGate
  datasetName : String

/-- One call, with the identifiers and the clock value it draws. -/
structure PublishCall where
  batchId : Option UUID7
  quality : BatchQuality
  manifest : JsonObject
  snapshotId : UUID7
  issueId : ℕ → UUID7
  now : Time

/-- The constructor of a snapshot, which refuses blank names. -/
def newSnapshot (service : PublishService) (id : UUID7) (state : DatasetState)
    (manifest metrics : JsonObject) (releasedAt : Option Time) :
    Except CorpusFailure DatasetSnapshot :=
  if hname : strip service.datasetName.toList ≠ [] then
    if hparser : strip service.gate.parserVersion.toList ≠ [] then
      .ok ⟨id,service.datasetName,service.gate.parserVersion,state,manifest,metrics,releasedAt,
        hname,hparser⟩
    else .error (.valueError "dataset parser version must be non-empty text")
  else .error (.valueError "dataset name must be non-empty text")

def recordFailureIssues (c : PublishCall) (issues : List String) : InventoryTx Unit :=
  match c.batchId with
  | none => pure ()
  | some batchId => do
    let batch ← findBatch batchId
    match batch with
    | none => pure ()
    | some batch => replaceQualityIssues batchId batch.fileSha256 (issues.filter (· ≠ "")) c.issueId

def publishRejected (service : PublishService) (c : PublishCall) (report : QualityReport) :
    InventoryTx DatasetSnapshot := do
  let snapshot ← ofExcept id
    (newSnapshot service c.snapshotId .rejected c.manifest report.metrics none)
  upsertDataset snapshot
  recordFailureIssues c report.issues
  pure snapshot

def completePublished (c : PublishCall) : InventoryTx Unit :=
  match c.batchId with
  | none => pure ()
  | some batchId => do
    let _ ← completeBatch batchId [("articles",c.quality.articleCount)] c.now
    pure ()

def publishPassed (service : PublishService) (c : PublishCall) (report : QualityReport) :
    InventoryTx DatasetSnapshot := do
  let existing ← findDataset service.readable service.datasetName
  let state := if (existing.any fun d => d.state == .published) = true then DatasetState.superseded
    else DatasetState.published
  let published ← ofExcept id (newSnapshot service ((existing.map DatasetSnapshot.id).getD
    c.snapshotId)
    state c.manifest report.metrics (some c.now))
  upsertDataset published
  completePublished c
  pure published

def publishReport (service : PublishService) (c : PublishCall) (report : QualityReport) :
    InventoryTx DatasetSnapshot :=
  if report.passed = false then publishRejected service c report
  else publishPassed service c report

def publish (service : PublishService) (c : PublishCall) :
    InventoryTx (DatasetSnapshot × QualityReport) := do
  let report := evaluate service.floats service.gate c.quality
  let snapshot ← publishReport service c report
  pure (snapshot,report)

end LawyerAgent.CorpusPublish
