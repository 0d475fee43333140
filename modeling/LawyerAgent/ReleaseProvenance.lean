import LawyerAgent.EnvelopeDelivery
import LawyerAgent.Outcomes.Except

/-!
# The provenance of a mixed release

A release selects the rows of several source reports and replaces some of them.
`ReleaseSetProvenance` records the reports, the selected entries and the
replacements; its constructor checks that they fit together. It is written as
JSON and read back with the same checks.
-/

set_option autoImplicit false

namespace LawyerAgent.ReleaseProvenance
open Common CanonicalJson JsonReader PythonText
open WireEnvelope (UUID uuidString)
open EnvelopeDelivery (readUUID)
open Outcomes (require)

/-- What `urlsplit` finds. `portOk` holds where its `port` does not raise. -/
structure SplitUrl where
  scheme : String
  netloc : String
  path : String
  query : String
  fragment : String
  hostname : Option String
  username : Option String
  password : Option String
  portOk : Bool

/-- The functions of the standard library on URLs and Windows paths, of which
nothing is assumed. `urlsplit` is `none` where it raises. -/
structure PathLibrary where
  urlsplit : String → Option SplitUrl
  unquote : String → String
  normcase : String → String
  normpath : String → String
  isabs : String → Bool
  splitdrive : String → String × String
  upper : String → String

variable (sha256 : List UInt8 → Digest) (L : PathLibrary)

/-- Every check of a constructor raises one code. -/
def under (code : String) (conditions : List Bool) : List (Bool × String) :=
  conditions.map fun condition => (condition,code)

def invalid : String := "quality_invalid_release_provenance"

instance {α : Type} [DecidableEq α] {checks : Checks α} : DecidableEq (Checked checks) :=
  fun a b => decidable_of_iff (a.value = b.value) ⟨fun h => by
    cases a
    cases b
    cases h
    rfl,congrArg Checked.value⟩

def text (value : String) (limit : ℕ) : Bool :=
  stripString value != "" && decide (value.length ≤ limit)

def sha (value : String) : Bool := isHex 64 value.toList

def devices : List String :=
  ["CON","PRN","AUX","NUL","CONIN$","CONOUT$"]++
    ["COM","LPT"].flatMap fun device => (List.range 9).map fun n => device++toString (n+1)

def slash (c : Char) : Bool := c == '\\' || c == '/'

def pathPart (part : List Char) : Bool :=
  !(["",".",".."].contains (String.ofList part)) && !part.contains ':' &&
    !([' ','.'].any fun c => part.getLast? == some c) &&
    !devices.contains (L.upper (String.ofList (part.takeWhile (· ≠ '.'))))

def absoluteReportPath (value : String) : Bool :=
  text value 4096 && L.isabs value && !(value.toList.any fun c => decide (c.toNat < 32)) &&
    !(value.startsWith "\\\\?\\" || value.startsWith "\\\\.\\") &&
    let (drive,tail) := L.splitdrive value
    drive != "" && tail.toList.head?.any slash &&
      ((tail.toList.dropWhile slash).splitOnP slash).all (pathPart L)

def reportPathKey (path : String) : String := L.normcase (L.normpath path)

@[ext] structure ArticleNumberingReviewFields where
  firstArticle : ℤ
  lastArticle : ℤ
  reviewRef : String
  evidenceRef : String
  evidenceSha256 : String
deriving DecidableEq

def blankOrControl (c : Char) : Bool :=
  isSpace c || decide (c.toNat < 32) || decide (127 ≤ c.toNat ∧ c.toNat ≤ 159)

def evidenceUrl (parsed : SplitUrl) : Bool :=
  parsed.portOk && parsed.scheme == "https" && parsed.hostname.any (· != "") &&
    parsed.username.isNone && parsed.password.isNone

def articleNumberingReviewChecks : Checks ArticleNumberingReviewFields := fun r =>
  under "quality_invalid_numbering_review"
    [decide (2 ≤ r.firstArticle ∧ r.firstArticle ≤ r.lastArticle ∧ r.lastArticle ≤ 9999),
     text r.reviewRef 512,
     text r.evidenceRef 4096,
     !r.evidenceRef.toList.any blankOrControl,
     !r.evidenceRef.toList.contains '#',
     sha r.evidenceSha256,
     (L.urlsplit r.evidenceRef).any evidenceUrl]

abbrev ArticleNumberingReview : Type := Checked (articleNumberingReviewChecks L)

@[ext] structure ReleaseSelectionFields where
  versionId : UUID
  sourceRef : String
  sourceSha256 : String
  inputSha256 : String
  structureSha256 : String
  metadataReviewRef : String
  expectedArticleCount : ℤ
  expectedChunkCount : ℤ
  expectedInstrumentId : UUID
  dateReviewRef : Option String
  contentMode : String
  expectedProvisionCount : Option ℤ
  staticReviewSha256 : Option String
  numberingReview : Option (ArticleNumberingReview L)
deriving DecidableEq

def sourceUrl (parsed : SplitUrl) : Bool :=
  parsed.scheme == "file" && parsed.path.startsWith "/" && parsed.query == "" &&
    parsed.fragment == ""

/-- The counts that go with the content mode. -/
def countsFit (s : ReleaseSelectionFields L) : Bool :=
  if s.contentMode = "articles" then
    decide (0 < s.expectedArticleCount) &&
      [none,some s.expectedArticleCount].contains s.expectedProvisionCount &&
      s.numberingReview.all fun review => decide
        (s.expectedArticleCount = review.value.lastArticle-review.value.firstArticle+1)
  else
    s.expectedArticleCount == 0 && s.expectedProvisionCount == some 1 && s.numberingReview.isNone

def releaseSelectionChecks : Checks (ReleaseSelectionFields L) := fun s =>
  under "quality_invalid_selection"
    [isUUID7 s.versionId,
     isUUID7 s.expectedInstrumentId,
     s.staticReviewSha256.all sha,
     s.dateReviewRef.all (text · 512),
     text s.sourceRef 4096,
     (L.urlsplit s.sourceRef).any sourceUrl,
     sha s.sourceSha256 && sha s.inputSha256 && sha s.structureSha256,
     text s.metadataReviewRef 512,
     decide (0 < s.expectedChunkCount),
     ["articles","non_article_document"].contains s.contentMode,
     s.expectedProvisionCount.all (0 < ·),
     countsFit L s]

abbrev ReleaseSelection : Type := Checked (releaseSelectionChecks L)

/-- `source_key`; the constructor of a selection has split its reference before. -/
def sourceKey (s : ReleaseSelection L) : String :=
  match L.urlsplit s.value.sourceRef with
  | none => ""
  | some parsed =>
    let value :=
      if parsed.netloc ≠ "" then "//"++parsed.netloc++parsed.path
      else String.ofList (parsed.path.toList.dropWhile (· == '/'))
    L.normcase (L.normpath (L.unquote value))

@[ext] structure ReleaseReportIdentityFields where
  reportPath : String
  reportSha256 : String
  selectionCount : ℤ
  datasetVersion : String
  parserVersion : String
  chunkParserVersion : String
deriving DecidableEq

def releaseReportIdentityChecks : Checks ReleaseReportIdentityFields := fun r =>
  under invalid
    [absoluteReportPath L r.reportPath,
     sha r.reportSha256,
     decide (1 ≤ r.selectionCount ∧ r.selectionCount ≤ 40000),
     text r.datasetVersion 128,
     text r.parserVersion 64,
     [r.parserVersion++"/hierarchical-v1",r.parserVersion++"/hierarchical-v2"].contains
      r.chunkParserVersion]

abbrev ReleaseReportIdentity : Type := Checked (releaseReportIdentityChecks L)

@[ext] structure ReleaseEntryFields where
  reportSha256 : String
  row : ℤ
  selection : ReleaseSelection L
deriving DecidableEq

def releaseEntryChecks : Checks (ReleaseEntryFields L) := fun e =>
  under invalid [sha e.reportSha256,decide (1 ≤ e.row ∧ e.row ≤ 40000)]

abbrev ReleaseEntry : Type := Checked (releaseEntryChecks L)

@[ext] structure ReleaseReplacementFields where
  old : ReleaseEntry L
  new : ReleaseEntry L
deriving DecidableEq

def releaseReplacementChecks : Checks (ReleaseReplacementFields L) := fun r =>
  let old := r.old.value.selection
  let new := r.new.value.selection
  under invalid
    [sourceKey L old == sourceKey L new,
     old.value.sourceSha256 == new.value.sourceSha256,
     old.value.expectedInstrumentId == new.value.expectedInstrumentId,
     old.value.versionId != new.value.versionId,
     r.old.value.reportSha256 != r.new.value.reportSha256]

abbrev ReleaseReplacement : Type := Checked (releaseReplacementChecks L)

mutual

/-- `dumps` raises on an integer of more than 4300 digits. -/
def printable : Json → Bool
  | .number n => (toString n.natAbs).length ≤ 4300
  | .array items => printableItems items
  | .object fields => printableFields fields
  | _ => true

def printableItems : List Json → Bool
  | [] => true
  | item::items => printable item && printableItems items

def printableFields : List (String × Json) → Bool
  | [] => true
  | (_,value)::fields => printable value && printableFields fields

end

def canonical (value : Json) : Except String (List UInt8) := do
  require (finite value = true ∧ printable value = true) invalid
  .ok (encode (dumps value))

def uuidJson (id : UUID) : Json := .string (String.ofList (uuidString id))

def optionJson {α : Type} (json : α → Json) : Option α → Json
  | none => .null
  | some a => json a

def reviewJson (r : ArticleNumberingReview L) : Json :=
  .object
    [("first_article",.number r.value.firstArticle),
     ("last_article",.number r.value.lastArticle),
     ("review_ref",.string r.value.reviewRef),
     ("evidence_ref",.string r.value.evidenceRef),
     ("evidence_sha256",.string r.value.evidenceSha256)]

/-- `_selection_dict` -/
def selectionJson (s : ReleaseSelection L) : Json :=
  .object
    [("version_id",uuidJson s.value.versionId),
     ("source_ref",.string s.value.sourceRef),
     ("source_sha256",.string s.value.sourceSha256),
     ("input_sha256",.string s.value.inputSha256),
     ("structure_sha256",.string s.value.structureSha256),
     ("metadata_review_ref",.string s.value.metadataReviewRef),
     ("expected_article_count",.number s.value.expectedArticleCount),
     ("expected_chunk_count",.number s.value.expectedChunkCount),
     ("expected_instrument_id",uuidJson s.value.expectedInstrumentId),
     ("date_review_ref",optionJson .string s.value.dateReviewRef),
     ("content_mode",.string s.value.contentMode),
     ("expected_provision_count",optionJson .number s.value.expectedProvisionCount),
     ("static_review_sha256",optionJson .string s.value.staticReviewSha256),
     ("numbering_review",optionJson (reviewJson L) s.value.numberingReview)]

def identityJson (r : ReleaseReportIdentity L) : Json :=
  .object
    [("report_path",.string r.value.reportPath),
     ("report_sha256",.string r.value.reportSha256),
     ("selection_count",.number r.value.selectionCount),
     ("dataset_version",.string r.value.datasetVersion),
     ("parser_version",.string r.value.parserVersion),
     ("chunk_parser_version",.string r.value.chunkParserVersion)]

def entryJson (e : ReleaseEntry L) : Json :=
  .object
    [("report_sha256",.string e.value.reportSha256),
     ("row",.number e.value.row),
     ("selection",selectionJson L e.value.selection)]

def replacementJson (r : ReleaseReplacement L) : Json :=
  .object [("old",entryJson L r.value.old),("new",entryJson L r.value.new)]

structure ReleaseSetProvenanceFields where
  manifestSha256 : String
  selectionSha256 : String
  reports : List (ReleaseReportIdentity L)
  entries : List (ReleaseEntry L)
  replacements : List (ReleaseReplacement L)
deriving DecidableEq

def selectionDocument (p : ReleaseSetProvenanceFields L) : Json :=
  .object
    [("schema_version",.string "release-selection-v3"),
     ("reports",.array (p.reports.map (identityJson L))),
     ("entries",.array (p.entries.map (entryJson L))),
     ("replacements",.array (p.replacements.map (replacementJson L)))]

def selectionDigest (p : ReleaseSetProvenanceFields L) : Except String String := do
  let bytes ← canonical (selectionDocument L p)
  .ok (hex (sha256 bytes))

def toDict (p : ReleaseSetProvenanceFields L) : Json :=
  .object
    [("schema_version",.string "release-provenance-v1"),
     ("manifest_sha256",.string p.manifestSha256),
     ("selection_sha256",.string p.selectionSha256),
     ("reports",.array (p.reports.map (identityJson L))),
     ("entries",.array (p.entries.map (entryJson L))),
     ("replacements",.array (p.replacements.map (replacementJson L)))]

def maxProvenanceBytes : ℕ := 64*1024*1024

def distinct {α : Type} [DecidableEq α] (items : List α) : Bool := decide items.Nodup

variable {L} in
def entryKey (e : ReleaseEntry L) : String × ℤ := (e.value.reportSha256,e.value.row)

variable {L} in
def reportOrder (reports : List (ReleaseReportIdentity L)) (reportSha256 : String) : Option ℕ :=
  reports.findIdx? fun r => r.value.reportSha256 == reportSha256

variable {L} in
def reportOf (reports : List (ReleaseReportIdentity L)) (reportSha256 : String) :
    Option (ReleaseReportIdentity L) :=
  reports.find? fun r => r.value.reportSha256 == reportSha256

def before (p q : ℤ × ℤ) : Bool := decide (p.1 < q.1) || p.1 == q.1 && decide (p.2 < q.2)

variable {L} in
/-- Every position comes after the `last` one. -/
def inOrder (reports : List (ReleaseReportIdentity L)) : ℤ × ℤ → List (ReleaseEntry L) → Bool
  | _, [] => true
  | last, e::entries =>
    match reportOrder reports e.value.reportSha256 with
    | none => false
    | some index => before last (index,e.value.row) &&
        inOrder reports (index,e.value.row) entries

def totalSelections (reports : List (ReleaseReportIdentity L)) : ℤ :=
  (reports.map fun r => r.value.selectionCount).sum

/-- The loop over the replacements; `seen` has the replaced sources. -/
def replacementsFit (entries : List (ReleaseEntry L)) : List String →
    List (ReleaseReplacement L) → Bool
  | _, [] => true
  | seen, r::replacements =>
    let key := sourceKey L r.value.old.value.selection
    !seen.contains key && r.value.old.value.selection.value.numberingReview.isNone &&
      (entries.find? fun e => entryKey e == entryKey r.value.new) == some r.value.new &&
      replacementsFit entries (key::seen) replacements

variable {L} in
/-- The loop over all entries; the rows seen at its end, or `none` where it raises. -/
def seenRows (reports : List (ReleaseReportIdentity L)) (seen : List (String × ℤ))
    (versions : List UUID) : List (ReleaseEntry L) → Option (List (String × ℤ))
  | [] => some seen
  | e::entries =>
    let version := e.value.selection.value.versionId
    if (reportOf reports e.value.reportSha256).any (fun r => e.value.row ≤ r.value.selectionCount)
        ∧ seen.contains (entryKey e) = false ∧ versions.contains version = false then
      seenRows reports (entryKey e::seen) (version::versions) entries
    else none

def allEntries (p : ReleaseSetProvenanceFields L) : List (ReleaseEntry L) :=
  p.entries++p.replacements.map fun r => r.value.old

def isOk {α : Type} (q : α → Bool) : Except String α → Bool
  | .ok a => q a
  | .error _ => false

def releaseSetProvenanceChecks : Checks (ReleaseSetProvenanceFields L) := fun p =>
  under invalid
    [sha p.manifestSha256 && sha p.selectionSha256,
     decide (1 ≤ p.reports.length ∧ p.reports.length ≤ 256),
     decide (1 ≤ p.entries.length ∧ p.entries.length ≤ 20000),
     decide (p.replacements.length ≤ 256),
     distinct (p.reports.map fun r => r.value.reportSha256),
     distinct (p.reports.map fun r => reportPathKey L r.value.reportPath),
     (p.reports.map fun r => r.value.datasetVersion).dedup.length == 1,
     decide (totalSelections L p.reports ≤ 40000),
     inOrder p.reports (-1,0) p.entries,
     distinct (p.entries.map entryKey),
     distinct (p.entries.map fun e => sourceKey L e.value.selection),
     distinct (p.entries.map fun e => e.value.selection.value.versionId),
     replacementsFit L p.entries [] p.replacements,
     (seenRows p.reports [] [] (allEntries L p)).any fun seen =>
      (seen.length : ℤ) == totalSelections L p.reports,
     isOk (· == p.selectionSha256) (selectionDigest sha256 L p),
     isOk (fun bytes => decide (bytes.length ≤ maxProvenanceBytes)) (canonical (toDict L p))]

abbrev ReleaseSetProvenance : Type := Checked (releaseSetProvenanceChecks sha256 L)

/-- `_object`: the keys of a dictionary are distinct. -/
def objectOf (value : Json) (names : List String) : Except String JsonObject :=
  match value with
  | .object fields => if (fields.map Prod.fst).Perm names then .ok fields else .error invalid
  | _ => .error invalid

def field (fields : JsonObject) (name : String) : Json := (fields.lookup name).getD .null

def stringOf : Json → Option String
  | .string s => some s
  | _ => none

def intOf : Json → Option ℤ
  | .number n => some n
  | _ => none

def optionOf {α : Type} (read : Json → Option α) : Json → Option (Option α)
  | .null => some none
  | value => (read value).map some

def uuidOf (value : Json) : Except String UUID :=
  match readUUID value, stringOf value with
  | some id, some s => if String.ofList (uuidString id) = s then .ok id else .error invalid
  | _, _ => .error invalid

/-- The arguments of a constructor, which raises `code` at one of the wrong type. -/
def typed {α : Type} (code : String) : Option α → Except String α
  | none => .error code
  | some a => .ok a

def reviewFields (data : JsonObject) : Option ArticleNumberingReviewFields := do
  let firstArticle ← intOf (field data "first_article")
  let lastArticle ← intOf (field data "last_article")
  let reviewRef ← stringOf (field data "review_ref")
  let evidenceRef ← stringOf (field data "evidence_ref")
  let evidenceSha256 ← stringOf (field data "evidence_sha256")
  some ⟨firstArticle,lastArticle,reviewRef,evidenceRef,evidenceSha256⟩

def reviewFromDict (value : Json) : Except String (Option (ArticleNumberingReview L)) :=
  match value with
  | .null => .ok none
  | value => do
    let data ← objectOf value
      ["first_article","last_article","review_ref","evidence_ref","evidence_sha256"]
    let fields ← typed "quality_invalid_numbering_review" (reviewFields data)
    let review ← postInit (articleNumberingReviewChecks L) fields
    .ok (some review)

def selectionFields (data : JsonObject) (versionId expectedInstrumentId : UUID)
    (numberingReview : Option (ArticleNumberingReview L)) :
    Option (ReleaseSelectionFields L) := do
  let sourceRef ← stringOf (field data "source_ref")
  let sourceSha256 ← stringOf (field data "source_sha256")
  let inputSha256 ← stringOf (field data "input_sha256")
  let structureSha256 ← stringOf (field data "structure_sha256")
  let metadataReviewRef ← stringOf (field data "metadata_review_ref")
  let expectedArticleCount ← intOf (field data "expected_article_count")
  let expectedChunkCount ← intOf (field data "expected_chunk_count")
  let dateReviewRef ← optionOf stringOf (field data "date_review_ref")
  let contentMode ← stringOf (field data "content_mode")
  let expectedProvisionCount ← optionOf intOf (field data "expected_provision_count")
  let staticReviewSha256 ← optionOf stringOf (field data "static_review_sha256")
  some ⟨versionId,sourceRef,sourceSha256,inputSha256,structureSha256,metadataReviewRef,
    expectedArticleCount,expectedChunkCount,expectedInstrumentId,dateReviewRef,contentMode,
    expectedProvisionCount,staticReviewSha256,numberingReview⟩

def selectionFromDict (value : Json) : Except String (ReleaseSelection L) := do
  let data ← objectOf value
    ["version_id","source_ref","source_sha256","input_sha256","structure_sha256",
     "metadata_review_ref","expected_article_count","expected_chunk_count",
     "expected_instrument_id","date_review_ref","content_mode","expected_provision_count",
     "static_review_sha256","numbering_review"]
  let versionId ← uuidOf (field data "version_id")
  let expectedInstrumentId ← uuidOf (field data "expected_instrument_id")
  let numberingReview ← reviewFromDict L (field data "numbering_review")
  let fields ← typed "quality_invalid_selection"
    (selectionFields L data versionId expectedInstrumentId numberingReview)
  postInit (releaseSelectionChecks L) fields

def identityFields (data : JsonObject) : Option ReleaseReportIdentityFields := do
  let reportPath ← stringOf (field data "report_path")
  let reportSha256 ← stringOf (field data "report_sha256")
  let selectionCount ← intOf (field data "selection_count")
  let datasetVersion ← stringOf (field data "dataset_version")
  let parserVersion ← stringOf (field data "parser_version")
  let chunkParserVersion ← stringOf (field data "chunk_parser_version")
  some ⟨reportPath,reportSha256,selectionCount,datasetVersion,parserVersion,chunkParserVersion⟩

def identityFromDict (value : Json) : Except String (ReleaseReportIdentity L) := do
  let data ← objectOf value
    ["report_path","report_sha256","selection_count","dataset_version","parser_version",
     "chunk_parser_version"]
  let fields ← typed invalid (identityFields data)
  postInit (releaseReportIdentityChecks L) fields

def entryFromDict (value : Json) : Except String (ReleaseEntry L) := do
  let data ← objectOf value ["report_sha256","row","selection"]
  let selection ← selectionFromDict L (field data "selection")
  let reportSha256 ← typed invalid (stringOf (field data "report_sha256"))
  let row ← typed invalid (intOf (field data "row"))
  postInit (releaseEntryChecks L) ⟨reportSha256,row,selection⟩

def replacementFromDict (value : Json) : Except String (ReleaseReplacement L) := do
  let data ← objectOf value ["old","new"]
  let old ← entryFromDict L (field data "old")
  let new ← entryFromDict L (field data "new")
  postInit (releaseReplacementChecks L) ⟨old,new⟩

def boundedItems (low high : ℕ) : Json → Except String (List Json)
  | .array items => do
    require (low ≤ items.length ∧ items.length ≤ high) invalid
    .ok items
  | _ => .error invalid

def fromDict (value : Json) : Except String (ReleaseSetProvenance sha256 L) := do
  let data ← objectOf value
    ["schema_version","manifest_sha256","selection_sha256","reports","entries","replacements"]
  require (stringOf (field data "schema_version") = some "release-provenance-v1") invalid
  let reports ← boundedItems 1 256 (field data "reports")
  let entries ← boundedItems 1 20000 (field data "entries")
  let replacements ← boundedItems 0 256 (field data "replacements")
  let bytes ← canonical value
  require (bytes.length ≤ maxProvenanceBytes) invalid
  let reports ← reports.mapM (identityFromDict L)
  let entries ← entries.mapM (entryFromDict L)
  let replacements ← replacements.mapM (replacementFromDict L)
  let manifestSha256 ← typed invalid (stringOf (field data "manifest_sha256"))
  let selectionSha256 ← typed invalid (stringOf (field data "selection_sha256"))
  postInit (releaseSetProvenanceChecks sha256 L)
    ⟨manifestSha256,selectionSha256,reports,entries,replacements⟩

end LawyerAgent.ReleaseProvenance
