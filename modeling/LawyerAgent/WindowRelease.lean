import LawyerAgent.CharWindows
import LawyerAgent.Outcomes.Except
import Mathlib.Algebra.Order.Ring.Rat

/-!
# The window release

A release report names the documents whose windows were accepted. `rows` reads
each document's windows and vectors beside its text, checks them against what
was accepted, and yields the rows that go into the index.
-/

set_option autoImplicit false

namespace LawyerAgent.WindowRelease
open Common CanonicalJson PythonText
open CharWindows hiding version
open Outcomes (require)

def model : String := "qwen3.7-text-embedding"

structure Entry where
  id : String
  directory : String
  title : List Char
  chunks : ℤ
  sourceRelativePath : List Char
  sourceSha256 : String
  needsReview : Bool
  oldQualityFlags : Json
  pictures : Json
  sourceXmlParagraphsNotVerbatimContained : Json

structure Report where
  status : String
  errors : List Json
  verifiedDocuments : ℤ
  expectedDocuments : ℤ
  chunks : ℤ
  rows : List Entry

/-- A document's directory. Of a JSON file that is hashed as a whole the
value is kept. -/
structure Folder where
  root : String
  completedSha256 : String
  identity : String
  dataSha256 : String
  data : Json
  artifact : String → Option String
  documentId : String
  fulltextSha256 : String
  source : Json
  fulltext : List Char
  chunks : List Chunk
  vectors : List VectorLine

/-- What stands above the document directories of one batch. -/
structure BatchRoot where
  config : Json
  sourcesSha256 : String
  runnerSha256 : String

/-- The disk, the hash and the packing of a vector as 32-bit floats; `pathName`
is the last part of a path. -/
structure Files where
  sha256 : List UInt8 → Digest
  floats : List ℚ → List UInt8
  pathName : String → String
  folder : String → Folder
  root : String → BatchRoot

/-- What a path of keys leads to; a missing key fails the check it is read for. -/
def member : Json → List String → Option Json
  | value, [] => some value
  | .object fields, key::path => (fields.lookup key).bind fun value => member value path
  | _, _::_ => none

def textAt (value : Json) (path : List String) : Option String :=
  match member value path with
  | some (.string text) => some text
  | _ => none

def numberAt (value : Json) (path : List String) : Option ℤ :=
  match member value path with
  | some (.number n) => some n
  | _ => none

structure Row extends Chunk where
  sourceId : String
  sourceRelativePath : List Char
  sourceSha256 : String
  model : String
  releaseSha256 : String
  scope : String
  region : List Char
  needsReview : Bool
  quality : Json
  vector : List ℚ
  rowSha256 : String

def nationalFolders : List (List Char) :=
  ["法律".toList,"行政法规".toList,"司法解释".toList,"宪法".toList,"监察法规".toList]

/-- The largest vector component, `3.4028234e38` as a double. -/
def float32Max : ℚ := 340282339999999992395853996843190976512

def Component.value : Component → ℚ
  | .number value => value
  | .notFinite => 0

def validateVector (vector : List Component) : Except String (List ℚ) := do
  require (vector.length = 1024) "invalid_vector_dimension"
  require (vector.all Component.isFinite = true) "invalid_vector"
  require (vector.any Component.isNonzero = true) "zero_vector"
  require ((vector.all fun x => decide (|Component.value x| ≤ float32Max)) = true)
    "vector_float32_overflow"
  .ok (vector.map Component.value)

def Row.json (row : Row) : Json :=
  .object [("chunk_id",.string row.chunkId),("document_id",.string row.documentId),
    ("document_name",.string (String.ofList row.documentName)),
    ("text",.string (String.ofList row.text)),
    ("embedding_text",.string (String.ofList row.embeddingText)),
    ("fulltext_sha256",.string row.fulltextSha256),
    ("embedding_text_sha256",.string row.embeddingTextSha256),
    ("chunk_index",.number row.chunkIndex),("start_char",.number row.startChar),
    ("end_char",.number row.endChar),("source_id",.string row.sourceId),
    ("source_relative_path",.string (String.ofList row.sourceRelativePath)),
    ("source_sha256",.string row.sourceSha256),("model",.string row.model),
    ("release_sha256",.string row.releaseSha256),("scope",.string row.scope),
    ("region",.string (String.ofList row.region)),("needs_review",.bool row.needsReview),
    ("quality",row.quality)]

def rowDigest (files : Files) (row : Row) : String :=
  digestValue files.sha256
    (.array [row.json,.string (hex (files.sha256 (files.floats row.vector)))])

/-- The bytes of the text fields, with the bytes the collection has for them. -/
def Row.sizes (row : Row) : List (ℕ × ℕ) :=
  [(row.chunkId.utf8ByteSize,64),(row.documentId.utf8ByteSize,64),
    (row.sourceId.utf8ByteSize,24),((encode row.documentName).length,2048),
    ((encode row.text).length,8192),((encode row.embeddingText).length,16384),
    (row.model.utf8ByteSize,128),((encode row.sourceRelativePath).length,4096),
    (row.sourceSha256.utf8ByteSize,64),(row.fulltextSha256.utf8ByteSize,64),
    (row.embeddingTextSha256.utf8ByteSize,64),(row.releaseSha256.utf8ByteSize,64),
    (row.scope.utf8ByteSize,32),((encode row.region).length,128),
    (row.rowSha256.utf8ByteSize,64)]

def scopeOf (parts : List (List Char)) : String :=
  match parts with
  | [] => "unknown"
  | first::_ =>
    if first ∈ nationalFolders then "national"
    else if first = "地方法规".toList then "local"
    else "unknown"

def regionOf (parts : List (List Char)) : List Char :=
  if scopeOf parts = "local" ∧ 2 < parts.length then (parts.drop 1).headD [] else []

def buildRow (files : Files) (chunk : Chunk) (vector : VectorLine) (entry : Entry)
    (release : String) : Except String Row := do
  require (strip chunk.text ≠ [] ∧ chunk.embeddingText = embeddingInput entry.title chunk.text)
    "window_embedding_text_mismatch"
  require (chunk.documentName = entry.title) "window_title_mismatch"
  require (chunk.chunkId = vector.chunkId ∧
      chunk.embeddingTextSha256 = vector.embeddingTextSha256 ∧
      vector.embeddingTextSha256 = digestText files.sha256 chunk.embeddingText)
    "window_vector_identity_mismatch"
  require (chunk.endChar-chunk.startChar = chunk.text.length) "window_span_mismatch"
  let parts := (entry.sourceRelativePath.map fun c => if c = '\\' then '/' else c).splitOn '/'
  let quality := Json.object [("flags",entry.oldQualityFlags),("pictures",entry.pictures),
    ("coverage_warnings",entry.sourceXmlParagraphsNotVerbatimContained),
    ("legal_validity",.string "unknown")]
  let values ← validateVector vector.vector
  have row : Row := {
    toChunk := chunk
    sourceId := entry.id
    sourceRelativePath := entry.sourceRelativePath
    sourceSha256 := entry.sourceSha256
    model := model
    releaseSha256 := release
    scope := scopeOf parts
    region := regionOf parts
    needsReview := entry.needsReview
    quality := quality
    vector := values
    rowSha256 := "" }
  have row := {row with rowSha256 := rowDigest files row}
  require ((row.sizes.all fun field => decide (field.1 ≤ field.2)) = true)
    "window_field_too_long"
  .ok row

/-- A report that was accepted, and the completions frozen with it. -/
structure Release where
  sha256 : String
  report : Report
  completions : Option (List (String × String))
  verified : report.status = "passed" ∧ report.errors = [] ∧
    report.verifiedDocuments = report.expectedDocuments ∧
    report.expectedDocuments = report.rows.length
  distinct : (report.rows.map Entry.id).Nodup
  counted : (report.rows.map Entry.chunks).sum = report.chunks

def zipLongest {α β : Type} : List α → List β → List (Option α × Option β)
  | [], bs => bs.map fun b => (none,some b)
  | a::as, bs => (some a,bs.head?)::zipLongest as bs.tail

/-- What the loop over one document's windows keeps. -/
structure Reading where
  seen : List String
  count : ℤ
  cursor : ℤ
  docCount : ℤ
  rows : List Row

/-- The checks of one window against the text and the one before it. -/
def checkWindow (folder : Folder) (text : List Char) (cursor docCount : ℤ) (chunk : Chunk) :
    Except String Unit := do
  let start := chunk.startChar
  let stop := chunk.endChar
  require (chunk.text = pySlice text start stop ∧
      chunk.fulltextSha256 = folder.fulltextSha256 ∧ chunk.documentId = folder.documentId ∧
      chunk.chunkIndex = docCount ∧ 0 ≤ start ∧ start < stop ∧ stop ≤ text.length ∧
      stop-start ≤ 1000)
    "release_slice_changed"
  require (if docCount = 0 then start = 0 else cursor-start = 200) "release_window_gap"

def readWindow (files : Files) (release : String) (entry : Entry) (folder : Folder)
    (text : List Char) (s : Reading) (pair : Option Chunk × Option VectorLine) :
    Except String Reading :=
  match pair with
  | (some chunk,some vector) => do
    checkWindow folder text s.cursor s.docCount chunk
    require (chunk.chunkId ∉ s.seen) "release_duplicate_chunks"
    let row ← buildRow files chunk vector entry release
    .ok {
      seen := s.seen++[chunk.chunkId]
      count := s.count+1
      cursor := chunk.endChar
      docCount := s.docCount+1
      rows := s.rows++[row] }
  | _ => .error "release_vector_count_mismatch"

/-- What the loop over the documents keeps; `configs` are the roots whose
configuration has been checked. -/
structure Progress where
  configs : List String
  seen : List String
  count : ℤ
  rows : List Row

def checkConfig (root : BatchRoot) : Except String Unit := do
  require (textAt root.config ["model","model"] = some model ∧
      numberAt root.config ["model","dimensions"] = some 1024 ∧
      numberAt root.config ["size"] = some 1000 ∧ numberAt root.config ["overlap"] = some 200 ∧
      textAt root.config ["embedding_template"] =
        some "法律名称：\x7bdocument_name\x7d\n正文：\x7btext\x7d")
    "release_model_mismatch"
  require (some root.sourcesSha256 = textAt root.config ["sources_sha256"] ∧
      some root.runnerSha256 = textAt root.config ["script_sha256"])
    "release_config_changed"

def readConfig (files : Files) (configs : List String) (root : String) :
    Except String (List String) :=
  if root ∈ configs then .ok configs
  else do
    checkConfig (files.root root)
    .ok (configs++[root])

def artifactsKept (files : Files) (folder : Folder) : Bool :=
  match member folder.data ["output_hashes"] with
  | some (.object hashes) => hashes.all fun field =>
    files.pathName field.1 == field.1 &&
      match field.2 with
      | .string hash => folder.artifact field.1 == some hash
      | _ => false
  | _ => false

/-- The checks of a document before its windows are read. -/
def checkDocument (files : Files) (entry : Entry) (folder : Folder)
    (text : List Char) : Except String Unit := do
  require (digestValue files.sha256 folder.data = folder.dataSha256) "completion_hash_invalid"
  require (artifactsKept files folder = true) "release_artifact_changed"
  require (folder.identity = digestValue files.sha256
        (.array [(files.root folder.root).config,folder.source]) ∧
      textAt folder.data ["status"] = some "completed" ∧
      textAt folder.data ["document_id"] = some folder.documentId)
    "release_completion_identity_invalid"
  require (textAt folder.source ["id"] = some entry.id ∧
      textAt folder.source ["source_sha256"] = some entry.sourceSha256)
    "release_source_mismatch"
  require (digestText files.sha256 text = folder.fulltextSha256) "fulltext_hash_changed"

def readDocument (files : Files) (r : Release) (s : Progress) (entry : Entry) :
    Except String Progress := do
  let folder := files.folder entry.directory
  require ((r.completions.all fun completions =>
      completions.lookup entry.id == some folder.completedSha256) = true)
    "release_snapshot_changed"
  let configs ← readConfig files s.configs folder.root
  let text := readText folder.fulltext
  checkDocument files entry folder text
  let t ← (zipLongest folder.chunks folder.vectors).foldlM
    (readWindow files r.sha256 entry folder text) ⟨s.seen,s.count,0,0,s.rows⟩
  require (t.cursor = text.length ∧ t.docCount = entry.chunks) "release_document_incomplete"
  .ok ⟨configs,t.seen,t.count,t.rows⟩

/-- `Release.rows`, run to its end. -/
def Release.rows (files : Files) (r : Release) : Except String (List Row) := do
  let s ← r.report.rows.foldlM (readDocument files r) ⟨[],[],0,[]⟩
  require (s.count = r.report.chunks) "release_incomplete"
  .ok s.rows

end LawyerAgent.WindowRelease
