import LawyerAgent.JsonReader
import LawyerAgent.Outcomes.Except
import LawyerAgent.PythonText
import Mathlib.Algebra.Order.Ring.Rat
import Mathlib.Data.Rat.Cast.Defs

/-!
# Preparing the import files

The vector files of all documents of a manifest are checked against the chunks
they were made from, and their rows are written as JSON lines into batch files
of bounded size. A failed document is reported and the others go on; only a run
without an error publishes its batches.
-/

set_option autoImplicit false

namespace LawyerAgent.AttuPreparation
open Common CanonicalJson JsonReader PythonText
open Envelope (digits)
open JsonText (decimal)
open Outcomes (require)

def model : String := "qwen3.7-text-embedding"

def dimensions : ℕ := 1024

def importFields : List String :=
  ["vector","model","chunk_id","text","document_id","chunk_type","article_no","parent_chunk_id"]

variable (sha256 : List UInt8 → Digest)

/-- `sha256(data).hexdigest()` -/
def hexdigest (data : List UInt8) : String := hex (sha256 data)

/-- The value of `float.__repr__` without its sign. -/
def unsignedValue (text : List Char) : ℚ :=
  let mantissa := text.takeWhile (· ≠ 'e')
  let exponent := ((text.dropWhile (· ≠ 'e')).drop 1).filter (· ≠ '+')
  let whole := mantissa.takeWhile (· ≠ '.')
  let fraction := (mantissa.dropWhile (· ≠ '.')).drop 1
  (decimal (whole++fraction) : ℚ)*(10 : ℚ)^(readInt exponent-fraction.length)

def floatValue (text : String) : ℚ :=
  match text.toList with
  | '-'::rest => -unsignedValue rest
  | rest => unsignedValue rest

def numeric : Json → Option ℚ
  | .bool b => some (if b then 1 else 0)
  | .number n => some n
  | .float text => some (floatValue text)
  | _ => none

mutual

/-- `==` of Python between values of JSON. -/
def jsonEqual : Json → Json → Bool
  | .null, .null => true
  | .string s, .string t => s == t
  | .array items, .array others => itemsEqual items others
  | .object fields, .object others => fields.length == others.length && fieldsEqual fields others
  | value, other =>
    match numeric value, numeric other with
    | some x, some y => x == y
    | _, _ => false

def itemsEqual : List Json → List Json → Bool
  | [], [] => true
  | item::items, other::others => jsonEqual item other && itemsEqual items others
  | _, _ => false

def fieldsEqual : List (String × Json) → List (String × Json) → Bool
  | [], _ => true
  | (key,value)::fields, others =>
    (match others.lookup key with
      | some other => jsonEqual value other
      | none => false) && fieldsEqual fields others

end

/-- `fields.get(key)` -/
def get (fields : JsonObject) (key : String) : Json := (fields.lookup key).getD .null

def textOf : Json → Option String
  | .string s => some s
  | _ => none

def asObject (code : String) : Json → Except String JsonObject
  | .object fields => .ok fields
  | _ => .error code

def asArray (code : String) : Json → Except String (List Json)
  | .array items => .ok items
  | _ => .error code

def stringField (value : Json) (name : String) (maximum : ℕ) (nullable : Bool) :
    Except String Unit :=
  match value with
  | .null => if nullable then .ok () else .error ("invalid_string:"++name)
  | .string s => do
    require (strip s.toList ≠ []) ("invalid_string:"++name)
    require (s.utf8ByteSize ≤ maximum) ("string_too_long:"++name)
  | _ => .error ("invalid_string:"++name)

/-- `MAX_FLOAT32` is `3.4028234663852886e+38`. A float is compared with it
through its shortest text, which orders as the float does. -/
def inFloat32 : Json → Bool
  | .number n => |n| ≤ 340282346638528859811704183484516925440
  | .float text => floatText text && |floatValue text| ≤ 34028234663852886*10^22
  | _ => false

/-- `abs(value) >= 2**-149`, which is `1.401298464324817e-45`. -/
def visible : Json → Bool
  | .number n => n ≠ 0
  | .float text => 1401298464324817/10^60 ≤ |floatValue text|
  | _ => false

def isNumber : Json → Bool
  | .number _ => true
  | .float _ => true
  | _ => false

def checkComponent (nonzero : Bool) (value : Json) : Except String Bool := do
  require (isNumber value = true) "invalid_vector_element_type"
  require (inFloat32 value = true) "invalid_vector_number"
  .ok (nonzero || visible value)

def checkVector (vector : Json) : Except String Unit := do
  let items ← asArray "invalid_vector_dimension" vector
  require (items.length = dimensions) "invalid_vector_dimension"
  let nonzero ← items.foldlM checkComponent false
  require (nonzero = true) "zero_vector"

/-- The rows seen so far, by identifier. -/
abbrev Ids : Type := List (String × JsonObject)

def checkRow (documentId : String) (s : ℕ × Ids) (pair : Json × Json) :
    Except String (ℕ × Ids) := do
  let index := toString s.1
  let row ← asObject ("invalid_row:"++index) pair.1
  let original ← asObject ("invalid_row:"++index) pair.2
  require ((original.all fun field => match row.lookup field.1 with
    | some value => jsonEqual value field.2
    | none => false) = true) ("source_row_mismatch:"++index)
  require (((row.lookup "document_id").all fun value =>
    jsonEqual value (.string documentId)) = true) ("row_document_id_mismatch:"++index)
  stringField (get row "chunk_id") "chunk_id" 256 false
  stringField (get row "chunk_type") "chunk_type" 256 false
  stringField (get row "text") "text" 65535 false
  stringField (get row "article_no") "article_no" 256 true
  stringField (get row "parent_chunk_id") "parent_chunk_id" 256 true
  require (textOf (get row "content_sha256") =
      (textOf (get row "text")).map fun text => hexdigest sha256 (encode text.toList))
    ("content_hash_mismatch:"++index)
  let chunkId := (textOf (get row "chunk_id")).getD ""
  require (chunkId ∉ s.2.map Prod.fst) ("duplicate_chunk_id_in_document:"++index)
  checkVector (get row "vector")
  .ok (s.1+1,s.2++[(chunkId,row)])

def checkParent (ids : Ids) (index : ℕ) (row : String × JsonObject) : Except String ℕ :=
  match get row.2 "parent_chunk_id" with
  | .string parent => do
    require (parent ≠ row.1 ∧ parent ∈ ids.map Prod.fst) ("parent_not_found:"++toString index)
    require (((ids.lookup parent).all fun found =>
      jsonEqual (get found "parent_chunk_id") .null) = true)
      ("invalid_parent_chain:"++toString index)
    .ok (index+1)
  | _ => .ok (index+1)

/-- A source's `chunks.jsonl`: its digest, and the values of its lines. -/
structure ChunkFile where
  sha256 : String
  rows : Except String (List Json)

def validateDocument (entry : JsonObject) (data document : Json) (chunks : ChunkFile) :
    Except String (List JsonObject) := do
  let data ← asObject "invalid_document_object" data
  let document ← asObject "invalid_document_object" document
  require (textOf (get data "model") = some model) "model_mismatch"
  require ((match get data "dimensions" with
    | .number n => n == dimensions
    | _ => false) = true) "dimension_mismatch"
  require (jsonEqual (get data "document") (.object document) = true)
    "document_metadata_mismatch"
  require (jsonEqual (get document "document_id") (get entry "document_id") = true ∧
      (textOf (get document "document_id")).isSome) "manifest_identity_mismatch:document_id"
  require (jsonEqual (get document "source_sha256") (get entry "source_sha256") = true ∧
      (textOf (get document "source_sha256")).isSome) "manifest_identity_mismatch:source_sha256"
  require (textOf (get document "id_namespace") = some "offline-export-v1")
    "id_namespace_mismatch"
  require (textOf (get data "chunks_sha256") = some chunks.sha256) "chunks_hash_mismatch"
  require ((match get document "output_hashes" with
    | .object hashes => textOf (get hashes "chunks.jsonl") == some chunks.sha256
    | _ => false) = true) "document_chunks_hash_mismatch"
  let originals ← chunks.rows
  let rows ← asArray "empty_or_invalid_rows" (get data "rows")
  require (0 < rows.length) "empty_or_invalid_rows"
  require ((match get document "chunk_count" with
    | .number n => rows.length == originals.length && n == originals.length
    | _ => false) = true) "chunk_count_mismatch"
  stringField (get document "document_id") "document_id" 256 false
  let documentId := (textOf (get document "document_id")).getD ""
  let checked ← (rows.zip originals).foldlM (checkRow sha256 documentId) (0,[])
  let _ ← checked.2.foldlM (checkParent checked.2) 0
  .ok (checked.2.map Prod.snd)

/-- A batch as the report names it. -/
structure Batch where
  file : String
  rows : ℕ
  bytes : ℕ
  sha256 : String

/-- `BatchWriter`: `handle` is the open file with what was written to it, and
`files` are the closed ones. -/
structure BatchWriter where
  maxBytes : ℕ
  handle : Option (String × List UInt8)
  size : ℕ
  count : ℕ
  batches : List Batch
  files : List (String × List UInt8)

def encodeJson (value : Json) : List UInt8 := encode (write value++['\n'])

/-- `import_{number:05d}.jsonl` -/
def batchName (number : ℕ) : String :=
  String.ofList ("import_".toList++
    (if number < 100000 then digits 10 5 number else Nat.toDigits 10 number)++".jsonl".toList)

def BatchWriter.close (w : BatchWriter) : BatchWriter :=
  match w.handle with
  | none => w
  | some (name,content) =>
    { w with
      handle := none
      size := 0
      count := 0
      batches := w.batches++[⟨name,w.count,w.size,hexdigest sha256 content⟩]
      files := w.files++[(name,content)] }

def BatchWriter.ensureOpen (w : BatchWriter) : BatchWriter :=
  match w.handle with
  | none => {w with handle := some (batchName (w.batches.length+1),[])}
  | some _ => w

def BatchWriter.append (w : BatchWriter) (raw : List UInt8) : BatchWriter :=
  { w with
    handle := w.handle.map fun file => (file.1,file.2++raw)
    size := w.size+raw.length
    count := w.count+1 }

def BatchWriter.add (w : BatchWriter) (record : Json) : Except String BatchWriter := do
  let raw := encodeJson record
  require (raw.length ≤ w.maxBytes) "record_exceeds_batch_size"
  let w := if w.handle.isSome ∧ w.maxBytes < w.size+raw.length then w.close sha256 else w
  .ok (w.ensureOpen.append raw)

/-- The lines of a file that is iterated over, each without its line feed. -/
def fileLines : List UInt8 → List UInt8 → List (List UInt8)
  | line, [] => if line = [] then [] else [line]
  | line, b::rest => if b = 10 then line::fileLines [] rest else fileLines (line++[b]) rest

def readRecord (line : List UInt8) : Option Json := (decode line).bind loads

def verifyRecord (line : List UInt8) : Except String Unit := do
  match readRecord line with
  | some (.object record) => do
    require ((record.map Prod.fst).Perm importFields) "output_schema_mismatch"
    checkVector (get record "vector")
  | some _ => .error "output_schema_mismatch"
  | none => .error "invalid_json_or_utf8"

def verifyBatch (files : List (String × List UInt8)) (batch : Batch) : Except String Unit :=
  match files.lookup batch.file with
  | none => .error "run_error:FileNotFoundError"
  | some content => do
    (fileLines [] content).forM verifyRecord
    require ((fileLines [] content).length = batch.rows ∧ content.length = batch.bytes ∧
      hexdigest sha256 content = batch.sha256) "output_readback_failed"

def BatchWriter.verify (w : BatchWriter) : Except String Unit :=
  w.batches.forM (verifyBatch sha256 w.files)

structure Config where
  batchBytes : ℕ
  maxFileBytes : ℕ
  limit : Option ℕ
  checkOnly : Bool

/-- An input file: its size, and what it decodes to. -/
structure InputFile (α : Type) where
  size : ℕ
  content : α

/-- The disk of a run. `names` are the vector files there at the start and
`laterNames` those at the end; `unchanged` says that no input that was read has
been rewritten since, `scriptKept` that the script has not, and `published`
that the report was written and the batches moved to `import`. -/
structure Disk where
  manifest : Option (InputFile (Except String (List Json)))
  names : List String
  laterNames : List String
  vectors : String → Option (InputFile (String × Except String Json))
  documents : String → Option (InputFile (Except String Json))
  chunks : String → Option (InputFile ChunkFile)
  unchanged : Bool
  scriptKept : Bool
  published : Bool

/-- `Reader.read` -/
def readFile {α : Type} (config : Config) (file : Option (InputFile α)) : Except String α :=
  match file with
  | none => .error "missing_input_file"
  | some file => do
    require (file.size ≤ config.maxFileBytes) "input_file_too_large"
    .ok file.content

def isFolder (text : String) : Bool :=
  text.length == 24 && text.toList.all fun c => c ∈ hexDigits

/-- A manifest line: the document's directory and identifier. -/
structure Entry where
  fields : JsonObject
  folder : String
  documentId : String

def vectorName (entry : Entry) : String := entry.folder++".json"

def checkEntry (entries : List Entry) (value : Json) : Except String (List Entry) := do
  let fields ← asObject "invalid_manifest_entry" value
  require (textOf (get fields "status") = some "completed") "manifest_has_unfinished_source"
  let folder := (textOf (get fields "output_directory")).getD ""
  require (isFolder folder = true) "invalid_source_directory"
  require (folder ∉ entries.map Entry.folder) "duplicate_manifest_directory"
  match textOf (get fields "document_id") with
  | none => .error "duplicate_or_invalid_document_id"
  | some documentId => do
    require (documentId ∉ entries.map Entry.documentId) "duplicate_or_invalid_document_id"
    .ok (entries++[⟨fields,folder,documentId⟩])

def readInventory (config : Config) (disk : Disk) : Except String (List Entry) := do
  let lines ← readFile config disk.manifest
  let values ← lines
  require (0 < values.length ∧ values.length ≤ 100000) "invalid_manifest_size"
  values.foldlM checkEntry []

structure Report where
  status : String
  scope : String
  model : String
  dimensions : ℕ
  expectedDocuments : ℕ
  selectedDocuments : ℕ
  validatedDocuments : ℕ
  validatedRows : ℕ
  exportedRows : ℕ
  missingFiles : ℕ
  unexpectedFiles : ℕ
  errorCount : ℕ
  lastError : Option (String × Option String)
  batches : List Batch

/-- What the loop over the documents keeps: the writer, the identifiers stored
in `seen`, the counters and the errors with the file they are about. -/
structure Preparation where
  writer : Option BatchWriter
  seen : List String
  validatedDocuments : ℕ
  validatedRows : ℕ
  errors : List (String × Option String)

def record (documentId : String) (row : JsonObject) : Json :=
  .object [("vector",get row "vector"),("model",.string model),("chunk_id",get row "chunk_id"),
    ("text",get row "text"),("document_id",.string documentId),
    ("chunk_type",get row "chunk_type"),("article_no",get row "article_no"),
    ("parent_chunk_id",get row "parent_chunk_id")]

def chunkIdOf (row : JsonObject) : String := (textOf (get row "chunk_id")).getD ""

def readDocument (config : Config) (disk : Disk) (entry : Entry) :
    Except String (List JsonObject) := do
  let vectors ← readFile config (disk.vectors (vectorName entry))
  let data ← vectors.2
  let document ← readFile config (disk.documents entry.folder)
  let document ← document
  let chunks ← readFile config (disk.chunks entry.folder)
  validateDocument sha256 entry.fields data document chunks

/-- Adds a document's rows until one of them fails. -/
def addRows (documentId : String) : List JsonObject → BatchWriter → BatchWriter × Option String
  | [], w => (w,none)
  | row::rows, w =>
    match w.add sha256 (record documentId row) with
    | .error code => (w,some code)
    | .ok w => addRows documentId rows w

def writeRows (entry : Entry) (rows : List JsonObject) (writer : Option BatchWriter) :
    Option BatchWriter × Option String :=
  match writer with
  | none => (none,none)
  | some w => ((addRows sha256 entry.documentId rows w).map some id)

def processDocument (config : Config) (disk : Disk) (s : Preparation) (entry : Entry) :
    Preparation :=
  match readDocument sha256 config disk entry with
  | .error code => {s with errors := s.errors++[(code,some (vectorName entry))]}
  | .ok rows =>
    if rows.any fun row => chunkIdOf row ∈ s.seen then
      { s with errors := s.errors++
          [("duplicate_chunk_id_across_documents",some (vectorName entry))] }
    else
      let seen := s.seen++rows.map chunkIdOf
      match writeRows sha256 entry rows s.writer with
      | (writer,some code) =>
        { s with
          writer := writer
          seen := seen
          errors := s.errors++[(code,some (vectorName entry))] }
      | (writer,none) =>
        { s with
          writer := writer
          seen := seen
          validatedDocuments := s.validatedDocuments+1
          validatedRows := s.validatedRows+rows.length }

def verifyBatches (writer : Option BatchWriter) : Except String (List Batch) :=
  match writer with
  | none => .ok []
  | some w => do
    w.verify sha256
    .ok w.batches

/-- The last checks of the inputs. -/
def checkInputs (disk : Disk) : Except String Unit := do
  require (disk.unchanged = true) "input_changed_during_run"
  require (disk.names.Perm disk.laterNames) "vector_inventory_changed_during_run"
  require (disk.scriptKept = true) "script_changed_during_run"

structure Result where
  report : Report
  folder : Option (List (String × List UInt8))

/-- The statuses a run ends with before it is published. -/
def runStatus (config : Config) (errors : List (String × Option String)) : String :=
  if errors ≠ [] then "failed"
  else (if config.limit.isSome then "sample_" else "")++
    (if config.checkOnly then "checked" else "ready")

def scopeOf (config : Config) : String := if config.limit.isSome then "sample" else "full"

def failedReport (config : Config) (code : String) : Report where
  status := "failed"
  scope := scopeOf config
  model := model
  dimensions := dimensions
  expectedDocuments := 0
  selectedDocuments := 0
  validatedDocuments := 0
  validatedRows := 0
  exportedRows := 0
  missingFiles := 0
  unexpectedFiles := 0
  errorCount := 1
  lastError := some (code,none)
  batches := []

def missingNames (disk : Disk) (entries : List Entry) : List String :=
  (entries.map vectorName).filter fun name => name ∉ disk.names

def unexpectedNames (disk : Disk) (entries : List Entry) : List String :=
  disk.names.filter fun name => name ∉ entries.map vectorName

/-- The state before the first document. A sample only counts the files that no
manifest line names. -/
def startRun (config : Config) (disk : Disk) (entries : List Entry) : Preparation where
  writer := if config.checkOnly then none else some ⟨config.batchBytes,none,0,0,[],[]⟩
  seen := []
  validatedDocuments := 0
  validatedRows := 0
  errors := if config.limit.isSome then []
    else (unexpectedNames disk entries).map fun name => ("unexpected_vector_file",some name)

def selectedEntries (config : Config) (entries : List Entry) : List Entry :=
  (config.limit.map fun limit => entries.take limit).getD entries

/-- The errors with those of the checks after the last document. -/
def finalErrors (disk : Disk) (s : Preparation) (writer : Option BatchWriter) :
    List (String × Option String) :=
  match verifyBatches sha256 writer >>= fun _ => checkInputs disk with
  | .error code => s.errors++[(code,none)]
  | .ok () => s.errors

def publishes (status : String) (writer : Option BatchWriter) : Bool :=
  (status == "ready" || status == "sample_ready") && writer.isSome

def runEntries (config : Config) (disk : Disk) (entries : List Entry) : Result :=
  let selected := selectedEntries config entries
  let s := selected.foldl (processDocument sha256 config disk) (startRun config disk entries)
  let writer := s.writer.map fun w => w.close sha256
  let errors := finalErrors sha256 disk s writer
  let status := runStatus config errors
  let publish := publishes status writer
  let report : Report := {
    status := if publish && !disk.published then "failed" else status
    scope := scopeOf config
    model := model
    dimensions := dimensions
    expectedDocuments := entries.length
    selectedDocuments := selected.length
    validatedDocuments := s.validatedDocuments
    validatedRows := s.validatedRows
    exportedRows := if publish && disk.published then s.validatedRows else 0
    missingFiles := (missingNames disk entries).length
    unexpectedFiles := (unexpectedNames disk entries).length
    errorCount := errors.length+(if publish && !disk.published then 1 else 0)
    lastError := if publish && !disk.published then some ("publish_failed",none)
      else errors.getLast?
    batches := (verifyBatches sha256 writer).toOption.getD [] }
  ⟨report,if publish && disk.published then writer.map BatchWriter.files else none⟩

/-- `prepare`: an invalid configuration raises, every other failure ends in the
report. -/
def prepare (config : Config) (disk : Disk) : Except String Result := do
  require (0 < config.batchBytes ∧ 0 < config.maxFileBytes) "invalid_size_limit"
  require ((config.limit.all fun limit => decide (0 < limit)) = true) "invalid_sample_limit"
  match readInventory config disk with
  | .error code => .ok ⟨failedReport config code,none⟩
  | .ok entries => .ok (runEntries sha256 config disk entries)

end LawyerAgent.AttuPreparation

namespace LawyerAgent.AttuImport
open Common JsonReader
open AttuPreparation
open Outcomes (require)

def validateReport (report : Report) : Except String Unit := do
  require (report.status = "ready" ∧ report.scope = "full") "source_not_full_ready"
  require (report.errorCount = 0) "source_has_errors"
  require (report.model = model ∧ report.dimensions = 1024) "model_mismatch"
  require (0 < report.expectedDocuments ∧ report.validatedDocuments = report.expectedDocuments)
    "source_document_count_mismatch"
  require (0 < report.exportedRows ∧ report.validatedRows = report.exportedRows)
    "source_row_count_mismatch"
  require (report.batches ≠ [] ∧ (report.batches.map Batch.rows).sum = report.exportedRows)
    "batch_count_mismatch"
  require (report.batches.map Batch.file).Nodup "duplicate_batch_file"

/-- `import_[0-9]{5}\.jsonl`, matched in full. -/
def isBatchName (name : String) : Bool :=
  let text := name.toList
  text.take 7 == "import_".toList && text.drop 12 == ".jsonl".toList &&
    ((text.drop 7).take 5).all Char.isDigit

/-- `bytes.splitlines`, on the line being read and the rest; a line feed after a
carriage return belongs to it. -/
def splitLines : List UInt8 → Bool → List UInt8 → List (List UInt8)
  | line, _, [] => if line = [] then [] else [line]
  | line, afterReturn, b::rest =>
    if b = 10 then
      if afterReturn then splitLines [] false rest else line::splitLines [] false rest
    else if b = 13 then line::splitLines [] true rest
    else splitLines (line++[b]) false rest

variable (sha256 : List UInt8 → Digest)

def readLine (line : List UInt8) : Except String Json :=
  match readRecord line with
  | some value => .ok value
  | none => .error "JSONDecodeError"

/-- `read_batch` from the folder `import`. -/
def readBatch (folder : List (String × List UInt8)) (proof : Batch) :
    Except String (List Json) := do
  require (isBatchName proof.file = true) "invalid_batch_name"
  match folder.lookup proof.file with
  | none => .error "batch_file_missing"
  | some raw => do
    require (raw.length = proof.bytes ∧ proof.bytes ≤ 100000000) "batch_file_size_mismatch"
    require (raw.length = proof.bytes ∧ hexdigest sha256 raw = proof.sha256)
      "batch_hash_mismatch"
    let rows ← (splitLines [] false raw).mapM readLine
    require (rows.length = proof.rows) "batch_row_count_mismatch"
    .ok rows

end LawyerAgent.AttuImport
