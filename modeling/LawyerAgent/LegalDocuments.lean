import LawyerAgent.AttuPreparation
import LawyerAgent.Paging.Follow

/-!
# The local legal document reader

`LocalLegalDocumentStore` reads the paragraph export of a corpus, which a
manifest binds, and delivers a document in pages. The cursor of the next page is
the offset of its first paragraph, signed for the manifest, the document, its
version and its content.
-/

set_option autoImplicit false

namespace LawyerAgent.LegalDocuments
open Common CanonicalJson PythonText
open AttuPreparation (get jsonEqual hexdigest)
open AttuImport (splitLines)
open Outcomes (require)

abbrev Text : Type := List Char

/-- The functions outside the reader, of which nothing is assumed. `loads` is
`none` where `json.loads` raises, `str` is `str` of what is not a text, `stem` is
the stem of a POSIX path and `word` is `\w` beyond ASCII. -/
structure Library where
  sha256 : List UInt8 → Digest
  hmac : List UInt8 → List UInt8 → Digest
  loads : List UInt8 → Option Json
  str : Json → Text
  stem : Text → Text
  word : Char → Bool

variable (L : Library)

structure Signature where
  size : ℕ
  mtime : ℕ
  ctime : ℕ
  inode : Option ℕ
deriving DecidableEq

/-- `regular` is false of links, reparse points and folders. -/
structure FileEntry where
  regular : Bool
  signature : Signature
  payload : List UInt8

/-- `safe` is true of a folder of the root that is neither a link nor a reparse point. -/
structure Folder where
  safe : Bool
  files : List (String × FileEntry)

structure Disk where
  rootSafe : Bool
  files : List (String × FileEntry)
  folders : List (String × Folder)

def maxManifestBytes : ℕ := 64*1024*1024

def maxDocumentBytes : ℕ := 1024*1024

def maxParagraphsBytes : ℕ := 32*1024*1024

/-- `_regular_file`. A frozen file has one signature before and after it is read. -/
def regularFile (file : Option FileEntry) (maximum : ℕ) : Except String (List UInt8) :=
  match file with
  | none => .error "FileNotFoundError"
  | some file => do
    require (file.regular = true) "unsafe_corpus_path"
    require (file.signature.size ≤ maximum) "corpus_file_too_large"
    require (file.payload.length ≤ maximum) "corpus_file_too_large"
    .ok file.payload

def safeDirectory (disk : Disk) (name : String) : Except String Folder :=
  match disk.folders.lookup name with
  | none => .error "FileNotFoundError"
  | some folder => do
    require (folder.safe = true) "unsafe_corpus_path"
    .ok folder

def ascii (text : Text) : Bool := text.all fun c => decide (c.toNat < 128)

/-- `hmac.compare_digest` of two texts. -/
def compareDigest (text other : Text) : Except String Bool :=
  if (ascii text && ascii other) = true then .ok (text == other) else .error "TypeError"

/-- The blanks that `int` skips: of the ASCII ones fewer than `str.isspace` knows. -/
def intSpace (c : Char) : Bool :=
  if c.toNat < 128 then (9 ≤ c.toNat && c.toNat ≤ 13) || c == ' ' else isSpace c

def digitValue (c : Char) : ℕ :=
  match decimalZeros.find? fun first => first ≤ c.toNat && c.toNat < first+10 with
  | some first => c.toNat-first
  | none => 0

def signed : Text → Bool × Text
  | '-'::digits => (true,digits)
  | '+'::digits => (false,digits)
  | digits => (false,digits)

/-- `int` of a text: blanks around it, a sign, decimal digits with single
underscores between them, and at most as many digits as the interpreter converts. -/
def int (text : Text) : Option ℤ :=
  let (negative,digits) := signed ((text.dropWhile intSpace).rdropWhile intSpace)
  let groups := digits.splitOnP (· == '_')
  let run := groups.flatten
  if (groups.all fun group => !group.isEmpty && group.all isDecimal) = true ∧ run.length ≤ 4300 then
    let value := run.foldl (fun n c => n*10+digitValue c) 0
    some (if negative = true then -(value : ℤ) else value)
  else none

def str : Json → Text
  | .string s => s.toList
  | value => L.str value

def iterated : Json → Except String (List Json)
  | .array items => .ok items
  | .string s => .ok (s.toList.map fun c => .string (String.singleton c))
  | .object fields => .ok (fields.map fun field => .string field.1)
  | _ => .error "TypeError"

def item (fields : JsonObject) (key : String) : Except String Json :=
  match fields.lookup key with
  | some value => .ok value
  | none => .error "KeyError"

def row (raw : List UInt8) : Except String JsonObject :=
  match L.loads raw with
  | none => .error "JSONDecodeError"
  | some (.object fields) => .ok fields
  | some _ => .error "AttributeError"

abbrev Documents : Type := List (Text × JsonObject)

def manifestRow (documents : Documents) (raw : List UInt8) : Except String Documents := do
  let fields ← row L raw
  match get fields "document_id", get fields "output_directory" with
  | .string documentId, .string directory => do
    require (isHex 64 documentId.toList = true ∧ isHex 24 directory.toList = true ∧
      jsonEqual (get fields "status") (.string "completed") = true ∧
      jsonEqual (get fields "id_namespace") (.string "offline-export-v1") = true ∧
      documentId.toList ∉ documents.map Prod.fst) "invalid_manifest"
    .ok (documents++[(documentId.toList,fields)])
  | _, _ => .error "invalid_manifest"

def parseManifest (payload : List UInt8) : Except String Documents := do
  let documents ← (splitLines [] false payload).foldlM (manifestRow L) []
  require (documents.isEmpty = false) "empty_manifest"
  .ok documents

structure Settings where
  cursorSecret : Text
  expectedManifestSha256 : Option Text
  maxParagraphs : ℤ
  maxChars : ℤ
  maxConcurrency : ℤ

/-- A store that is open, with the limits that its constructor accepts. -/
structure Store where
  secret : List UInt8
  maxParagraphs : ℕ
  maxChars : ℕ
  manifest : Digest
  manifestSignature : Signature
  documents : Documents
  paragraphsRange : 1 ≤ maxParagraphs ∧ maxParagraphs ≤ 1000
  charsRange : 1 ≤ maxChars ∧ maxChars ≤ 262144

def Store.manifestSha256 (store : Store) : Text := (hex store.manifest).toList

def expectManifest (expected : Option Text) (payload : List UInt8) : Except String Unit :=
  match expected with
  | none => .ok ()
  | some expected => do
    let same ← compareDigest (hexdigest L.sha256 payload).toList expected
    require (same = true) "manifest_hash_mismatch"

def Settings.Limits (s : Settings) : Prop :=
  (1 ≤ s.maxParagraphs ∧ s.maxParagraphs ≤ 1000) ∧ 1 ≤ s.maxChars ∧ s.maxChars ≤ 262144

instance (s : Settings) : Decidable s.Limits := inferInstanceAs (Decidable (_ ∧ _))

def manifestFile (disk : Disk) : Except String FileEntry :=
  match disk.files.lookup "manifest.jsonl" with
  | none => .error "FileNotFoundError"
  | some file => .ok file

def openWithin (s : Settings) (disk : Disk) (h : s.Limits) : Except String Store := do
  require (1 ≤ s.maxConcurrency ∧ s.maxConcurrency ≤ 4) "invalid_read_capacity"
  require (16 ≤ (encode s.cursorSecret).length) "cursor_secret_too_short"
  require (disk.rootSafe = true) "unsafe_corpus_root"
  let file ← manifestFile disk
  let payload ← regularFile file maxManifestBytes
  expectManifest L s.expectedManifestSha256 payload
  let documents ← parseManifest L payload
  .ok
    { secret := encode s.cursorSecret
      maxParagraphs := s.maxParagraphs.toNat
      maxChars := s.maxChars.toNat
      manifest := L.sha256 payload
      manifestSignature := file.signature
      documents := documents
      paragraphsRange := by
        obtain ⟨⟨hlow,hhigh⟩,-⟩ := h
        omega
      charsRange := by
        obtain ⟨-,hlow,hhigh⟩ := h
        omega }

def openStore (s : Settings) (disk : Disk) : Except String Store :=
  if h : s.Limits then openWithin L s disk h else .error "invalid_page_limits"

/-- `isinstance(value, int) and value > 0` -/
def positive : Json → Bool
  | .number n => decide (0 < n)
  | .bool b => b
  | _ => false

def validateDocument (documentId : Text) (manifest document : JsonObject) : Except String Unit :=
  require (jsonEqual (get document "document_id") (.string (String.ofList documentId)) = true ∧
    jsonEqual (get document "id_namespace") (.string "offline-export-v1") = true ∧
    jsonEqual (get document "schema_version") (.string "legal-corpus-export-v2") = true ∧
    jsonEqual (get document "source_relative_path") (get manifest "source_relative_path") = true ∧
    jsonEqual (get document "source_sha256") (get manifest "source_sha256") = true ∧
    jsonEqual (get document "quality_flags") (get manifest "quality_flags") = true ∧
    positive (get document "paragraph_count") = true ∧
    isHex 64 (str L (get document "source_sha256")) = true) "document_metadata_mismatch"

def locations : List String := ["body","table","auxiliary"]

def isText : Json → Bool
  | .string _ => true
  | _ => false

/-- One row of `_parse_paragraphs`; a location that has no hash stops the search in the set. -/
def paragraphText (ordinal : ℕ) (fields : JsonObject) : Except String Text :=
  match get fields "text" with
  | .string text =>
    if jsonEqual (get fields "ordinal") (.number ordinal) = true ∧ text ≠ "" then
      match get fields "location" with
      | .array _ => .error "TypeError"
      | .object _ => .error "TypeError"
      | .string location =>
        if location ∈ locations ∧ isText (get fields "part") = true then .ok text.toList
        else .error "invalid_paragraphs"
      | _ => .error "invalid_paragraphs"
    else .error "invalid_paragraphs"
  | _ => .error "invalid_paragraphs"

/-- `_parse_paragraphs`, of whose rows the reader uses the texts. -/
def parseParagraphs (payload : List UInt8) (document : JsonObject) :
    Except String (List Text) := do
  let texts ← (splitLines [] false payload).zipIdx.mapM fun line => do
    let fields ← row L line.1
    paragraphText line.2 fields
  require (jsonEqual (.number texts.length) (get document "paragraph_count") = true)
    "paragraph_count_mismatch"
  .ok texts

structure Loaded where
  fields : JsonObject
  version : Text
  contentHash : Digest
  paragraphs : List Text

/-- The output hashes, empty where the document names none. -/
def outputHashes (document : JsonObject) : Except String JsonObject :=
  match document.lookup "output_hashes" with
  | none => .ok []
  | some (.object hashes) => .ok hashes
  | some _ => .error "AttributeError"

/-- `_read_sync` up to the cursor. -/
def load (store : Store) (disk : Disk) (documentId : Text) : Except String Loaded := do
  require (isHex 64 documentId = true) "document_unavailable"
  match store.documents.lookup documentId with
  | none => .error "document_unavailable"
  | some manifest => do
    let file ← manifestFile disk
    let manifestRaw ← regularFile file maxManifestBytes
    require (file.signature = store.manifestSignature ∧
      hexdigest L.sha256 manifestRaw = hex store.manifest) "manifest_changed"
    let outputDirectory ← item manifest "output_directory"
    let directory ← safeDirectory disk (String.ofList (str L outputDirectory))
    let documentRaw ← regularFile (directory.files.lookup "document.json") maxDocumentBytes
    let document ← row L documentRaw
    validateDocument L documentId manifest document
    let paragraphsRaw ← regularFile (directory.files.lookup "paragraphs.jsonl") maxParagraphsBytes
    let contentHash := (hexdigest L.sha256 paragraphsRaw).toList
    let hashes ← outputHashes document
    match get hashes "paragraphs.jsonl" with
    | .string expected => do
      let same ← compareDigest contentHash expected.toList
      require (same = true) "paragraphs_hash_mismatch"
      let paragraphs ← parseParagraphs L paragraphsRaw document
      .ok ⟨document,str L (get document "source_sha256"),L.sha256 paragraphsRaw,paragraphs⟩
    | _ => .error "paragraphs_hash_mismatch"

def cursorMessage (store : Store) (documentId : Text) (document : Loaded) (offset : ℕ) : Text :=
  store.manifestSha256++ ':'::documentId++ ':'::document.version++
    ':'::(hex document.contentHash).toList++ ':'::Nat.toDigits 10 offset

/-- The signature of `_encode_cursor`. -/
def signature (store : Store) (documentId : Text) (document : Loaded) (offset : ℕ) : Text :=
  (hex (L.hmac store.secret (encode (cursorMessage store documentId document offset)))).toList

def encodeCursor (store : Store) (documentId : Text) (document : Loaded) (offset : ℕ) : Text :=
  Nat.toDigits 10 offset++ '.'::signature L store documentId document offset

def decodeCursor (store : Store) (documentId : Text) (document : Loaded) :
    Option Text → Except String ℕ
  | none => .ok 0
  | some cursor =>
    if '.' ∈ cursor then
      match int (cursor.takeWhile (· ≠ '.')) with
      | none => .error "invalid_cursor"
      | some offset => do
        require (0 < offset) "invalid_cursor"
        let same ← compareDigest (signature L store documentId document offset.toNat)
          ((cursor.dropWhile (· ≠ '.')).drop 1)
        require (same = true) "invalid_cursor"
        .ok offset.toNat
    else .error "invalid_cursor"

inductive Quality
  | verified
  | needsReview
deriving DecidableEq

def reviewFlags : List Text :=
  ["images_or_textboxes_not_ocr","structure_review_required","table_layout_not_preserved",
    "automatic_numbering_not_resolved","legacy_binary_static_text_recovery"].map String.toList

def isWord (c : Char) : Bool :=
  if c.toNat < 128 then c.isAlphanum || c == '_' else L.word c

def identifier (text : Text) : Bool :=
  decide (1 ≤ text.length ∧ text.length ≤ 160) &&
    text.all fun c => isWord L c || c == '.' || c == '-'

def shortText (text : Text) : Bool := decide (1 ≤ text.length ∧ text.length ≤ 4000)

structure PageFields where
  documentId : Text
  title : Text
  version : Text
  contentHash : Text
  cursor : Option Text
  nextCursor : Option Text
  text : Text
  complete : Bool
  quality : Quality
  qualityFlags : List Text
  sourceRef : Text
  datasetVersion : Text
  parserVersion : Text

/-- The wire model with `pagination_is_explicit`; every refusal is a `ValidationError`. -/
def pageChecks : Checks PageFields := fun p =>
  [identifier L p.documentId,shortText p.title,identifier L p.version,isHex 64 p.contentHash,
    p.cursor.all (identifier L),p.nextCursor.all (identifier L),
    decide (1 ≤ p.text.length ∧ p.text.length ≤ 262144),
    decide (p.qualityFlags.length ≤ 50),p.qualityFlags.all shortText,shortText p.sourceRef,
    shortText p.datasetVersion,shortText p.parserVersion,
    p.complete != p.nextCursor.isSome].map fun condition => (condition,"ValidationError")

abbrev LegalDocumentPage : Type := Checked (pageChecks L)

/-- The loop of `_read_sync` on the paragraphs from the offset on; `end-offset`
is the number of pieces. -/
def fill (maxParagraphs maxChars : ℕ) : List Text → ℕ → List Text → Except String (List Text)
  | pieces, _, [] => .ok pieces
  | pieces, size, paragraph::rest =>
    if pieces.length < maxParagraphs then
      let piece := paragraph++['\n']
      let pieceSize := (encode piece).length
      if pieces ≠ [] ∧ maxChars < size+pieceSize then .ok pieces
      else if pieces = [] ∧ maxChars < pieceSize then .error "paragraph_too_large"
      else fill maxParagraphs maxChars (pieces++[piece]) (size+pieceSize) rest
    else .ok pieces

structure Description where
  title : Text
  flags : List Text
  parserVersion : Text

def parserVersionOf (document : JsonObject) : Except String Text :=
  match document.lookup "parser_version" with
  | none => .ok "unknown".toList
  | some (.string version) => .ok version.toList
  | some _ => .error "ValidationError"

def describe (document : Loaded) : Except String Description := do
  let qualityFlags ← item document.fields "quality_flags"
  let flags ← iterated qualityFlags
  let path ← item document.fields "source_relative_path"
  let parserVersion ← parserVersionOf document.fields
  .ok ⟨L.stem (str L path),flags.map (str L),parserVersion⟩

def sourceRef (documentId : Text) : Text := "offline-export-v1:".toList++documentId

def pageOf (store : Store) (documentId : Text) (document : Loaded) (d : Description)
    (cursor : Option Text) (offset : ℕ) (pieces : List Text) : PageFields :=
  let stop := offset+pieces.length
  let complete := stop == document.paragraphs.length
  { documentId := documentId
    title := d.title
    version := document.version
    contentHash := (hex document.contentHash).toList
    cursor := cursor
    nextCursor :=
      if complete = true then none else some (encodeCursor L store documentId document stop)
    text := pieces.flatten
    complete := complete
    quality := if reviewFlags.any (d.flags.contains ·) then .needsReview else .verified
    qualityFlags := d.flags
    sourceRef := sourceRef documentId
    datasetVersion := store.manifestSha256
    parserVersion := d.parserVersion }

def readSync (store : Store) (disk : Disk) (documentId : Text) (cursor : Option Text) :
    Except String (LegalDocumentPage L) := do
  let document ← load L store disk documentId
  let offset ← decodeCursor L store documentId document cursor
  require (offset < document.paragraphs.length) "invalid_cursor"
  let pieces ← fill store.maxParagraphs store.maxChars [] 0 (document.paragraphs.drop offset)
  let d ← describe L document
  postInit (pageChecks L) (pageOf L store documentId document d cursor offset pieces)

end LawyerAgent.LegalDocuments
