import LawyerAgent.ArticleNumbering
import LawyerAgent.JsonLines
import LawyerAgent.Outcomes.Effect

/-!
# The offline export of one document

The paragraphs and the chunks of a document are written as JSON lines and then,
as the mark of completion, its metadata. A later run reads the three files back,
checks them against its own arguments and exports again unless they are in order.
-/

set_option autoImplicit false

namespace LawyerAgent.CorpusExport
open Common ChunkStructure
open Outcomes.Effect (settle)
open CanonicalJson (encode hex)
open JsonReader (decode)
open PythonJson (PyText Value plainText keyIs get)
open JsonDecoding (DecodeFailure entries loads)
open JsonLines (dumps inline indented rowLines)
open LegalArticleHeading (Text)
open LegalStructureParser (ParsedArticle ParsedInstrument ParseError parse)
open WordArticleNumbering (NumberingProvenance)

def idNamespace : String := "offline-export-v1"

def exportVersion : String := "legal-corpus-export-v2"

def parserVersion : String := "legal-structure-parser-v1"

def loaderVersion : String := "docx-export-reader-v2"

def numberingLoaderVersion : String := "docx-export-reader-v2:numbering-v1"

/-- The flags of `DocxExportReader`. -/
def readerFlags : List String :=
  ["macro_enabled_container_no_execution","auxiliary_parts_separate","table_layout_not_preserved",
    "images_or_textboxes_not_ocr","word_control_characters_preserved",
    "automatic_numbering_not_resolved","no_readable_text","article_numbering_restored"]

def staticConverterVersion : Text := "binary-word-static-text-v1".toList

def staticConversionFlags : List String :=
  ["legacy_binary_static_text_recovery","original_format_not_preserved",
    "field_results_static_not_recalculated","header_section_layout_not_preserved",
    "original_layout_and_visibility_not_preserved",
    "images_objects_and_automatic_numbering_not_recovered"]

def officeValidationFlag : String := "original_office_validation_failed"

def conversionQualityFlags : List String := staticConversionFlags++[officeValidationFlag]

inductive Location where
  | body
  | table
  | auxiliary
deriving DecidableEq

def Location.value : Location → String
  | .body => "body"
  | .table => "table"
  | .auxiliary => "auxiliary"

structure ExportParagraph where
  text : Text
  ordinal : ℕ
  part : Text
  location : Location
  tablePosition : Option (ℕ × ℕ × ℕ)
  numberingProvenance : Option NumberingProvenance

/-- The reader counts the paragraphs and raises flags of its own. -/
structure ExportDocument where
  paragraphs : List ExportParagraph
  qualityFlags : List String
  counted : paragraphs.map ExportParagraph.ordinal = List.range paragraphs.length
  flagged : ∀ flag ∈ qualityFlags, flag ∈ readerFlags

def ExportDocument.loaderVersion (d : ExportDocument) : String :=
  if d.paragraphs.any fun p => p.numberingProvenance.isSome then numberingLoaderVersion
  else CorpusExport.loaderVersion

structure ConversionProvenance where
  converterVersion : Option Text
  converterFingerprint : Option Text
  /-- `recovery_reason`, which has one value. -/
  officeValidationFailed : Bool

def ConversionProvenance.qualityFlags (p : ConversionProvenance) : List String :=
  (if p.converterVersion = some staticConverterVersion then staticConversionFlags else [])++
    if p.officeValidationFailed then [officeValidationFlag] else []

/-- The arguments of `_export_one`. -/
structure ExportJob where
  source : Text
  relative : Text
  sourceHash : Digest
  convertedHash : Option Digest
  provenance : Option ConversionProvenance
  config : Settings

def ExportJob.conversionFlags (job : ExportJob) : List String :=
  (job.provenance.map ConversionProvenance.qualityFlags).getD []

def hexText (d : Digest) : Text := (hex d).toList

def decimalText (n : ℕ) : Text := Nat.toDigits 10 n

def idText (parts : List Text) : Text :=
  [Char.ofNat 0].intercalate (idNamespace.toList::parts)

inductive ChunkKey where
  | chunk (index sequence : ℕ) (content : Text)
  | sourceParagraph (ordinal : ℕ)
deriving DecidableEq

def ChunkKey.parts (job : ExportJob) : ChunkKey → List Text
  | .chunk index sequence content => ["chunk".toList,job.relative,hexText job.sourceHash,
      decimalText index,decimalText sequence,content]
  | .sourceParagraph ordinal => ["source-paragraph".toList,job.relative,hexText job.sourceHash,
      decimalText ordinal]

structure ChunkRow where
  key : ChunkKey
  parent : Option ChunkKey
  chunkType : String
  text : Text
  articleNo : Option Text
  structurePath : List Text
  sourceParagraphOrdinals : List ℕ
  sourceCharRange : Option (ℕ × ℕ)
  parentSourceParagraphOrdinals : List ℕ
  parentSourceCharRange : Option (ℕ × ℕ)
  parentRelativeCharSpan : ℕ × ℕ
  sourceLocationStatus : String

inductive ExportFailure where
  | exportError (code : String)
  | derive (failure : DeriveFailure)
  | keyError
  | valueError
  | recursionError
deriving DecidableEq

variable (sha256 : List UInt8 → Digest)

def stableId (parts : List Text) : Text := hexText (sha256 (encode (idText parts)))

def uuid7 (parts : List Text) : UUID7 :=
  let raw := sha256 (encode (idText parts))
  ⟨raw.extractLsb' 208 48,raw.extractLsb' 192 12,raw.extractLsb' 128 62⟩

/-- The loop of one article: each piece is the next paragraph of the body with its text. -/
def matchPieces : List ExportParagraph → List Text →
    Except ExportFailure (List ℕ × List ExportParagraph)
  | body, [] => .ok ([],body)
  | body, piece::pieces =>
    match body.dropWhile fun p => p.text != piece with
    | [] => .error (.exportError "article_paragraph_mapping_failed")
    | p::rest => (matchPieces rest pieces).map fun m => (p.ordinal::m.1,m.2)

def mapArticles : List ExportParagraph → List ParsedArticle →
    Except ExportFailure (List (ParsedArticle × List ℕ))
  | _, [] => .ok []
  | body, article::articles =>
    (matchPieces body article.paragraphs).bind fun m =>
      (mapArticles m.2 articles).map ((article,m.1)::·)

def paragraphSpans : ℕ → List (ℕ × Text) → List (ℕ × ℕ × ℕ)
  | _, [] => []
  | cursor, (ordinal,text)::rest =>
    (ordinal,cursor,cursor+text.length)::paragraphSpans (cursor+text.length) rest

/-- An article, the ordinals of its paragraphs and the identifier of its provision. -/
structure Provision where
  id : UUID7
  article : ParsedArticle
  ordinals : List ℕ

/-- `provision_index`, where the last provision of an identifier counts. -/
def provisionIndex (provisions : List Provision) (id : UUID7) : Option (Provision × ℕ) :=
  (provisions.zipIdx.filter fun p => p.1.id == id).getLast?

def derivedRow (p : Provision) (key : ChunkKey) (parent : Option ChunkKey)
    (located : LocatedLegalChunk sha256) : ChunkRow where
  key := key
  parent := parent
  chunkType := located.chunk.value.chunkType.value
  text := located.chunk.value.content
  articleNo := some p.article.provisionNo
  structurePath := p.article.structurePath
  sourceParagraphOrdinals :=
    ((paragraphSpans 0 (p.ordinals.zip p.article.paragraphs)).filter fun s =>
      decide (s.2.1 < located.span.2 ∧ located.span.1 < s.2.2)).map Prod.fst
  sourceCharRange :=
    some (p.article.charStart+located.span.1,p.article.charStart+located.span.2)
  parentSourceParagraphOrdinals := p.ordinals
  parentSourceCharRange := some (p.article.charStart,p.article.charEnd)
  parentRelativeCharSpan := located.span
  sourceLocationStatus := "exact_parent_text"

variable {sha256}

/-- The loop over the derived chunks. A chunk is counted in its provision, and a child finds
the root that was met under its identifier last. -/
def chunkRows (provisions : List Provision) :
    List UUID7 → List (UUID7 × ChunkKey) → List (LocatedLegalChunk sha256) →
      Except ExportFailure (List ChunkRow)
  | _, _, [] => .ok []
  | met, parentIds, located::rest =>
    let chunk := located.chunk.value
    match provisionIndex provisions chunk.provisionId with
    | none => .error .keyError
    | some (p,index) =>
      let key := .chunk index (met.count chunk.provisionId) chunk.content
      match chunk.parentChunkId with
      | none => (chunkRows provisions (chunk.provisionId::met) ((chunk.id,key)::parentIds)
          rest).map (derivedRow sha256 p key none located::·)
      | some id =>
        match parentIds.lookup id with
        | none => .error .keyError
        | some parent => (chunkRows provisions (chunk.provisionId::met) parentIds rest).map
            (derivedRow sha256 p key (some parent) located::·)

variable (sha256)

def buildChunks (job : ExportJob) (newId : ℕ → UUID7) (articles : List ParsedArticle)
    (body : List ExportParagraph) : Except ExportFailure (List ChunkRow) :=
  if articles = [] then .ok []
  else (mapArticles body articles).bind fun mapped =>
    let provisions := mapped.zipIdx.map fun m =>
      Provision.mk (uuid7 sha256 [job.relative,hexText job.sourceHash,"provision".toList,
        decimalText m.2]) m.1.1 m.1.2
    let call : DeriveCall :=
      { versionId := uuid7 sha256 [job.relative,hexText job.sourceHash,"version".toList]
        provisions := provisions.map fun p => ⟨p.id,p.article.text,p.article.charStart⟩
        articles := articles.map fun a => ⟨a.paragraphs⟩
        parserVersion := parserVersion
        settings := job.config }
    match (deriveHierarchicalChunksWithLocations call newId :
        Except DeriveFailure (List (LocatedLegalChunk sha256))) with
    | .error e => .error (.derive e)
    | .ok derived => chunkRows provisions [] [] derived

def sourceChunk (p : ExportParagraph) : ChunkRow where
  key := .sourceParagraph p.ordinal
  parent := none
  chunkType := "source_paragraph"
  text := p.text
  articleNo := none
  structurePath := []
  sourceParagraphOrdinals := [p.ordinal]
  sourceCharRange := none
  parentSourceParagraphOrdinals := [p.ordinal]
  parentSourceCharRange := none
  parentRelativeCharSpan := (0,p.text.length)
  sourceLocationStatus := "exact_source_paragraph"

/-- The articles that are exported and the flags that their parsing raises. -/
def articlesOf (parsed : Except ParseError ParsedInstrument) : List ParsedArticle × List String :=
  match parsed with
  | .error _ => ([],["structure_review_required"])
  | .ok instrument =>
    if ¬(instrument.articles.map ParsedArticle.provisionNo).Nodup then
      ([],["duplicate_article_number","structure_review_required"])
    else if instrument.articles = [] then ([],["structure_review_required"])
    else (instrument.articles,[])

def covered (rows : List ChunkRow) : List ℕ := rows.flatMap ChunkRow.sourceParagraphOrdinals

inductive OutputFile where
  | directory
  | document
  | paragraphs
  | chunks
deriving DecidableEq

/-- What a run meets outside of its directory: which targets are safe, what the reader
returns, the input hashes behind reading and before completion, and fresh identifiers. -/
structure Surroundings where
  safe : OutputFile → Bool
  read : Except String ExportDocument
  afterRead : Digest × Option Digest
  beforeCompletion : Digest × Option Digest
  newId : ℕ → UUID7

def verifyInputUnchanged (job : ExportJob) (found : Digest × Option Digest) :
    Except ExportFailure Unit :=
  if found.1 ≠ job.sourceHash then .error (.exportError "source_changed_during_export")
  else if job.convertedHash.isSome ∧ found.2 ≠ job.convertedHash then
    .error (.exportError "converted_input_changed_during_export")
  else .ok ()

structure Prepared where
  read : ExportDocument
  chunks : List ChunkRow
  flags : List String

/-- The chunks, and source chunks for the paragraphs that no chunk covers. -/
def allChunks (read : ExportDocument) (chunks : List ChunkRow) : List ChunkRow :=
  chunks++(read.paragraphs.filter fun p => !(covered chunks).contains p.ordinal).map sourceChunk

/-- Everything up to the first file that is written. -/
def prepare (job : ExportJob) (s : Surroundings) : Except ExportFailure Prepared := do
  let read ← s.read.mapError .exportError
  verifyInputUnchanged job s.afterRead
  if read.paragraphs = [] then .error (.exportError "no_readable_text")
  else do
    let body := read.paragraphs.filter fun p => p.location != .auxiliary
    let parsed := articlesOf (parse none ⟨body.map fun p => ⟨p.text,p.ordinal⟩⟩)
    let chunks ← buildChunks sha256 job s.newId parsed.1 body
    let rows := allChunks read chunks
    if (covered rows).toFinset ≠ (read.paragraphs.map ExportParagraph.ordinal).toFinset then
      .error (.exportError "coverage_validation_failed")
    else .ok ⟨read,rows,(read.qualityFlags++job.conversionFlags++parsed.2).dedup.insertionSort
      (· ≤ ·)⟩

abbrev Fields : Type := List (String × Value)

def items (fields : Fields) : List (Value × Value) :=
  entries (fields.map fun f => (plainText f.1.toList,f.2))

def textValue (text : Text) : Value := .str (plainText text)

def wordValue (s : String) : Value := textValue s.toList

def number (n : ℕ) : Value := .int n

def numbers (ns : List ℕ) : Value := .list (ns.map number)

def optional {α : Type} (f : α → Value) (a : Option α) : Value := (a.map f).getD .none

def rangeValue (r : ℕ × ℕ) : Value := numbers [r.1,r.2]

def numberingFields (p : NumberingProvenance) : Fields :=
  [("abstract_num_id",number p.abstractNumId),("ilvl",number p.ilvl),("num_id",number p.numId),
    ("numbering_sha256",textValue (hexText p.numberingSha256)),
    ("original_text",textValue p.originalText),("start",number p.start),
    ("start_override",optional number p.startOverride),("value",number p.value),
    ("xml_paragraph_ordinal",number p.xmlParagraphOrdinal)]

def paragraphFields (job : ExportJob) (p : ExportParagraph) : Fields :=
  ("location",wordValue p.location.value)::
    ((p.numberingProvenance.map fun n => ("numbering_provenance",
      Value.dict (items (numberingFields n)))).toList++
    [("ordinal",number p.ordinal),
      ("paragraph_id",textValue (stableId sha256 ["paragraph".toList,job.relative,
        hexText job.sourceHash,decimalText p.ordinal])),
      ("part",textValue p.part),
      ("table_position",optional (fun t => numbers [t.1,t.2.1,t.2.2]) p.tablePosition),
      ("text",textValue p.text)])

def chunkId (job : ExportJob) (key : ChunkKey) : Text := stableId sha256 (key.parts job)

def chunkFields (job : ExportJob) (c : ChunkRow) : Fields :=
  [("article_no",optional textValue c.articleNo),
    ("chunk_id",textValue (chunkId sha256 job c.key)),
    ("chunk_type",wordValue c.chunkType),
    ("content_sha256",textValue (hexText (sha256 (encode c.text)))),
    ("parent_chunk_id",optional (fun key => textValue (chunkId sha256 job key)) c.parent),
    ("parent_relative_char_span",rangeValue c.parentRelativeCharSpan),
    ("parent_source_char_range",optional rangeValue c.parentSourceCharRange),
    ("parent_source_paragraph_ordinals",numbers c.parentSourceParagraphOrdinals),
    ("source_char_range",optional rangeValue c.sourceCharRange),
    ("source_location_status",wordValue c.sourceLocationStatus),
    ("source_paragraph_ordinals",numbers c.sourceParagraphOrdinals),
    ("structure_path",.list (c.structurePath.map textValue)),
    ("text",textValue c.text)]

def configurationFields (config : Settings) : Fields :=
  [("max_leaf_chars",.int config.maxLeafChars),("overlap_chars",.int config.overlapChars),
    ("window_chars",.int config.windowChars)]

/-- `asdict(provenance)` -/
def provenanceFields (p : ConversionProvenance) : Fields :=
  [("converter_fingerprint",optional textValue p.converterFingerprint),
    ("converter_version",optional textValue p.converterVersion),
    ("recovery_reason",if p.officeValidationFailed then wordValue "office_validation_failed"
      else .none)]

def documentId (job : ExportJob) : Text :=
  stableId sha256 ["document".toList,job.relative,hexText job.sourceHash]

/-- The metadata, by key. -/
def documentFields (job : ExportJob) (p : Prepared) (paragraphs chunks : Digest) : Fields :=
  [("child_count",number (p.chunks.filter fun c => c.parent.isSome).length),
    ("chunk_count",number p.chunks.length),
    ("configuration",.dict (items (configurationFields job.config))),
    ("conversion_provenance",
      optional (fun c => .dict (items (provenanceFields c))) job.provenance),
    ("converted_sha256",optional (fun d => textValue (hexText d)) job.convertedHash),
    ("covered_paragraph_count",number (covered p.chunks).dedup.length),
    ("document_id",textValue (documentId sha256 job)),
    ("export_version",wordValue exportVersion),
    ("id_namespace",wordValue idNamespace),
    ("input_sha256",textValue (hexText (job.convertedHash.getD job.sourceHash))),
    ("legal_metadata",.dict (items [("effective_on",.none),("issuing_authority",.none),
      ("published_on",.none),("status",wordValue "unknown"),("title",.none),("version",.none)])),
    ("loader_version",wordValue p.read.loaderVersion),
    ("output_hashes",.dict (items [("chunks.jsonl",textValue (hexText chunks)),
      ("paragraphs.jsonl",textValue (hexText paragraphs))])),
    ("paragraph_count",number p.read.paragraphs.length),
    ("parent_count",number (p.chunks.filter fun c => c.parent.isNone).length),
    ("parser_version",wordValue parserVersion),
    ("quality_flags",.list (p.flags.map wordValue)),
    ("schema_version",wordValue exportVersion),
    ("source_path",textValue job.source),
    ("source_relative_path",textValue job.relative),
    ("source_sha256",textValue (hexText job.sourceHash))]

structure Directory where
  document : Option (List UInt8)
  paragraphs : Option (List UInt8)
  chunks : Option (List UInt8)
deriving DecidableEq

/-- A run of the export: what it has written stays when it fails. -/
abbrev Export (α : Type) : Type := Outcomes.Effect ExportFailure Directory α

/-- `_assert_safe_output_target` -/
def assertSafe (s : Surroundings) (file : OutputFile) : Export Unit :=
  Outcomes.Effect.require (s.safe file = true) (.exportError "unsafe_output_path")

/-- The text of `_write_jsonl`, encoded. -/
def jsonl (rows : List Fields) : Except ExportFailure (List UInt8) :=
  match rows.mapM fun row => dumps inline 0 (.dict (items row)) with
  | none => .error .valueError
  | some parts => .ok (encode (rowLines parts))

/-- The text of `_atomic_json`, encoded. -/
def json (fields : Fields) : Except ExportFailure (List UInt8) :=
  match dumps indented 0 (.dict (items fields)) with
  | none => .error .valueError
  | some text => .ok (encode (text++['\n']))

def modify (f : Directory → Directory) : Export Unit := fun d => (.ok (),f d)

def inspect {α : Type} (f : Directory → Except ExportFailure α) : Export α := fun d => (f d,d)

def exportAgain (job : ExportJob) (s : Surroundings) : Export (Value × Bool) := do
  let p ← settle (prepare sha256 job s)
  assertSafe s .directory
  assertSafe s .paragraphs
  let paragraphs ← settle (jsonl (p.read.paragraphs.map (paragraphFields sha256 job)))
  modify fun d => {d with paragraphs := some paragraphs}
  assertSafe s .chunks
  let chunks ← settle (jsonl (p.chunks.map (chunkFields sha256 job)))
  modify fun d => {d with chunks := some chunks}
  let fields := documentFields sha256 job p (sha256 paragraphs) (sha256 chunks)
  settle (verifyInputUnchanged job s.beforeCompletion)
  assertSafe s .document
  let document ← settle (json fields)
  modify fun d => {d with document := some document}
  pure (.dict (items fields),true)

/-- The containers that fit on the stack of the interpreter, and the double that a
literal is rounded to. -/
structure Interpreter where
  frames : ℕ
  double : List Char → ℚ

/-- `Path.read_text` turns every line end into a newline. -/
def universalNewlines : List Char → List Char
  | [] => []
  | '\r':: '\n'::rest => '\n'::universalNewlines rest
  | c::rest => (if c = '\r' then '\n' else c)::universalNewlines rest

def readText (bytes : List UInt8) : Except DecodeFailure (List Char) :=
  match decode bytes with
  | none => .error .malformed
  | some text => .ok (universalNewlines text)

def dictItems : Value → Except DecodeFailure (List (Value × Value))
  | .dict items => .ok items
  | _ => .error .malformed

def readJsonl (frames : ℕ) (bytes : List UInt8) :
    Except DecodeFailure (List (List (Value × Value))) := do
  let text ← readText bytes
  (RejoinedLines.splitlines text).mapM fun line => (loads frames line).bind dictItems

/-- The values that can stand in a set. The infinities and `NaN` are one of them. -/
inductive Scalar where
  | none
  | number (q : ℚ)
  | text (t : PyText)
  | notFinite
deriving DecidableEq

def scalar (double : List Char → ℚ) : Value → Option Scalar
  | .none => some .none
  | .bool b => some (.number (if b then 1 else 0))
  | .int n => some (.number n)
  | .float (some text) => some (.number (double text))
  | .float none => some .notFinite
  | .str text => some (.text text)
  | _ => none

/-- `mapping[name]` -/
def item (row : List (Value × Value)) (name : String) : Option Value :=
  (row.find? (keyIs (plainText name.toList))).map Prod.snd

def field (row : List (Value × Value)) (name : String) : Value := get row (plainText name.toList)

def isText (value : Value) (text : Text) : Bool :=
  match value with
  | .str s => s == plainText text
  | _ => false

def isNone : Value → Bool
  | .none => true
  | _ => false

def hasFields (row : List (Value × Value)) (names : List String) : Bool :=
  names.all fun name => (item row name).isSome

/-- `==` with a dictionary of scalars. -/
def sameDict (double : List Char → ℚ) (value : Value) (fields : Fields) : Bool :=
  match value with
  | .dict row => row.length == fields.length && fields.all fun f =>
      ((item row f.1).bind (scalar double)).isSome &&
        (item row f.1).bind (scalar double) == scalar double f.2
  | _ => false

def requiredFields : List String :=
  ["schema_version","id_namespace","document_id","source_path","source_relative_path",
    "source_sha256","input_sha256","loader_version","parser_version","export_version",
    "configuration","legal_metadata","paragraph_count","chunk_count","parent_count","child_count",
    "covered_paragraph_count","quality_flags","output_hashes"]

def requiredChunkFields : List String :=
  ["chunk_id","parent_chunk_id","chunk_type","text","content_sha256","article_no",
    "structure_path","source_paragraph_ordinals","source_char_range",
    "parent_source_paragraph_ordinals","parent_source_char_range","parent_relative_char_span",
    "source_location_status"]

def strOf : Value → Option PyText
  | .str text => some text
  | _ => none

/-- The flags are texts, and those of conversions are the expected ones. -/
def flagsMatch (flags : Value) (expected : List String) : Bool :=
  match flags with
  | .list values =>
    match values.mapM strOf with
    | some texts => conversionQualityFlags.all fun flag =>
        texts.contains (plainText flag.toList) == expected.contains flag
    | none => false
  | _ => false

def provenanceMatches (double : List Char → ℚ) (provenance : Option ConversionProvenance)
    (value : Value) : Bool :=
  match provenance with
  | none => isNone value
  | some p => sameDict double value (provenanceFields p)

def hashMatches (hash : Option Digest) (value : Value) : Bool :=
  match hash with
  | none => isNone value
  | some d => isText value (hexText d)

/-- The checks of `_valid_existing` in front of those of the files. -/
def metadataMatches (double : List Char → ℚ) (job : ExportJob) (document : List (Value × Value)) :
    Bool :=
  hasFields document requiredFields &&
    [("schema_version",exportVersion.toList),("id_namespace",idNamespace.toList),
      ("source_path",job.source),("source_relative_path",job.relative),
      ("document_id",documentId sha256 job),("parser_version",parserVersion.toList),
      ("source_sha256",hexText job.sourceHash),("export_version",exportVersion.toList)].all
        (fun f => isText (field document f.1) f.2) &&
    [loaderVersion,numberingLoaderVersion].any
      (fun version => isText (field document "loader_version") version.toList) &&
    flagsMatch (field document "quality_flags") job.conversionFlags &&
    provenanceMatches double job.provenance (field document "conversion_provenance") &&
    hashMatches job.convertedHash (field document "converted_sha256") &&
    sameDict double (field document "configuration") (configurationFields job.config)

def fileMatches (file : Option (List UInt8)) (digest : Option Value) : Bool :=
  match file, digest with
  | some bytes, some value => isText value (hexText (sha256 bytes))
  | _, _ => false

def hashesMatch (s : Surroundings) (document : List (Value × Value)) (d : Directory) : Bool :=
  match field document "output_hashes" with
  | .dict hashes => hashes.length == 2 &&
      s.safe .paragraphs && fileMatches sha256 d.paragraphs (item hashes "paragraphs.jsonl") &&
      s.safe .chunks && fileMatches sha256 d.chunks (item hashes "chunks.jsonl")
  | _ => false

def elements : Value → Option (List Value)
  | .list values => some values
  | .str text => some (text.map fun c => .str [c])
  | .dict row => some (row.map Prod.fst)
  | _ => none

variable (double : List Char → ℚ)

/-- The keys of some rows; a missing key and a list in its place are errors. -/
def keys (rows : List (List (Value × Value))) (name : String) : Option (List Scalar) :=
  rows.mapM fun row => (item row name).bind (scalar double)

def coveredKeys (rows : List (List (Value × Value))) : Option (List Scalar) :=
  (rows.mapM fun row => (item row "source_paragraph_ordinals").bind elements).bind fun values =>
    values.flatten.mapM (scalar double)

def counts (document : List (Value × Value)) (name : String) (n : ℕ) : Bool :=
  (item document name).bind (scalar double) == some (.number n)

/-- `_cached_rows_are_valid` behind reading; every error of it is a refusal. -/
def rowsValid (document : List (Value × Value)) (paragraphs chunks : List (List (Value × Value))) :
    Bool :=
  let parents := chunks.filter fun row => isNone (field row "parent_chunk_id")
  let children := chunks.filter fun row => !isNone (field row "parent_chunk_id")
  !paragraphs.isEmpty && !chunks.isEmpty &&
    counts double document "paragraph_count" paragraphs.length &&
    counts double document "chunk_count" chunks.length &&
    (match keys double parents "chunk_id" with
      | some parentIds =>
        counts double document "parent_count" parentIds.dedup.length &&
          counts double document "child_count" children.length &&
          children.all fun row =>
            ((scalar double (field row "parent_chunk_id")).map parentIds.contains).getD false
      | none => false) &&
    chunks.all (fun row => hasFields row requiredChunkFields) &&
    match keys double paragraphs "ordinal", coveredKeys double chunks with
    | some ordinals, some covered => covered.toFinset == ordinals.toFinset &&
        counts double document "covered_paragraph_count" covered.dedup.length
    | _, _ => false

variable (I : Interpreter)

def cachedRowsAreValid (document : List (Value × Value)) (d : Directory) :
    Except DecodeFailure Bool := do
  let paragraphs ← readJsonl I.frames (d.paragraphs.getD [])
  let chunks ← readJsonl I.frames (d.chunks.getD [])
  pure (rowsValid I.double document paragraphs chunks)

/-- A failure to decode is caught, unless it is a `RecursionError`. -/
def caught {α : Type} (default : α) (x : Except DecodeFailure α) : Except ExportFailure α :=
  match x with
  | .ok a => .ok a
  | .error .tooDeep => .error .recursionError
  | .error _ => .ok default

def validExisting (job : ExportJob) (s : Surroundings) (document : List (Value × Value))
    (d : Directory) : Except ExportFailure Bool :=
  if metadataMatches sha256 I.double job document && hashesMatch sha256 s document d then
    caught false (cachedRowsAreValid I document d)
  else .ok false

def readDocument (bytes : List UInt8) : Except DecodeFailure (List (Value × Value)) :=
  (readText bytes).bind fun text => (loads I.frames text).bind dictItems

/-- The stored metadata, when it is there and valid. -/
def recognised (job : ExportJob) (s : Surroundings) (d : Directory) :
    Except ExportFailure (Option Value) :=
  match d.document with
  | none => .ok none
  | some bytes =>
    (caught none ((readDocument I bytes).map some)).bind fun
      | none => .ok none
      | some document => (validExisting sha256 I job s document d).map fun valid =>
          if valid then some (.dict document) else none

/-- `_export_one`: the metadata, and whether it has been written. -/
def exportOne (job : ExportJob) (s : Surroundings) : Export (Value × Bool) := do
  assertSafe s .document
  let found ← inspect (recognised sha256 I job s)
  match found with
  | some document => pure (document,false)
  | none => exportAgain sha256 job s

end LawyerAgent.CorpusExport
