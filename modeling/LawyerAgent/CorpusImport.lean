import LawyerAgent.Codes.Delimited
import LawyerAgent.LegalCorpus

/-!
# The controlled corpus import

`LegalCorpusImportService` validates a command, finds or creates its
instrument and compares the command with a stored version of the same label by
the metadata and one content hash. Two parser profiles hash the provisions in
full; every other one hashes only the texts, one after the other.
-/

set_option autoImplicit false

namespace LawyerAgent.CorpusImport
open Relational Common PythonText LegalVersions
open LegalCorpus
open CanonicalJson (encode)
open Codes (toBytes)

structure LegalProvisionDraft where
  provisionNo : String
  level : ProvisionLevel
  structurePath : List String
  title : Option String
  fullText : List Char
deriving DecidableEq

def utf8 (text : String) : List UInt8 := encode text.toList

/-- The lengths that are written with eight bytes; Python has no longer
sequences. -/
structure Sized (d : LegalProvisionDraft) : Prop where
  provisionNo : (utf8 d.provisionNo).length < 256^8
  path : d.structurePath.length < 256^8
  parts : ∀ part ∈ d.structurePath, (utf8 part).length < 256^8
  title : ∀ title ∈ d.title, (utf8 title).length < 256^8
  fullText : (encode d.fullText).length < 256^8

structure LegalImportCommand where
  title : String
  issuingAuthority : String
  jurisdiction : String
  regionCode : Option String
  versionLabel : String
  status : LegalVersionStatus
  publishedOn : Option Date
  effectiveOn : Option Date
  repealedOn : Option Date
  lawNumber : Option String
  sourceRef : String
  datasetVersion : String
  parserVersion : String
  provisions : List LegalProvisionDraft
  category : LegalCategory
  counted : provisions.length < 256^8
  sized : ∀ d ∈ provisions, Sized d

def commandChecks : Checks LegalImportCommand := fun c =>
  [(nonempty c.title,"title must be non-empty text"),
   (nonempty c.issuingAuthority,"issuing_authority must be non-empty text"),
   (nonempty c.jurisdiction,"jurisdiction must be non-empty text"),
   (nonempty c.versionLabel,"version_label must be non-empty text"),
   (nonempty c.sourceRef,"source_ref must be non-empty text"),
   (nonempty c.datasetVersion,"dataset_version must be non-empty text"),
   (nonempty c.parserVersion,"parser_version must be non-empty text"),
   (decide (c.provisions ≠ []),"at least one provision is required")]

/-- The loop over the provisions, with the numbers it has seen. -/
def checkDrafts : List String → List LegalProvisionDraft → Except CorpusFailure Unit
  | _, [] => .ok ()
  | numbers, d::ds =>
    if nonempty d.provisionNo = false then
      .error (.importError "provision number must be non-empty text")
    else if hasText d.fullText = false then
      .error (.importError "provision full text must be non-empty")
    else if d.provisionNo ∈ numbers then
      .error (.importError ("duplicate provision number: "++d.provisionNo))
    else checkDrafts (d.provisionNo::numbers) ds

def validateImportCommand (c : LegalImportCommand) : Except CorpusFailure Unit :=
  match firstError (commandChecks c) with
  | some message => .error (.importError message)
  | none => checkDrafts [] c.provisions

/-- `EXACT_TEXT_HASH_DOMAINS`, whose keys are `EXACT_TEXT_PARSER_VERSIONS`. -/
def exactTextHashDomain (parserVersion : String) : Option (List UInt8) :=
  if parserVersion = "corpus-docx-v4" then some (utf8 "lawyer-agent:legal-provisions:v4"++[0])
  else if parserVersion = "corpus-docx-v5" then some (utf8 "lawyer-agent:legal-provisions:v5"++[0])
  else none

def exactText (parserVersion : String) : Bool := (exactTextHashDomain parserVersion).isSome

/-- `provision_text_for_parser` -/
def provisionText (text : List Char) (parserVersion : String) : List Char :=
  if exactText parserVersion then text else strip text

def hashValue (value : List UInt8) : List UInt8 := toBytes 8 value.length++value

def hashName (name : String) : List UInt8 := toBytes 4 (utf8 name).length++utf8 name

def hashField (name : String) (value : List UInt8) : List UInt8 := hashName name++hashValue value

def nullableValue : Option (List UInt8) → List UInt8
  | none => [0]
  | some value => 1::hashValue value

def hashNullableField (name : String) (value : Option (List UInt8)) : List UInt8 :=
  hashName name++nullableValue value

def hashProvision (d : LegalProvisionDraft) : List UInt8 :=
  (utf8 "provision"++[0])++
  (hashField "provision_no" (utf8 d.provisionNo)++
  (hashField "level" (utf8 d.level.value)++
  ((toBytes 8 d.structurePath.length++
    d.structurePath.flatMap fun part => hashField "structure_path" (utf8 part))++
  (hashNullableField "title" (d.title.map utf8)++
  hashField "full_text" (encode d.fullText)))))

/-- The bytes that `_content_hash` feeds to the hash. -/
def contentHashInput (parserVersion : String) (drafts : List LegalProvisionDraft) : List UInt8 :=
  match exactTextHashDomain parserVersion with
  | some domain => domain++(toBytes 8 drafts.length++drafts.flatMap hashProvision)
  | none => drafts.flatMap fun d => encode (strip d.fullText)

variable (sha256 : List UInt8 → Digest)

def contentHash (parserVersion : String) (drafts : List LegalProvisionDraft) : Digest :=
  sha256 (contentHashInput parserVersion drafts)

/-- A call of the service, with the identifiers it draws. -/
structure ImportCall where
  command : LegalImportCommand
  instrumentId : UUID7
  versionId : UUID7
  provisionId : ℕ → UUID7

structure LegalImportResult where
  instrumentId : UUID7
  versionId : UUID7
  replayed : Bool
deriving DecidableEq

/-- The provisions of the drafts from the place `cursor` and the number `n` on. -/
def deriveProvisions (versionId : UUID7) (parserVersion : String) (newId : ℕ → UUID7) :
    ℕ → ℕ → List LegalProvisionDraft → List ProvisionFields
  | _, _, [] => []
  | cursor, n, d::ds =>
    let text := provisionText d.fullText parserVersion
    { id := newId n
      versionId := versionId
      provisionNo := d.provisionNo
      level := d.level
      structurePath := d.structurePath
      title := d.title
      fullText := text
      contentHash := contentSha256 sha256 text
      charStart := cursor
      charEnd := cursor+text.length }::
    deriveProvisions versionId parserVersion newId (cursor+text.length) (n+1) ds

def newProvisions : List ProvisionFields → Except CorpusFailure (List (Provision sha256))
  | [] => .ok []
  | p::ps => do
    let provision ← (postInit (provisionChecks sha256) p).mapError .valueError
    let provisions ← newProvisions ps
    pure (provision::provisions)

variable {sha256}

def findInstrumentByIdentity (title jurisdiction : String) :
    CorpusTx sha256 (Option LegalInstrument) :=
  read fun s => selectRow
    (fun i => i.value.title == title && i.value.jurisdiction == jurisdiction) s.instruments

def findVersion (instrumentId : UUID7) (versionLabel : String) :
    CorpusTx sha256 (Option LegalVersion) :=
  read fun s => selectRow
    (fun v => v.value.instrumentId == instrumentId && v.value.versionLabel == versionLabel)
      s.versions

def createVersion (v : LegalVersion) : CorpusTx sha256 Unit := do
  require (versionColumns v = true) .dataError
  zoom versionsOf (insertRow .integrityError v)

def newInstrument (c : ImportCall) : LegalInstrumentFields where
  id := c.instrumentId
  title := c.command.title
  issuingAuthority := c.command.issuingAuthority
  jurisdiction := c.command.jurisdiction
  regionCode := c.command.regionCode
  category := c.command.category

def createInstrument (c : ImportCall) : CorpusTx sha256 LegalInstrument := do
  let instrument ← ofExcept .valueError (postInit legalInstrumentChecks (newInstrument c))
  zoom instrumentsOf (insertRow .integrityError instrument)
  pure instrument

def instrumentConflict (i : LegalInstrument) (c : LegalImportCommand) : Option String :=
  if i.value.issuingAuthority ≠ c.issuingAuthority then
    some ("instrument identity conflicts on issuing authority; "++
      "similar statutes are never merged automatically")
  else if i.value.category ≠ c.category then
    some "instrument identity conflicts on category; existing category is immutable"
  else if i.value.regionCode ≠ c.regionCode then
    some ("instrument identity conflicts on region; "++
      "statutes from different or unconfirmed regions are never merged automatically")
  else none

def reuseInstrument (c : ImportCall) : Option LegalInstrument → CorpusTx sha256 LegalInstrument
  | none => createInstrument c
  | some i =>
    match instrumentConflict i c.command with
    | some message => fail (.importConflict message)
    | none => pure i

variable (sha256)

def versionMatches (v : LegalVersion) (c : LegalImportCommand) : Prop :=
  v.value.versionLabel = c.versionLabel ∧ v.value.status = c.status ∧
  v.value.publishedOn = c.publishedOn ∧ v.value.effectiveOn = c.effectiveOn ∧
  v.value.repealedOn = c.repealedOn ∧ v.value.lawNumber = c.lawNumber ∧
  v.value.sourceRef = some c.sourceRef ∧ v.value.datasetVersion = some c.datasetVersion ∧
  v.value.parserVersion = some c.parserVersion ∧
  v.value.contentHash = some (contentHash sha256 c.parserVersion c.provisions)

instance (v : LegalVersion) (c : LegalImportCommand) : Decidable (versionMatches sha256 v c) :=
  inferInstanceAs (Decidable (_ ∧ _))

def newVersion (c : ImportCall) (instrumentId : UUID7) : LegalVersionFields where
  id := c.versionId
  instrumentId := instrumentId
  versionLabel := c.command.versionLabel
  status := c.command.status
  publishedOn := c.command.publishedOn
  effectiveOn := c.command.effectiveOn
  repealedOn := c.command.repealedOn
  lawNumber := c.command.lawNumber
  contentHash := some (contentHash sha256 c.command.parserVersion c.command.provisions)
  sourceRef := some c.command.sourceRef
  datasetVersion := some c.command.datasetVersion
  parserVersion := some c.command.parserVersion

variable {sha256}

def writeVersion (c : ImportCall) (instrumentId : UUID7) : CorpusTx sha256 LegalImportResult := do
  let provisions ← ofExcept id (newProvisions sha256 (deriveProvisions sha256 c.versionId
    c.command.parserVersion c.provisionId 0 0 c.command.provisions))
  let version ← ofExcept .valueError (postInit legalVersionChecks
    (newVersion sha256 c instrumentId))
  createVersion version
  zoom provisionsOf (insertRows .integrityError provisions)
  pure ⟨instrumentId,c.versionId,false⟩

def replayVersion (c : ImportCall) (instrumentId : UUID7) (v : LegalVersion) :
    CorpusTx sha256 LegalImportResult :=
  if versionMatches sha256 v c.command then pure ⟨instrumentId,v.value.id,true⟩
  else fail (.importConflict "version label already exists with different content or metadata")

def writeOrReplay (c : ImportCall) (instrumentId : UUID7) :
    Option LegalVersion → CorpusTx sha256 LegalImportResult
  | some v => replayVersion c instrumentId v
  | none => writeVersion c instrumentId

def importVersion (c : ImportCall) : CorpusTx sha256 LegalImportResult := do
  ofExcept id (validateImportCommand c.command)
  let found ← findInstrumentByIdentity c.command.title c.command.jurisdiction
  let instrument ← reuseInstrument c found
  let existing ← findVersion instrument.value.id c.command.versionLabel
  writeOrReplay c instrument.value.id existing

end LawyerAgent.CorpusImport
