import LawyerAgent.CanonicalJson
import LawyerAgent.LegalVersions

/-!
# The legal corpus

Instruments, their versions, the provisions of a version and the chunks cut
from them. The rows of a table have passed the constructor of their domain
class, so reading them back cannot fail.
-/

set_option autoImplicit false

namespace LawyerAgent.LegalCorpus
open Relational Common PythonText LegalVersions
open CanonicalJson (encode)

inductive LegalCategory where
  | constitution
  | law
  | administrativeRegulation
  | judicialInterpretation
  | localRegulation
  | supervisoryRegulation
  | unknown
deriving DecidableEq, Repr

inductive ProvisionLevel where
  | part
  | chapter
  | section
  | article
  | paragraph
  | item
  | subItem
deriving DecidableEq, Repr

def ProvisionLevel.value : ProvisionLevel → String
  | .part => "part"
  | .chapter => "chapter"
  | .section => "section"
  | .article => "article"
  | .paragraph => "paragraph"
  | .item => "item"
  | .subItem => "sub_item"

inductive ChunkType where
  | provision
  | paragraph
  | item
  | subItem
  | table
  | attachment
deriving DecidableEq, Repr

def ChunkType.value : ChunkType → String
  | .provision => "provision"
  | .paragraph => "paragraph"
  | .item => "item"
  | .subItem => "sub_item"
  | .table => "table"
  | .attachment => "attachment"

inductive ChunkQuality where
  | ok
  | degraded
  | failed
deriving DecidableEq, Repr

def ChunkQuality.value : ChunkQuality → String
  | .ok => "ok"
  | .degraded => "degraded"
  | .failed => "failed"

theorem level_value_inj {l m : ProvisionLevel} (h : l.value = m.value) : l = m := by
  revert h
  cases l <;> cases m <;> decide

/-- A text that is not blank. -/
def hasText (text : List Char) : Bool := !(strip text).isEmpty

variable (sha256 : List UInt8 → Digest)

def contentSha256 (content : List Char) : Digest := sha256 (encode content)

def maxTextBytes : ℕ := 2*1024*1024

structure LegalInstrumentFields where
  id : UUID7
  title : String
  issuingAuthority : String
  jurisdiction : String
  regionCode : Option String
  category : LegalCategory
deriving DecidableEq

def legalInstrumentChecks : Checks LegalInstrumentFields := fun i =>
  [(nonempty i.title,"instrument title must be non-empty text"),
   (nonempty i.issuingAuthority,"issuing authority must be non-empty text"),
   (nonempty i.jurisdiction,"jurisdiction must be non-empty text")]

abbrev LegalInstrument : Type := Checked legalInstrumentChecks

structure ProvisionFields where
  id : UUID7
  versionId : UUID7
  provisionNo : String
  level : ProvisionLevel
  structurePath : List String
  title : Option String
  fullText : List Char
  contentHash : Digest
  charStart : ℕ
  charEnd : ℕ
deriving DecidableEq

def provisionChecks : Checks ProvisionFields := fun p =>
  [(nonempty p.provisionNo,"provision number must be non-empty text"),
   (hasText p.fullText,"provision full text must be non-empty text"),
   (decide ((encode p.fullText).length ≤ maxTextBytes),
    "provision full text exceeds the size limit"),
   (p.contentHash == contentSha256 sha256 p.fullText,"provision content hash mismatch"),
   (decide (p.charStart < p.charEnd),"provision character range is invalid")]

abbrev Provision : Type := Checked (provisionChecks sha256)

structure LegalChunkFields where
  id : UUID7
  versionId : UUID7
  provisionId : UUID7
  chunkType : ChunkType
  quality : ChunkQuality
  content : List Char
  contentHash : Digest
  parentChunkId : Option UUID7
  parserVersion : Option String
  parentRelativeCharStart : Option ℕ
  parentRelativeCharEnd : Option ℕ
deriving DecidableEq

/-- Both ends of a position, the one after the other, or none. -/
def positionValid : Option ℕ → Option ℕ → Bool
  | none, none => true
  | some start, some stop => start < stop
  | _, _ => false

def legalChunkChecks : Checks LegalChunkFields := fun c =>
  [(c.contentHash == contentSha256 sha256 c.content,"chunk content hash mismatch"),
   (positionValid c.parentRelativeCharStart c.parentRelativeCharEnd,"chunk position invalid")]

abbrev LegalChunk : Type := Checked (legalChunkChecks sha256)

/-- The bytes of a `TEXT` column. -/
def textMax : ℕ := 65535

def legalInstruments : Schema LegalInstrument UUID7 where
  key i := i.value.id
  check i :=
    decide (i.value.title.length ≤ 512) && decide (i.value.issuingAuthority.length ≤ 256) &&
    decide (i.value.jurisdiction.length ≤ 64) && i.value.regionCode.all fun r =>
      decide (r.length ≤ 16)
  clash i j := i.value.title == j.value.title && i.value.jurisdiction == j.value.jurisdiction

def versionColumns (v : LegalVersion) : Bool :=
  decide (v.value.versionLabel.length ≤ 128) &&
  v.value.lawNumber.all (fun n => decide (n.length ≤ 256)) &&
  v.value.sourceRef.all (fun r => decide (r.length ≤ 512)) &&
  v.value.datasetVersion.all (fun d => decide (d.length ≤ 64)) &&
  v.value.parserVersion.all (fun p => decide (p.length ≤ 64))

def legalProvisions : Schema (Provision sha256) UUID7 where
  key p := p.value.id
  check p := decide (p.value.provisionNo.length ≤ 64) &&
    p.value.title.all (fun t => decide (t.length ≤ 512)) &&
    decide ((encode p.value.fullText).length ≤ textMax) && decide (p.value.charEnd ≤ integerMax)
  clash p q := p.value.versionId == q.value.versionId && p.value.provisionNo == q.value.provisionNo

def legalChunks : Schema (LegalChunk sha256) UUID7 where
  key c := c.value.id
  check c := decide ((encode c.value.content).length ≤ textMax) &&
    c.value.parserVersion.all (fun p => decide (p.length ≤ 64)) &&
    c.value.parentRelativeCharEnd.all (fun n => decide (n ≤ integerMax))
  clash _ _ := false

structure Corpus where
  instruments : Table legalInstruments
  versions : Table legalVersions
  provisions : Table (legalProvisions sha256)
  chunks : Table (legalChunks sha256)

variable {sha256}

def instrumentsOf : Lens (Corpus sha256) (Table legalInstruments) where
  get := Corpus.instruments
  set := fun t s => {s with instruments := t}
  get_set := fun _ _ => rfl
  set_get := fun _ => rfl

def versionsOf : Lens (Corpus sha256) (Table legalVersions) where
  get := Corpus.versions
  set := fun t s => {s with versions := t}
  get_set := fun _ _ => rfl
  set_get := fun _ => rfl

def provisionsOf : Lens (Corpus sha256) (Table (legalProvisions sha256)) where
  get := Corpus.provisions
  set := fun t s => {s with provisions := t}
  get_set := fun _ _ => rfl
  set_get := fun _ => rfl

def chunksOf : Lens (Corpus sha256) (Table (legalChunks sha256)) where
  get := Corpus.chunks
  set := fun t s => {s with chunks := t}
  get_set := fun _ _ => rfl
  set_get := fun _ => rfl

inductive CorpusFailure where
  | importError (text : String)
  | importConflict (text : String)
  | replayConflict (text : String)
  | valueError (text : String)
  | integrityError
  | dataError
deriving DecidableEq

abbrev CorpusTx (sha256 : List UInt8 → Digest) (α : Type) : Type :=
  Tx CorpusFailure (Corpus sha256) α

def earlierStart (p q : Provision sha256) : Prop := p.value.charStart ≤ q.value.charStart

instance : DecidableRel (@earlierStart sha256) := fun p q =>
  inferInstanceAs (Decidable (p.value.charStart ≤ q.value.charStart))

def provisionsForVersion (s : Corpus sha256) (versionId : UUID7) : List (Provision sha256) :=
  (selectRows (fun p => p.value.versionId == versionId) s.provisions).insertionSort earlierStart

/-- The place of a chunk's provision, and the binary order of identifiers. -/
def chunkKey (s : Corpus sha256) (c : LegalChunk sha256) : Option (ℕ ×ₗ ℕ) :=
  (selectRow (fun p => p.value.id == c.value.provisionId) s.provisions).map fun p =>
    toLex (p.value.charStart,c.value.id.int.toNat)

def earlierChunk (s : Corpus sha256) (c d : LegalChunk sha256) : Prop :=
  (chunkKey s c).getD (toLex (0,0)) ≤ (chunkKey s d).getD (toLex (0,0))

instance (s : Corpus sha256) : DecidableRel (earlierChunk s) := fun c d =>
  inferInstanceAs (Decidable ((chunkKey s c).getD (toLex (0,0)) ≤
    (chunkKey s d).getD (toLex (0,0))))

def chunksForVersion (s : Corpus sha256) (versionId : UUID7) : List (LegalChunk sha256) :=
  (selectRows (fun c => c.value.versionId == versionId && (chunkKey s c).isSome)
    s.chunks).insertionSort (earlierChunk s)

def checkChunkIds (versionId : UUID7) :
    List UUID7 → List (LegalChunk sha256) → Except CorpusFailure Unit
  | _, [] => .ok ()
  | seen, c::cs =>
    if c.value.versionId ≠ versionId then
      .error (.valueError "chunk does not belong to the target version")
    else if c.value.id ∈ seen then .error (.valueError "duplicate chunk id")
    else checkChunkIds versionId (c.value.id::seen) cs

def chunkById (chunks : List (LegalChunk sha256)) (id : UUID7) : Option (LegalChunk sha256) :=
  chunks.find? fun c => c.value.id == id

def checkChunkParents (chunks : List (LegalChunk sha256)) :
    List (LegalChunk sha256) → Except CorpusFailure Unit
  | [] => .ok ()
  | c::cs =>
    match c.value.parentChunkId with
    | none => checkChunkParents chunks cs
    | some parentId =>
      match chunkById chunks parentId with
      | none => .error (.valueError "chunk parent must belong to the replacement graph")
      | some parent =>
        if parent.value.provisionId ≠ c.value.provisionId then
          .error (.valueError "chunk parent must belong to the same provision")
        else checkChunkParents chunks cs

def layerReady (inserted : List UUID7) (c : LegalChunk sha256) : Bool :=
  c.value.parentChunkId.all fun parentId => decide (parentId ∈ inserted)

def nextLayer (inserted : List UUID7) (pending : List (LegalChunk sha256)) :
    List (LegalChunk sha256) := pending.filter (layerReady inserted)

def laterLayers (inserted : List UUID7) (pending : List (LegalChunk sha256)) :
    List (LegalChunk sha256) := pending.filter fun c => !layerReady inserted c

theorem laterLayers_length {inserted : List UUID7} {pending : List (LegalChunk sha256)}
    (h : nextLayer inserted pending ≠ []) :
    (laterLayers inserted pending).length < pending.length := by
  obtain ⟨c,hc⟩ := List.exists_mem_of_ne_nil _ h
  obtain ⟨hmem,hready⟩ := List.mem_filter.mp hc
  apply List.length_filter_lt_length_iff_exists.mpr
  exact ⟨c,hmem,by simp [hready]⟩

/-- The layers of the chunks that are still pending, parents first. -/
def layersFrom (inserted : List UUID7) (pending : List (LegalChunk sha256)) :
    Except CorpusFailure (List (List (LegalChunk sha256))) :=
  if pending = [] then .ok []
  else if nextLayer inserted pending = [] then
    .error (.valueError "chunk parent graph contains a cycle")
  else
    (layersFrom (inserted++(nextLayer inserted pending).map fun c => c.value.id)
      (laterLayers inserted pending)).map (nextLayer inserted pending::·)
termination_by pending.length
decreasing_by exact laterLayers_length ‹_›

def validateAndLayerChunks (versionId : UUID7) (chunks : List (LegalChunk sha256)) :
    Except CorpusFailure (List (List (LegalChunk sha256))) := do
  checkChunkIds versionId [] chunks
  checkChunkParents chunks chunks
  layersFrom [] chunks

def insertLayers : List (List (LegalChunk sha256)) → CorpusTx sha256 Unit
  | [] => pure ()
  | layer::layers => do
    zoom chunksOf (insertRows .integrityError layer)
    insertLayers layers

/-- The rows that are deleted lose their parents first, which only the foreign
key of the parents needs. -/
def replaceChunksForVersion (versionId : UUID7) (chunks : List (LegalChunk sha256)) :
    CorpusTx sha256 Unit := do
  let target ← read fun s => selectRow (fun v => v.value.id == versionId) s.versions
  require (target.isSome = true) (.valueError "chunk target version does not exist")
  let layers ← ofExcept id (validateAndLayerChunks versionId chunks)
  let owned ← read fun s => chunks.all fun c =>
    s.provisions.rows.any fun p =>
      p.value.versionId == versionId && p.value.id == c.value.provisionId
  require (owned = true) (.valueError "chunk provision does not belong to the target version")
  let _ ← zoom chunksOf (deleteRows fun c => c.value.versionId == versionId)
  insertLayers layers

end LawyerAgent.LegalCorpus
