import LawyerAgent.CorpusImport
import LawyerAgent.CorpusPublish
import LawyerAgent.ChunkStructure

/-!
# The release quality audit

Before a version is released its stored provisions and chunks are checked
again, by code that shares nothing with the import but the content hash. Each
failed check is a blocker.
-/

set_option autoImplicit false

namespace LawyerAgent.ReleaseQuality
open Common PythonText LegalVersions
open LegalCorpus CorpusImport CorpusPublish
open ChunkStructure (find exactPositions)
open LegalArticleHeading (Text articleNo isFullwidthDigit isAsciiDigit cnNumber isSupplement)
open Envelope (uuidText)
open Regex (slice)

variable {sha256 : List UInt8 → Digest}

inductive ContentMode where
  | articles
  | nonArticleDocument
deriving DecidableEq

/-- The reviewed numbers of the first and the last article. -/
structure ArticleNumberingReview where
  firstArticle : ℕ
  lastArticle : ℕ
  ordered : 2 ≤ firstArticle ∧ firstArticle ≤ lastArticle ∧ lastArticle ≤ 9999

structure ReleaseSelection where
  versionId : UUID7
  contentMode : ContentMode
  numberingReview : Option ArticleNumberingReview

structure ReleaseConfiguration where
  parserVersion : String

/-- The digits of an article number, full-width ones as ASCII. -/
def normalizedToken (token : Text) : Text :=
  token.map fun c => if isFullwidthDigit c then Char.ofNat (c.toNat- '０'.toNat+ '0'.toNat) else c

def leadingZero (token : Text) : Bool :=
  let normalized := normalizedToken token
  normalized.all isAsciiDigit && decide (1 < normalized.length) && normalized.head? == some '0'

/-- A reviewed number is not padded and has no supplement. -/
def reviewedNext (current : ℕ × ℕ) (item : Text) : Option (ℕ × ℕ) :=
  match Regex.fullmatch? articleNo item with
  | none => if legacyNumeric item ∧ leadingZero item = false then
      nextArticle current (cnNumber item)
      else none
  | some m =>
    if leadingZero (m.textOf .article item) ∨ isSupplement m then none
    else nextArticle current (cnNumber (m.textOf .article item))

def reviewedBreak (last : ℕ) : ℕ × ℕ → List String → Option String
  | current, [] => if current.1 = last then none else some "reviewed_interval_end"
  | current, item::numbers =>
    match reviewedNext current item.toList with
    | none => some item
    | some next => reviewedBreak last next numbers

/-- `_sequence_break` -/
def articleSequenceBreak (review : Option ArticleNumberingReview) (numbers : List String) :
    Option String :=
  match review with
  | none => sequenceBreak (0,0) numbers
  | some r =>
    if numbers.length ≠ r.lastArticle-r.firstArticle+1 then some "reviewed_interval_count"
    else reviewedBreak r.lastArticle (r.firstArticle-1,0) numbers

/-- The order of the audit: start, end, then the written identifier. -/
def earlierProvision (p q : Provision sha256) : Prop :=
  p.value.charStart < q.value.charStart ∨ p.value.charStart = q.value.charStart ∧
    (p.value.charEnd < q.value.charEnd ∨ p.value.charEnd = q.value.charEnd ∧
      uuidText p.value.id ≤ uuidText q.value.id)

instance : DecidableRel (@earlierProvision sha256) := fun p q =>
  inferInstanceAs (Decidable (p.value.charStart < q.value.charStart ∨
    p.value.charStart = q.value.charStart ∧ (p.value.charEnd < q.value.charEnd ∨
      p.value.charEnd = q.value.charEnd ∧ uuidText p.value.id ≤ uuidText q.value.id)))

def blockerIf (found : Bool) (blocker : String) : List String := if found then [blocker] else []

def expectedLevel : ContentMode → ProvisionLevel
  | .articles => .article
  | .nonArticleDocument => .paragraph

def provisionFlaw (selection : ReleaseSelection) (p : Provision sha256) : Bool :=
  !isUUID7 p.value.id.int || p.value.versionId != selection.versionId ||
    p.value.level != expectedLevel selection.contentMode || !hasText p.value.fullText ||
    p.value.contentHash != contentSha256 sha256 p.value.fullText

/-- The loop over the ordered provisions, with the place where the next starts. -/
def provisionLoop (selection : ReleaseSelection) : ℕ → List (Provision sha256) → List String
  | _, [] => []
  | cursor, p::ps =>
    blockerIf (provisionFlaw selection p) "provision_invalid"++
    (blockerIf (p.value.charStart != cursor ||
      p.value.charEnd != p.value.charStart+p.value.fullText.length) "provision_bounds_invalid"++
    provisionLoop selection p.value.charEnd ps)

def draftOf (p : Provision sha256) : LegalProvisionDraft :=
  ⟨p.value.provisionNo,p.value.level,p.value.structurePath,p.value.title,p.value.fullText⟩

def expectedHash (version : LegalVersion) (ordered : List (Provision sha256)) : Digest :=
  match version.value.parserVersion.filter exactText with
  | some parserVersion => contentHash sha256 parserVersion (ordered.map draftOf)
  | none => contentSha256 sha256 (ordered.map fun p => p.value.fullText).flatten

def bodyFlaw : List (Provision sha256) → Bool
  | [p] => p.value.provisionNo != "正文" || p.value.structurePath != ["正文"]
  | _ => true

/-- The blockers of `_provisions`; the proof is known by its quality flags. -/
def provisionBlockers (selection : ReleaseSelection) (version : LegalVersion)
    (provisions : List (Provision sha256)) (qualityFlags : Option (List String)) : List String :=
  if provisions = [] then ["provisions_missing"]
  else
    let ordered := provisions.insertionSort earlierProvision
    let bodyMode := selection.contentMode == .nonArticleDocument
    let proofBody := qualityFlags.any fun flags => flags.contains "non_article_document"
    blockerIf (decide ¬(provisions.map fun p => p.value.id).Nodup) "provision_duplicate"++
    (blockerIf (bodyMode != proofBody) "content_mode_mismatch"++
    (blockerIf (bodyMode && bodyFlaw provisions) "non_article_structure_invalid"++
    (provisionLoop selection 0 ordered++
    (blockerIf (!bodyMode && (articleSequenceBreak selection.numberingReview
      (ordered.map fun p => p.value.provisionNo)).isSome) "article_sequence_invalid"++
    blockerIf (version.value.contentHash != some (expectedHash version ordered))
      "version_content_hash_mismatch"))))

def checkIndexIds : List UUID7 → List (LegalChunk sha256) → Except String Unit
  | _, [] => .ok ()
  | seen, c::cs =>
    if c.value.id ∈ seen then .error ("duplicate chunk id: "++String.ofList (uuidText c.value.id))
    else if c.value.quality = .failed then
      .error ("failed chunk cannot be indexed: "++String.ofList (uuidText c.value.id))
    else checkIndexIds (c.value.id::seen) cs

def checkIndexParent (chunks : List (LegalChunk sha256)) (c : LegalChunk sha256) :
    Except String Unit :=
  match c.value.parentChunkId with
  | none => .ok ()
  | some parentId =>
    if parentId = c.value.id then
      .error ("chunk cannot parent itself: "++String.ofList (uuidText c.value.id))
    else
      match chunkById chunks parentId with
      | none => .error ("chunk "++String.ofList (uuidText c.value.id)++
          " references missing parent "++String.ofList (uuidText parentId))
      | some parent =>
        if parent.value.versionId ≠ c.value.versionId then
          .error "parent and child belong to different versions"
        else if parent.value.provisionId ≠ c.value.provisionId then
          .error "parent and child belong to different provisions"
        else .ok ()

def checkIndexParents (chunks : List (LegalChunk sha256)) :
    List (LegalChunk sha256) → Except String Unit
  | [] => .ok ()
  | c::cs => do
    checkIndexParent chunks c
    checkIndexParents chunks cs

/-- The path from a chunk to a root or to a validated chunk. A path without a
cycle has no more chunks than the graph. -/
def climb (chunks : List (LegalChunk sha256)) (validated : List UUID7) :
    ℕ → List UUID7 → Option UUID7 → Except String (List UUID7)
  | _, path, none => .ok path
  | 0, _, some _ => .error "chunk parent graph contains a cycle"
  | fuel+1, path, some id =>
    if id ∈ validated then .ok path
    else if id ∈ path then .error "chunk parent graph contains a cycle"
    else climb chunks validated fuel (path++[id])
      ((chunkById chunks id).bind fun c => c.value.parentChunkId)

def rejectCycles (chunks : List (LegalChunk sha256)) :
    List UUID7 → List (LegalChunk sha256) → Except String Unit
  | _, [] => .ok ()
  | validated, c::cs => do
    let path ← climb chunks validated (chunks.length+1) [] (some c.value.id)
    rejectCycles chunks (validated++path) cs

def selectIndexLeaves (chunks : List (LegalChunk sha256)) :
    Except String (List (LegalChunk sha256)) := do
  checkIndexIds [] chunks
  checkIndexParents chunks chunks
  rejectCycles chunks [] chunks
  pure (chunks.filter fun c => decide (some c.value.id ∉ chunks.map fun d => d.value.parentChunkId))

def provisionById (provisions : List (Provision sha256)) (id : UUID7) : Option (Provision sha256) :=
  provisions.find? fun p => p.value.id == id

def chunkFlaw (selection : ReleaseSelection) (configuration : ReleaseConfiguration)
    (provisions : List (Provision sha256)) (c : LegalChunk sha256) : Bool :=
  !isUUID7 c.value.id.int || c.value.versionId != selection.versionId ||
    (provisionById provisions c.value.provisionId).isNone || !hasText c.value.content ||
    c.value.contentHash != contentSha256 sha256 c.value.content ||
    c.value.parserVersion != some configuration.parserVersion

def placeOf (c : LegalChunk sha256) : Option (ℕ × ℕ) :=
  match c.value.parentRelativeCharStart, c.value.parentRelativeCharEnd with
  | some start, some stop => some (start,stop)
  | _, _ => none

def placed (fullText content : Text) (place : ℕ × ℕ) : Bool :=
  decide (place.2 ≤ fullText.length) && slice fullText place.1 place.2 == content

def positionBlockers (configuration : ReleaseConfiguration) (provisions : List (Provision sha256))
    (c : LegalChunk sha256) : List String :=
  match placeOf c with
  | some place => blockerIf (!(provisionById provisions c.value.provisionId).any fun p =>
      placed p.value.fullText c.value.content place) "chunk_position_invalid"
  | none => blockerIf (exactPositions configuration.parserVersion) "chunk_position_missing"

def contains (text sub : Text) : Bool := (find text sub 0).isSome

/-- A place that leaves the place of the parent, or the parent without one. -/
def outsideParent (parent c : LegalChunk sha256) : Bool :=
  match placeOf c, placeOf parent with
  | none, _ => false
  | some _, none => true
  | some (start,stop), some (low,high) => decide (start < low) || decide (high < stop)

def parentBlockers (chunks : List (LegalChunk sha256)) (c : LegalChunk sha256) : List String :=
  match c.value.parentChunkId.bind (chunkById chunks) with
  | none => []
  | some parent =>
    blockerIf (!contains parent.value.content c.value.content) "child_text_outside_parent"++
    blockerIf (outsideParent parent c) "chunk_position_outside_parent"

/-- Where a leaf lies in the text of its provision. -/
inductive LeafPlace where
  | invalid
  | outside
  | ambiguous
  | covered (start stop : ℕ)
deriving DecidableEq

def leafPlace (fullText : Text) (leaf : LegalChunk sha256) : LeafPlace :=
  match placeOf leaf with
  | some place => if placed fullText leaf.value.content place then .covered place.1 place.2 else
      .invalid
  | none =>
    match find fullText leaf.value.content 0 with
    | none => .outside
    | some start =>
      if (find fullText leaf.value.content (start+1)).isSome then .ambiguous
      else .covered start (start+leaf.value.content.length)

def LeafPlace.covers (i : ℕ) : LeafPlace → Bool
  | .covered start stop => decide (start ≤ i) && decide (i < stop)
  | _ => false

/-- A visible character that no leaf covers. -/
def hasGap (fullText : Text) (places : List LeafPlace) : Bool :=
  fullText.zipIdx.any fun (c,i) => !isSpace c && !places.any (LeafPlace.covers i)

def leafBlockers (fullText : Text) (places : List LeafPlace) : List String :=
  blockerIf (places.contains .invalid) "leaf_position_invalid"++
  (blockerIf (places.contains .outside) "leaf_text_outside_article"++
  blockerIf (hasGap fullText places)
    (if places.contains .ambiguous then "leaf_coverage_ambiguous" else "leaf_coverage_gap"))

def articleRoots (chunks : List (LegalChunk sha256)) (p : Provision sha256) :
    List (LegalChunk sha256) :=
  chunks.filter fun c => c.value.provisionId == p.value.id && c.value.parentChunkId == none

def rootFlaw (p : Provision sha256) : List (LegalChunk sha256) → Bool
  | [root] => root.value.chunkType != .provision || root.value.content != p.value.fullText
  | _ => true

def articleBlockers (chunks leaves : List (LegalChunk sha256)) (p : Provision sha256) :
    List String :=
  if rootFlaw p (articleRoots chunks p) then ["article_parent_invalid"]
  else leafBlockers p.value.fullText
    ((leaves.filter fun leaf => leaf.value.provisionId == p.value.id).map
      (leafPlace p.value.fullText))

/-- The blockers of `_chunks`. -/
def chunkBlockers (selection : ReleaseSelection) (configuration : ReleaseConfiguration)
    (provisions : List (Provision sha256)) (chunks : List (LegalChunk sha256)) : List String :=
  if chunks = [] then ["chunks_missing"]
  else
    match selectIndexLeaves chunks with
    | .error _ => ["chunk_graph_invalid"]
    | .ok leaves =>
      chunks.flatMap (fun c =>
        blockerIf (chunkFlaw selection configuration provisions c) "chunk_invalid"++
        (positionBlockers configuration provisions c++parentBlockers chunks c))++
      provisions.flatMap (articleBlockers chunks leaves)

/-- The blockers of a stored version that come from its provisions and chunks. -/
def auditBlockers (selection : ReleaseSelection) (configuration : ReleaseConfiguration)
    (version : LegalVersion) (qualityFlags : Option (List String)) (s : Corpus sha256) :
      List String :=
  let provisions := provisionsForVersion s selection.versionId
  let chunks := chunksForVersion s selection.versionId
  provisionBlockers selection version provisions qualityFlags++
    chunkBlockers selection configuration provisions chunks

end LawyerAgent.ReleaseQuality
