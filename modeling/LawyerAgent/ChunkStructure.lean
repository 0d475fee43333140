import LawyerAgent.LegalArticleHeading
import LawyerAgent.LegalCorpus
import Mathlib.Data.Char
import Mathlib.Data.List.Lex

/-!
# Hierarchical chunks

Every article is a parent chunk. An article that is too long has its paragraphs
as children, and a paragraph that is too long is cut into windows. A child
records the place of its text in the article.
-/

set_option autoImplicit false

namespace LawyerAgent.ChunkStructure
open Common PythonText LegalCorpus
open LegalArticleHeading (Text articleHeading isFullwidthDigit isAsciiDigit spaces)
open Regex (match? slice)

def lstrip (text : Text) : Text := text.dropWhile isSpace

/-- `str.find`: the first place of `sub` from `start` on. -/
def find (text sub : Text) (start : ℕ) : Option ℕ :=
  (List.range' start (text.length+1-start)).find? fun i => sub.isPrefixOf (text.drop i)

/-- `str.rfind` of one character: its last place in a range, or -1. -/
def rfind (text : Text) (marker : Char) (low stop : ℕ) : ℤ :=
  ((((List.range' low (stop-low)).filter fun i => text[i]? == some marker).getLast?).map
    Int.ofNat).getD (-1)

structure Settings where
  maxLeafChars : ℤ
  windowChars : ℤ
  overlapChars : ℤ

def settingsChecks : Checks Settings := fun s =>
  [(decide (0 < s.maxLeafChars),"max_leaf_chars must be a positive integer"),
   (decide (0 < s.windowChars),"window_chars must be a positive integer"),
   (decide (0 < s.overlapChars),"overlap_chars must be a positive integer"),
   (decide (s.overlapChars < s.windowChars),"overlap_chars must be smaller than window_chars"),
   (decide (s.windowChars ≤ s.maxLeafChars),
    "max_leaf_chars must not be smaller than window_chars")]

/-- Settings that have passed `_validate_settings`. -/
structure Sizes where
  maxLeaf : ℕ
  window : ℕ
  overlap : ℕ
  overlaps : overlap < window
  fits : window ≤ maxLeaf

def validateSettings (s : Settings) : Except String Sizes :=
  match h : firstError (settingsChecks s) with
  | some message => .error message
  | none => .ok
    { maxLeaf := s.maxLeafChars.toNat
      window := s.windowChars.toNat
      overlap := s.overlapChars.toNat
      overlaps := by
        have hwindow := firstError_none h (c := (decide (0 < s.windowChars),
          "window_chars must be a positive integer")) (by simp [settingsChecks])
        have hoverlap := firstError_none h (c := (decide (s.overlapChars < s.windowChars),
          "overlap_chars must be smaller than window_chars")) (by simp [settingsChecks])
        simp only [decide_eq_true_eq] at hwindow hoverlap
        omega
      fits := by
        have hfits := firstError_none h (c := (decide (s.windowChars ≤ s.maxLeafChars),
          "max_leaf_chars must not be smaller than window_chars")) (by simp [settingsChecks])
        simp only [decide_eq_true_eq] at hfits
        omega }

structure ProvisionSource where
  id : UUID7
  fullText : Text
  charStart : ℕ

structure ArticleSource where
  paragraphs : List Text

structure ChunkUnit where
  kind : ChunkType
  text : Text
  parentStart : ℕ
deriving DecidableEq

def isItemNumeral (c : Char) : Bool :=
  ['一','二','三','四','五','六','七','八','九','十','百'].contains c

def itemParen : LegalArticleHeading.Expression :=
  .seqs [.set fun c => ['（','('].contains c,spaces,.plus (.set isItemNumeral),
    .set fun c => [')','）'].contains c]

def itemCn : LegalArticleHeading.Expression := .seq (.plus (.set isItemNumeral)) (.char '、')

def subNumber : LegalArticleHeading.Expression :=
  .seq (.plus (.set fun c => isAsciiDigit c || isFullwidthDigit c))
    (.set fun c => ['.','．','、'].contains c)

def classify (text : Text) : ChunkType :=
  if (match? subNumber text).isSome then .subItem
  else if (match? itemParen text).isSome || (match? itemCn text).isSome then .item
  else .paragraph

/-- The paragraphs of an exact profile, which make up the whole article. -/
def exactUnits : ℕ → List Text → List ChunkUnit
  | _, [] => []
  | cursor, paragraph::rest =>
    if paragraph = [] then exactUnits cursor rest
    else ⟨classify (lstrip paragraph),paragraph,cursor⟩::exactUnits (cursor+paragraph.length) rest

/-- A first paragraph without its heading, and the place where it then starts. -/
def withoutHeading (paragraph : Text) (start : ℕ) : Text × ℕ :=
  match match? articleHeading paragraph with
  | none => (paragraph,start)
  | some heading =>
    let remainder := paragraph.drop heading.stop
    (lstrip remainder,start+heading.stop+(remainder.length-(lstrip remainder).length))

/-- The stripped paragraphs, each looked for behind the one before it. -/
def foundUnits (fullText : Text) (preserveHeading : Bool) :
    Bool → ℕ → List Text → Option (List ChunkUnit)
  | _, _, [] => some []
  | first, cursor, paragraph::rest =>
    match find fullText paragraph cursor with
    | none => none
    | some start =>
      let (text,unitStart) :=
        if first && !preserveHeading then withoutHeading paragraph start else (paragraph,start)
      (foundUnits fullText preserveHeading false (start+paragraph.length) rest).map fun units =>
        if text = [] then units else ⟨classify text,text,unitStart⟩::units

def unitsForArticle (fullText : Text) (article : ArticleSource) (maxLeaf : ℕ)
    (preserveHeading exactText : Bool) : List ChunkUnit :=
  if fullText.length ≤ maxLeaf then []
  else if exactText then
    if article.paragraphs = [] ∨ article.paragraphs.flatten ≠ fullText then []
    else exactUnits 0 article.paragraphs
  else
    let stripped := article.paragraphs.map strip
    if stripped = [] ∨ [] ∈ stripped ∨ stripped.flatten ≠ strip fullText then []
    else (foundUnits fullText preserveHeading true 0 stripped).getD []

structure Piece where
  text : Text
  start : ℕ
  stop : ℕ
deriving DecidableEq

/-- `_SENTENCE_END` -/
def sentenceEnds : Text := ['。','！','？','；',';']

/-- The end of the window at `start`: behind its last sentence, if one ends in
the part that the next window repeats. -/
def windowEnd (sizes : Sizes) (text : Text) (start : ℕ) : ℕ :=
  let stop := min (start+sizes.window) text.length
  if stop < text.length then
    let low := max (start+1) (stop-sizes.overlap)
    let boundary := (sentenceEnds.map fun marker => rfind text marker low stop).foldl max (-1)
    if (low : ℤ) ≤ boundary then boundary.toNat+1 else stop
  else stop

def nextStart (sizes : Sizes) (text : Text) (start : ℕ) : ℕ :=
  max (start+(sizes.window-sizes.overlap)) (windowEnd sizes text start-sizes.overlap)

theorem lt_nextStart (sizes : Sizes) (text : Text) (start : ℕ) :
    start < nextStart sizes text start := by
  have hoverlap := sizes.overlaps
  have hleft : start+(sizes.window-sizes.overlap) ≤ nextStart sizes text start := le_max_left _ _
  omega

/-- The loop of the windows, from `start` on. -/
def windowsFrom (sizes : Sizes) (text : Text) (start : ℕ) : List Piece :=
  if start < text.length then
    ⟨slice text start (windowEnd sizes text start),start,windowEnd sizes text start⟩::
      if text.length ≤ windowEnd sizes text start then []
      else windowsFrom sizes text (nextStart sizes text start)
  else []
termination_by text.length-start
decreasing_by
  have hnext := lt_nextStart sizes text start
  omega

/-- `_window_pieces_with_offsets` -/
def windowPieces (sizes : Sizes) (text : Text) : List Piece :=
  if text.length ≤ sizes.maxLeaf then [⟨text,0,text.length⟩] else windowsFrom sizes text 0

variable (sha256 : List UInt8 → Digest)

/-- A derived chunk and its exact half-open span in the parent article. -/
structure LocatedLegalChunk where
  chunk : LegalChunk sha256
  span : ℕ × ℕ

inductive DeriveFailure where
  | structureError (text : String)
  | valueError (text : String)
deriving DecidableEq

/-- `EXACT_TEXT_CHUNK_PARSER_VERSIONS` -/
def exactTextChunks (parserVersion : String) : Bool :=
  parserVersion == "corpus-docx-v4/hierarchical-v2" ||
    parserVersion == "corpus-docx-v5/hierarchical-v2"

def exactPositions (parserVersion : String) : Bool :=
  "/hierarchical-v2".toList.isSuffixOf parserVersion.toList

/-- What the chunks of one derivation have in common. -/
structure Derivation where
  versionId : UUID7
  parserVersion : String
  sizes : Sizes

variable {sha256}

def position (d : Derivation) (place : ℕ) : Option ℕ :=
  if exactPositions d.parserVersion then some place else none

/-- The fields of a chunk with the given text at a place of its article. -/
def chunkFields (sha256 : List UInt8 → Digest) (d : Derivation) (id provisionId : UUID7)
    (parent : Option UUID7) (kind : ChunkType) (content : Text) (span : ℕ × ℕ) :
    LegalChunkFields where
  id := id
  versionId := d.versionId
  provisionId := provisionId
  chunkType := kind
  quality := .ok
  content := content
  contentHash := contentSha256 sha256 content
  parentChunkId := parent
  parserVersion := some (stripString d.parserVersion)
  parentRelativeCharStart := position d span.1
  parentRelativeCharEnd := position d span.2

def newChunk (fields : LegalChunkFields) (span : ℕ × ℕ) :
    Except DeriveFailure (LocatedLegalChunk sha256) :=
  match postInit (legalChunkChecks sha256) fields with
  | .error message => .error (.valueError message)
  | .ok chunk => .ok ⟨chunk,span⟩

def unitsOf (d : Derivation) (p : ProvisionSource) (a : ArticleSource) : List ChunkUnit :=
  unitsForArticle p.fullText a d.sizes.maxLeaf (exactPositions d.parserVersion)
    (exactTextChunks d.parserVersion)

/-- The children of an article: kind, text and span of each window. -/
def articlePieces (d : Derivation) (p : ProvisionSource) (a : ArticleSource) :
    List (ChunkType × Text × (ℕ × ℕ)) :=
  (unitsOf d p a).flatMap fun unit => (windowPieces d.sizes unit.text).map fun piece =>
    (unit.kind,piece.text,(unit.parentStart+piece.start,unit.parentStart+piece.stop))

/-- The children in order; `n` counts the identifiers drawn before. -/
def newChildren (d : Derivation) (newId : ℕ → UUID7) (provisionId parentId : UUID7) :
    ℕ → List (ChunkType × Text × (ℕ × ℕ)) → Except DeriveFailure (List (LocatedLegalChunk sha256))
  | _, [] => .ok []
  | n, (kind,content,span)::pieces => do
    let child ← newChunk (chunkFields sha256 d (newId n) provisionId (some parentId) kind content
      span) span
    let children ← newChildren d newId provisionId parentId (n+1) pieces
    pure (child::children)

def newParent (d : Derivation) (newId : ℕ → UUID7) (n : ℕ) (p : ProvisionSource) :
    Except DeriveFailure (LocatedLegalChunk sha256) :=
  newChunk (chunkFields sha256 d (newId n) p.id none .provision p.fullText (0,p.fullText.length))
    (0,p.fullText.length)

def unitsMissing (d : Derivation) (p : ProvisionSource) (a : ArticleSource) : Prop :=
  exactTextChunks d.parserVersion = true ∧ d.sizes.maxLeaf < p.fullText.length ∧ unitsOf d p a = []

instance (d : Derivation) (p : ProvisionSource) (a : ArticleSource) :
    Decidable (unitsMissing d p a) := inferInstanceAs (Decidable (_ ∧ _))

def articleChunks (d : Derivation) (newId : ℕ → UUID7) (n : ℕ) (p : ProvisionSource)
    (a : ArticleSource) : Except DeriveFailure (List (LocatedLegalChunk sha256)) := do
  let parent ← newParent d newId n p
  if unitsMissing d p a then
    .error (.structureError "exact paragraph units must concatenate to the full provision text")
  else do
    let children ← newChildren d newId p.id (newId n) (n+1) (articlePieces d p a)
    pure (parent::children)

def deriveFrom (d : Derivation) (newId : ℕ → UUID7) :
    ℕ → List (ProvisionSource × ArticleSource) →
      Except DeriveFailure (List (LocatedLegalChunk sha256))
  | _, [] => .ok []
  | n, (p,a)::pairs => do
    let chunks ← articleChunks d newId n p a
    let rest ← deriveFrom d newId (n+chunks.length) pairs
    pure (chunks++rest)

/-- The order of the articles: by place, then by text. -/
def earlierPair (x y : ProvisionSource × ArticleSource) : Prop :=
  x.1.charStart < y.1.charStart ∨ x.1.charStart = y.1.charStart ∧ x.1.fullText ≤ y.1.fullText

instance : DecidableRel earlierPair := fun x y =>
  inferInstanceAs (Decidable (x.1.charStart < y.1.charStart ∨
    x.1.charStart = y.1.charStart ∧ x.1.fullText ≤ y.1.fullText))

structure DeriveCall where
  versionId : UUID7
  provisions : List ProvisionSource
  articles : List ArticleSource
  parserVersion : String
  settings : Settings

/-- The checks of the arguments; what is left are the sizes. -/
def validateCall (c : DeriveCall) : Except DeriveFailure Sizes :=
  match validateSettings c.settings with
  | .error message => .error (.structureError message)
  | .ok sizes =>
    if c.provisions = [] then
      .error (.structureError "provisions must be a non-empty tuple of typed provisions")
    else if c.articles = [] then
      .error (.structureError "articles must be a non-empty tuple of parsed articles")
    else if c.provisions.length ≠ c.articles.length then
      .error (.structureError "provisions and articles must correspond one to one")
    else if LegalVersions.nonempty c.parserVersion = false then
      .error (.structureError "parser version must be non-empty text")
    else .ok sizes

def deriveHierarchicalChunksWithLocations (c : DeriveCall) (newId : ℕ → UUID7) :
    Except DeriveFailure (List (LocatedLegalChunk sha256)) := do
  let sizes ← validateCall c
  deriveFrom ⟨c.versionId,c.parserVersion,sizes⟩ newId 0
    ((c.provisions.zip c.articles).insertionSort earlierPair)

def deriveHierarchicalChunks (c : DeriveCall) (newId : ℕ → UUID7) :
    Except DeriveFailure (List (LegalChunk sha256)) :=
  (deriveHierarchicalChunksWithLocations c newId).map fun located =>
    located.map LocatedLegalChunk.chunk

end LawyerAgent.ChunkStructure
