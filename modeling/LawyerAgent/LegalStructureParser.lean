import LawyerAgent.ArticleRuns

/-!
# The structural parser of legal instruments

The paragraphs of a document are cut into segments, and each segment is a
heading, the start of an article or more of the article before it. An article
keeps its place in the text the segments make.
-/

set_option autoImplicit false

namespace LawyerAgent.LegalStructureParser
open PythonText LegalArticleHeading Regex
open PrefixedArticle (PrefixedArticleSpan detectPrefixedArticleSpans)
open EmbeddedArticle (EmbeddedArticleSpan detectEmbeddedArticleSpans prefixedMarker)
open SpacedArticle (SpacedArticleSpan detectSpacedArticleSpans)
open LeadingTitle (LeadingTitleSpan detectLeadingTitleSpans)

inductive Level
  | part | chapter | sect | article | preamble
  deriving DecidableEq

inductive ParseError
  | ambiguousSupplementHeading
  | ambiguousInternalHeading
  deriving DecidableEq

structure ParsedHeading where
  level : Level
  heading : Text
  deriving DecidableEq

structure ParsedArticle where
  provisionNo : Text
  structurePath : List Text
  text : Text
  charStart : ℕ
  charEnd : ℕ
  paragraphs : List Text
  deriving DecidableEq

structure ParsedInstrument where
  paragraphs : List ParsedHeading
  articles : List ParsedArticle
  leadingTitleSpans : List LeadingTitleSpan
  prefixedArticleSpans : List PrefixedArticleSpan
  embeddedArticleSpans : List EmbeddedArticleSpan
  spacedArticleSpans : List SpacedArticleSpan

structure ArticleSegment where
  text : Text
  isTitle : Bool
  classificationStart : Option ℕ
  spacedMarker : Option SpacedArticleSpan

/-- `EXACT_TEXT_PARSER_VERSIONS` -/
def isExactText (profile : Option String) : Bool :=
  profile == some "corpus-docx-v4" || profile == some "corpus-docx-v5"

def repeatsItems (profile : Option String) : Bool := profile == some "corpus-docx-v5"

def preambleWord : Text := ['序','言']

def structureHeading (kind : Char) : Expression :=
  .seqs [spaces,.char '第',.plus (.set isStructureNumeral),.char kind,spaces]

def sectionHeading : Expression := structureHeading '节'

def chapterHeading : Expression := structureHeading '章'

def partHeading : Expression := structureHeading '编'

def openingParenthesis : Expression := .set fun c => ['（','('].contains c

def closingParenthesis : Expression := .set fun c => ['）',')'].contains c

def clauseOrItem : Expression := .set fun c => ['款','项'].contains c

def anyParenthesized : Expression := .seqs [openingParenthesis,number,closingParenthesis]

def subarticleReference : Expression :=
  .seq (.char '第') (.alts [
    .seqs [.star (.seq anyParenthesized (.char '、')),.char '第',anyParenthesized,.char '项'],
    .seq anyParenthesized clauseOrItem,
    .seq number clauseOrItem])

def parenthesizedItem : Expression :=
  .alt (.seqs [.char '（',number,.char '）']) (.seqs [.char '(',number,.char ')'])

/-- `_REPEATED_ITEM_REFERENCE` -/
def repeatedItemReferencePattern : Expression :=
  .seqs [.char '第',parenthesizedItem,.plus (.seqs [.char '、',.char '第',parenthesizedItem]),
    clauseOrItem]

def repeatedItemCandidate : Expression :=
  .seqs [.char '第',anyParenthesized,.char '、',.char '第']

def repeatedItemReference (text : Text) : Option Bool :=
  match match? articleHeading text with
  | none => none
  | some heading =>
    let tail := text.drop (markerEnd heading)
    if (match? repeatedItemCandidate tail).isNone then none
    else some (match? repeatedItemReferencePattern tail).isSome

def classifyStructure (text : Text) : Option (Level × Text) :=
  if (match? sectionHeading text).isSome then some (.sect,text)
  else if (match? chapterHeading text).isSome then some (.chapter,text)
  else if (match? partHeading text).isSome then some (.part,text)
  else none

def classifyArticle (text : Text) : Option (Level × Text) :=
  match match? articleHeading text with
  | some heading =>
    if (match? subarticleReference (text.drop (markerEnd heading))).isSome then
      classifyStructure text
    else some (.article,text)
  | none => classifyStructure text

def classifyHeading (text : Text) (repeatedItemReferences : Bool) : Option (Level × Text) :=
  if preambleWord.isPrefixOf text then some (.preamble,text)
  else if repeatedItemReferences then
    match repeatedItemReference text with
    | some true => none
    -- A malformed repeated locator counts as a heading.
    | some false => some (.article,text)
    | none => classifyArticle text
  else classifyArticle text

def articleNumber (text : Text) : Text :=
  match match? articleHeading text with
  | none => text.take 8
  | some heading =>
    let raw := removeSpaces (markerText heading text)
    let digits := raw.filter isDecimal
    if isSupplement heading then raw else if digits = [] then raw else digits

def leadingSpaces (raw : Text) : ℕ := (raw.takeWhile isSpace).length

/-- The places inside the normalized segment where an embedded article starts. -/
def cutsOf (normalizedStart length : ℕ) (embedded : List EmbeddedArticleSpan) : List ℕ :=
  (embedded.filter fun span =>
    normalizedStart < span.markerStart && span.markerStart < normalizedStart+length).map
    fun span => span.markerStart-normalizedStart

def splitNormalizedSegment (paragraphText : Text) (rawStart rawEnd : ℕ)
    (classificationStart : Option ℕ) (embedded : List EmbeddedArticleSpan)
    (spacedMarker : Option SpacedArticleSpan) : List ArticleSegment :=
  let raw := slice paragraphText rawStart rawEnd
  let normalized := strip raw
  if normalized = [] then []
  else
    let normalizedStart := rawStart+leadingSpaces raw
    let cuts := cutsOf normalizedStart normalized.length embedded
    let pieces := (0::cuts).zip (cuts++[normalized.length])
    let adjusted := classificationStart.bind fun start =>
      if normalizedStart ≤ start ∧ start < normalizedStart+normalized.length then
        some (start-normalizedStart)
      else none
    pieces.zipIdx.map fun piece =>
      { text := slice normalized piece.1.1 piece.1.2
        isTitle := false
        classificationStart := if piece.2 = 0 then adjusted.map (·-piece.1.1) else none
        spacedMarker := if piece.2 = 0 then spacedMarker else none }

inductive BoundaryKind
  | inside
  | article
  | failed (error : ParseError)

/-- What a line break of a paragraph is, from the text behind it. -/
def boundaryKind (repeatedItemReferences : Bool) (tail : Text) : BoundaryKind :=
  if repeatedItemReferences && repeatedItemReference tail == some true then .inside
  else match match? articleHeading tail with
    | none =>
      if (match? articleSupplementCandidate tail).isSome then .failed .ambiguousSupplementHeading
      else .inside
    | some heading =>
      match tail.drop (markerEnd heading) with
      | [] => .article
      | c::_ => if isSpace c || c == '【' then .article else .failed .ambiguousInternalHeading

/-- The raw segments of a paragraph up to its end or to an error. -/
def rawSegments (repeatedItemReferences : Bool) (text : Text) :
    ℕ → List (ℕ × Match Group) → List (ℕ × ℕ) × Option ParseError
  | start, [] => ([(start,text.length)],none)
  | start, boundary::rest =>
    let stop := boundary.1+boundary.2.stop
    match boundaryKind repeatedItemReferences (text.drop stop) with
    | .inside => rawSegments repeatedItemReferences text start rest
    | .article =>
      let later := rawSegments repeatedItemReferences text stop rest
      ((start,boundary.1)::later.1,later.2)
    | .failed error => ([],some error)

structure Markers where
  titles : List ℕ
  prefixed : List PrefixedArticleSpan
  embedded : List EmbeddedArticleSpan
  spaced : List SpacedArticleSpan

def embeddedIn (spans : List EmbeddedArticleSpan) (index : ℕ) : List EmbeddedArticleSpan :=
  spans.filter fun span => span.paragraphIndex == index

def spacedIn (spans : List SpacedArticleSpan) (index : ℕ) : Option SpacedArticleSpan :=
  spans.reverse.find? fun span => span.paragraphIndex == index

def bodyBounds (repeatedItemReferences : Bool) (paragraph : ParsedParagraph) :
    List (ℕ × ℕ) × Option ParseError :=
  rawSegments repeatedItemReferences paragraph.text 0 (findIter lineBreak paragraph.text)

def splitSegment (markers : Markers) (index : ℕ) (paragraph : ParsedParagraph)
    (bounds : ℕ × ℕ) : List ArticleSegment :=
  splitNormalizedSegment paragraph.text bounds.1 bounds.2
    (if bounds.1 = 0 then prefixedMarker markers.prefixed index else none)
    (embeddedIn markers.embedded index)
    (if bounds.1 = 0 then spacedIn markers.spaced index else none)

def paragraphSegments (repeatedItemReferences : Bool) (markers : Markers) (index : ℕ)
    (paragraph : ParsedParagraph) : List ArticleSegment × Option ParseError :=
  if markers.titles.contains index then ([⟨strip paragraph.text,true,none,none⟩],none)
  else
    let bounds := bodyBounds repeatedItemReferences paragraph
    (bounds.1.flatMap (splitSegment markers index paragraph),bounds.2)

/-- `_article_segments`: the segments up to the end or to an error. -/
def articleSegments (repeatedItemReferences : Bool) (markers : Markers) :
    ℕ → List ParsedParagraph → List ArticleSegment × Option ParseError
  | _, [] => ([],none)
  | index, paragraph::rest =>
    let found := paragraphSegments repeatedItemReferences markers index paragraph
    match found.2 with
    | some error => (found.1,some error)
    | none =>
      let later := articleSegments repeatedItemReferences markers (index+1) rest
      (found.1++later.1,later.2)

structure ParseState where
  part : Option Text
  chapter : Option Text
  sect : Option Text
  headings : List ParsedHeading
  articles : List ParsedArticle
  currentNo : Option Text
  currentPath : List Text
  currentStart : ℕ
  currentPieces : List Text
  cursor : ℕ

def ParseState.start : ParseState := ⟨none,none,none,[],[],none,[],0,[],0⟩

def flush (s : ParseState) : ParseState :=
  match s.currentNo with
  | none => s
  | some no =>
    let text := s.currentPieces.flatten
    { s with
      articles := s.articles++
        [⟨no,s.currentPath,text,s.currentStart,s.currentStart+text.length,s.currentPieces⟩]
      currentNo := none
      currentPath := []
      currentStart := 0
      currentPieces := [] }

def structurePath (s : ParseState) : List Text :=
  [s.part,s.chapter,s.sect].filterMap fun value => value.filter (· ≠ [])

def openArticle (s : ParseState) (classification text : Text) : ParseState :=
  let s := flush s
  { s with
    currentNo := some (articleNumber classification)
    currentPath := structurePath s
    currentStart := s.cursor
    currentPieces := [text] }

def enterStructure (s : ParseState) (level : Level) (heading : Text) : ParseState :=
  match level with
  | .part => { s with part := some heading, chapter := none, sect := none }
  | .chapter => { s with chapter := some heading, sect := none }
  | .sect => { s with sect := some heading }
  | _ => s

def openHeading (s : ParseState) (level : Level) (heading : Text) : ParseState :=
  let s := enterStructure (flush s) level heading
  { s with headings := s.headings++[⟨level,heading⟩] }

def continueArticle (s : ParseState) (text : Text) : ParseState :=
  if s.currentNo.isSome then { s with currentPieces := s.currentPieces++[text] } else s

def advance (s : ParseState) (text : Text) : ParseState :=
  { s with cursor := s.cursor+text.length }

def classificationText (segment : ArticleSegment) : Text :=
  match segment.spacedMarker with
  | some span => span.normalizedMarker++segment.text.drop span.originalMarker.length
  | none => segment.text.drop (segment.classificationStart.getD 0)

def parseSegment (repeatedItemReferences : Bool) (s : ParseState) (segment : ArticleSegment) :
    Except ParseError ParseState :=
  let text := segment.text
  if text = [] then .ok s
  else if segment.isTitle then .ok (advance s text)
  else
    let classification := classificationText segment
    match classifyHeading classification repeatedItemReferences with
    | some (.article,_) => .ok (advance (openArticle s classification text) text)
    | some (level,heading) => .ok (advance (openHeading s level heading) text)
    | none =>
      if (match? articleSupplementCandidate text).isSome then
        .error .ambiguousSupplementHeading
      else .ok (advance (continueArticle s text) text)

def parseSegments (repeatedItemReferences : Bool) :
    List ArticleSegment → ParseState → Except ParseError ParseState
  | [], s => .ok s
  | segment::rest, s => do
    let s' ← parseSegment repeatedItemReferences s segment
    parseSegments repeatedItemReferences rest s'

def markersOf (profile : Option String) (document : ParsedDocument) : Markers :=
  if isExactText profile then
    let titles := (detectLeadingTitleSpans document).map LeadingTitleSpan.paragraphIndex
    let prefixed := detectPrefixedArticleSpans document titles
    ⟨titles,prefixed,detectEmbeddedArticleSpans document titles prefixed,
      detectSpacedArticleSpans document titles⟩
  else ⟨[],[],[],[]⟩

def documentSegments (profile : Option String) (document : ParsedDocument) :
    List ArticleSegment × Option ParseError :=
  articleSegments (repeatsItems profile) (markersOf profile document) 0 document.paragraphs

def parse (profile : Option String) (document : ParsedDocument) :
    Except ParseError ParsedInstrument := do
  let segments := documentSegments profile document
  let s ← parseSegments (repeatsItems profile) segments.1 .start
  match segments.2 with
  | some error => throw error
  | none =>
    let s := flush s
    let markers := markersOf profile document
    return ⟨s.headings,s.articles,if isExactText profile then detectLeadingTitleSpans document
      else [],markers.prefixed,markers.embedded,markers.spaced⟩

end LawyerAgent.LegalStructureParser
