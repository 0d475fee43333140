import LawyerAgent.ImageRegions
import LawyerAgent.PdfIds
import LawyerAgent.PythonText

/-!
# Blocks of a document

The blocks a document is read into and the anchors that tie ranges of their text
to a page. Both carry what their validators check.
-/

set_option autoImplicit false

namespace LawyerAgent.DocumentBlocks

inductive Kind where
  | text
  | heading
  | table
  | image
deriving DecidableEq

inductive Quality where
  | verified
  | needsReview
deriving DecidableEq

structure Point where
  x : ℚ
  y : ℚ
deriving DecidableEq

structure Quad where
  first : Point
  second : Point
  third : Point
  fourth : Point
deriving DecidableEq

structure Anchor where
  anchorId : List Char
  page : ℕ
  start : ℕ
  stop : ℕ
  quad : Quad
  paged : 1 ≤ page
  ordered : start < stop
deriving DecidableEq

structure TablePosition where
  tableId : List Char
  row : ℕ
  column : ℕ
deriving DecidableEq

structure DocumentBlock where
  blockId : List Char
  kind : Kind
  text : List Char
  anchors : List Anchor
  quality : Quality
  tablePosition : Option TablePosition
  short : text.length ≤ 32000
  few : anchors.length ≤ 2000
  contained : ∀ anchor ∈ anchors, anchor.stop ≤ text.length
deriving DecidableEq

def DocumentBlock.anchorIds (block : DocumentBlock) : List (List Char) :=
  block.anchors.map Anchor.anchorId

/-- A failed validation ends the parse. -/
def anchor (anchorId : List Char) (page start stop : ℕ) (quad : Quad) : Except String Anchor :=
  if h : 1 ≤ page ∧ start < stop then .ok ⟨anchorId,page,start,stop,quad,h.1,h.2⟩
  else .error "document_parse_failed"

def documentBlock (blockId : List Char) (kind : Kind) (text : List Char) (anchors : List Anchor)
    (quality : Quality) (tablePosition : Option TablePosition) : Except String DocumentBlock :=
  if h : text.length ≤ 32000 ∧ anchors.length ≤ 2000 ∧
      ∀ anchor ∈ anchors, anchor.stop ≤ text.length then
    .ok ⟨blockId,kind,text,anchors,quality,tablePosition,h.1,h.2.1,h.2.2⟩
  else .error "document_parse_failed"

theorem anchor_ok {anchorId : List Char} {page start stop : ℕ} {quad : Quad} {a : Anchor}
    (h : anchor anchorId page start stop quad = .ok a) :
    a.anchorId = anchorId ∧ a.page = page ∧ a.start = start ∧ a.stop = stop := by
  rw [anchor] at h
  split at h
  · cases h
    exact ⟨rfl,rfl,rfl,rfl⟩
  · cases h

theorem documentBlock_ok {blockId text : List Char} {kind : Kind} {anchors : List Anchor}
    {quality : Quality} {tablePosition : Option TablePosition} {b : DocumentBlock}
    (h : documentBlock blockId kind text anchors quality tablePosition = .ok b) :
    b.blockId = blockId ∧ b.text = text ∧ b.anchors = anchors ∧ b.quality = quality := by
  rw [documentBlock] at h
  split at h
  · cases h
    exact ⟨rfl,rfl,rfl,rfl⟩
  · cases h

end LawyerAgent.DocumentBlocks

namespace LawyerAgent.PdfBlocks
open Outcomes DocumentBlocks ImageRegions PdfIds

structure CharObject where
  /-- Nothing for a text that is no string. -/
  text : Option (List Char)
  x0 : ℚ
  x1 : ℚ
  top : ℚ
  bottom : ℚ

structure Page where
  rotation : ℤ
  cropbox : List Coordinate
  mediabox : List Coordinate
  width : Coordinate
  height : Coordinate
  chars : List CharObject
  /-- The cells of the tables by rows; nothing when the detection failed. -/
  tables : Option (List (List (List (Option Box))))
  images : List ImageObject

/-- A row that is recognised in an image, with the four corners of its box. -/
structure OcrRow where
  first : Coordinate × Coordinate
  second : Coordinate × Coordinate
  third : Coordinate × Coordinate
  fourth : Coordinate × Coordinate
  text : List Char
  /-- Whether the confidence is at least `0.95`. -/
  confident : Bool

/-- The rows of a page or of a region of it; nothing when it raised. -/
def Engine := ℕ → Option Box → Option (List OcrRow)

/-- `round` of a float. -/
def roundHalfEven (q : ℚ) : ℤ :=
  if q-q.floor < 1/2 then q.floor
  else if 1/2 < q-q.floor then q.floor+1
  else if q.floor % 2 = 0 then q.floor else q.floor+1

variable (rounding : Rounding)

/-- `round` to one digit. -/
def tenth (q : ℚ) : ℚ := rounding.round (roundHalfEven (10*q)/10)

def center (a b : ℚ) : ℚ := rounding.round (rounding.round (a+b)/2)

def distance (a b : ℚ) : ℚ := |rounding.round (a-b)|

def finite : Coordinate → Option ℚ
  | .finite value => some value
  | .notFinite => none

def validatePageGeometry (page : Page) : Except String (ℚ × ℚ) :=
  match page.cropbox.mapM finite, page.mediabox.mapM finite, page.width, page.height with
  | some [c0,c1,c2,c3], some [m0,m1,m2,m3], .finite width, .finite height =>
    if page.rotation % 360 ≠ 0 ∨
        tolerance < distance rounding c0 m0 ∨ tolerance < distance rounding c1 m1 ∨
        tolerance < distance rounding c2 m2 ∨ tolerance < distance rounding c3 m3 ∨
        width ≤ 0 ∨ height ≤ 0 ∨ 4000 < width ∨ 4000 < height ∨
        20000000 < rounding.round (rounding.round (rounding.round (width*2)*height)*2) ∨
        tolerance < |m0| ∨ tolerance < |m1| ∨ tolerance < |c0| ∨ tolerance < |c1| ∨
        tolerance < distance rounding (rounding.round (m2-m0)) width ∨
        tolerance < distance rounding (rounding.round (m3-m1)) height then
      .error "page_geometry_unsupported"
    else .ok (width,height)
  | _, _, _, _ => .error "page_geometry_unsupported"

def insideHalfOpen (x y : ℚ) (box : Box) : Bool :=
  box.x0 ≤ x && x < box.x1 && box.top ≤ y && y < box.bottom

def tableBoxes (table : List (List (Option Box))) : Except String (List (List Box)) :=
  match table.mapM (List.mapM id) with
  | none => .error "table_geometry_ambiguous"
  | some rows =>
    if rows = [] ∨ ¬rows.flatten.Pairwise (fun left right => ¬overlap rounding left right) then
      .error "table_geometry_ambiguous"
    else .ok rows

def tables (page : Page) : Except String (List (List (List Box))) :=
  match page.tables with
  | none => .error "table_detection_failed"
  | some found => found.mapM (tableBoxes rounding)

structure Glyph where
  text : List Char
  x0 : ℚ
  x1 : ℚ
  top : ℚ
  bottom : ℚ

def readGlyph (char : CharObject) : Option Glyph :=
  char.text.map fun text => ⟨text,char.x0,char.x1,char.top,char.bottom⟩

/-- The table, row and column of a cell. -/
abbrev CellKey := ℕ × ℕ × ℕ

def cells (found : List (List (List Box))) : List (CellKey × Box) :=
  found.zipIdx.flatMap fun table => table.1.zipIdx.flatMap fun row => row.1.zipIdx.map fun cell =>
    ((table.2,row.2,cell.2),cell.1)

def assign (found : List (List (List Box))) (glyph : Glyph) :
    Except String (Option CellKey × Glyph) :=
  match (cells found).filter fun cell => insideHalfOpen (center rounding glyph.x0 glyph.x1)
      (center rounding glyph.top glyph.bottom) cell.2 with
  | [] => .ok (none,glyph)
  | [cell] => .ok (some cell.1,glyph)
  | _ => .error "table_geometry_ambiguous"

def assigned (placed : List (Option CellKey × Glyph)) (key : Option CellKey) : List Glyph :=
  (placed.filter fun p => p.1 = key).map Prod.snd

def charKey (glyph : Glyph) : ℚ ×ₗ ℚ := toLex (tenth rounding glyph.top,glyph.x0)

def sortChars (glyphs : List Glyph) : List Glyph :=
  glyphs.insertionSort fun a b => charKey rounding a ≤ charKey rounding b

/-- A character goes on with the last line when it is near the first of it. -/
def addToLines (lines : List (List Glyph)) (glyph : Glyph) : List (List Glyph) :=
  match lines.getLast? with
  | some (first::line) =>
    if 2 < distance rounding glyph.top first.top then lines++[[glyph]]
    else lines.dropLast++[first::line++[glyph]]
  | _ => lines++[[glyph]]

def lines (glyphs : List Glyph) : List (List Glyph) :=
  (sortChars rounding glyphs).foldl (addToLines rounding) []

def rectangle (box : Box) : Quad :=
  ⟨⟨box.x0,box.top⟩,⟨box.x1,box.top⟩,⟨box.x1,box.bottom⟩,⟨box.x0,box.bottom⟩⟩

def lineBox (first : Glyph) (line : List Glyph) : Box :=
  line.foldl (fun box glyph => box.join ⟨glyph.x0,glyph.top,glyph.x1,glyph.bottom⟩)
    ⟨first.x0,first.top,first.x1,first.bottom⟩

structure LineState where
  texts : List (List Char)
  anchors : List Anchor
  offset : ℕ

def addLine (pageNumber : ℕ) (blockId : List Char) (state : LineState) (line : List Glyph × ℕ) :
    Except String LineState :=
  match line.1.insertionSort fun a b => a.x0 ≤ b.x0 with
  | [] => .ok state
  | first::rest =>
    let text := (first::rest).flatMap Glyph.text
    if text = [] then .ok state
    else do
      let start := if state.texts = [] then state.offset else state.offset+1
      let found ← anchor (blockId++anchorPart (some line.2)) pageNumber start (start+text.length)
        (rectangle (lineBox first rest))
      return ⟨state.texts++[text],state.anchors++[found],start+text.length⟩

def textAndAnchors (glyphs : List Glyph) (pageNumber : ℕ) (blockId : List Char) :
    Except String (List Char × List Anchor) := do
  let state ← ((lines rounding glyphs).zipIdx 1).foldlM (addLine pageNumber blockId) ⟨[],[],0⟩
  return (['\n'].intercalate state.texts,state.anchors)

def cellBlock (placed : List (Option CellKey × Glyph)) (pageNumber : ℕ) (key : CellKey) :
    Except String DocumentBlock := do
  let blockId := cellId pageNumber (key.1+1) key.2.1 key.2.2
  let found ← textAndAnchors rounding (assigned placed (some key)) pageNumber blockId
  documentBlock blockId .table found.1 found.2 .verified
    (some ⟨tableId pageNumber (key.1+1),key.2.1,key.2.2⟩)

def lineBlock (pageNumber : ℕ) (line : List Glyph × ℕ) : Except String (Option DocumentBlock) := do
  let blockId := lineId pageNumber line.2
  let found ← textAndAnchors rounding line.1 pageNumber blockId
  if found.1 = [] then return none
  else some <$> documentBlock blockId .text found.1 found.2 .verified none

def bodyLineBlocks (glyphs : List Glyph) (pageNumber : ℕ) : Except String (List DocumentBlock) := do
  let found ← ((lines rounding glyphs).zipIdx 1).mapM (lineBlock rounding pageNumber)
  return found.reduceOption

def nativeLineBlocks (page : Page) (pageNumber : ℕ) : Except String (List DocumentBlock) := do
  let found ← tables rounding page
  let placed ← (page.chars.filterMap readGlyph).mapM (assign rounding found)
  let tableBlocks ← (cells found).mapM fun cell => cellBlock rounding placed pageNumber cell.1
  let body ← bodyLineBlocks rounding (assigned placed none) pageNumber
  return tableBlocks++body

def unrecognizedText : List Char := "[image content requires review]".toList

def corner (region : Box) : ℤ × ℤ := (roundHalfEven region.x0,roundHalfEven region.top)

def unrecognizedImageBlock (pageNumber : ℕ) (size : ℚ × ℚ) (region : Option Box) :
    Except String DocumentBlock := do
  let blockId := imageId pageNumber (region.map corner)
  let found ← anchor (blockId++anchorPart none) pageNumber 0 unrecognizedText.length
    (rectangle (region.getD ⟨0,0,size.1,size.2⟩))
  documentBlock blockId .image unrecognizedText [found] .needsReview none

/-- A corner of a row on the page; nothing when it lies outside of it. -/
def pagePoint (size : ℚ × ℚ) (region : Option Box) (point : Coordinate × Coordinate) :
    Option Point :=
  match point with
  | (.finite x,.finite y) =>
    let offset := region.elim (0,0) fun box => (box.x0,box.top)
    let px := rounding.round (rounding.round (x/2)+offset.1)
    let py := rounding.round (rounding.round (y/2)+offset.2)
    if 0 ≤ px ∧ px ≤ size.1 ∧ 0 ≤ py ∧ py ≤ size.2 then some ⟨px,py⟩ else none
  | _ => none

def pageQuad (size : ℚ × ℚ) (region : Option Box) (row : OcrRow) : Option Quad := do
  let first ← pagePoint rounding size region row.first
  let second ← pagePoint rounding size region row.second
  let third ← pagePoint rounding size region row.third
  let fourth ← pagePoint rounding size region row.fourth
  return ⟨first,second,third,fourth⟩

def ocrBlock (pageNumber : ℕ) (size : ℚ × ℚ) (region : Option (Box × ℕ)) (row : OcrRow × ℕ) :
    Except String (Option DocumentBlock) :=
  if row.1.text = [] then .ok none
  else match pageQuad rounding size (region.map Prod.fst) row.1 with
  | none => .ok none
  | some quad => do
    let blockId := ocrId pageNumber (region.map Prod.snd) row.2
    let found ← anchor (blockId++anchorPart none) pageNumber 0 row.1.text.length quad
    some <$> documentBlock blockId .image row.1.text [found]
      (if row.1.confident then .verified else .needsReview) none

/-- The blocks of a page or a region, and whether all of it is recognised. -/
def ocrBlocks (engine : Option Engine) (pageNumber : ℕ) (size : ℚ × ℚ)
    (region : Option (Box × ℕ)) : Except String (List DocumentBlock × Bool) :=
  match engine.bind fun run => run pageNumber (region.map Prod.fst) with
  | none => (fun block => ([block],false)) <$>
      unrecognizedImageBlock pageNumber size (region.map Prod.fst)
  | some [] => (fun block => ([block],false)) <$>
      unrecognizedImageBlock pageNumber size (region.map Prod.fst)
  | some rows => do
    let found ← (rows.zipIdx 1).mapM (ocrBlock rounding pageNumber size region)
    let complete := found.all fun block => block.any fun b => b.quality = .verified
    if found.reduceOption = [] then
      let block ← unrecognizedImageBlock pageNumber size (region.map Prod.fst)
      return ([block],complete)
    else return (found.reduceOption,complete)

def anchorBox (anchor : Anchor) : Box :=
  Box.join ⟨anchor.quad.first.x,anchor.quad.first.y,anchor.quad.first.x,anchor.quad.first.y⟩
    (Box.join ⟨anchor.quad.second.x,anchor.quad.second.y,anchor.quad.second.x,anchor.quad.second.y⟩
    (Box.join ⟨anchor.quad.third.x,anchor.quad.third.y,anchor.quad.third.x,anchor.quad.third.y⟩
      ⟨anchor.quad.fourth.x,anchor.quad.fourth.y,anchor.quad.fourth.x,anchor.quad.fourth.y⟩))

def blockBox (block : DocumentBlock) : Option Box :=
  match block.anchors.map anchorBox with
  | [] => none
  | box::boxes => some (boxes.foldl Box.join box)

def boxesClose (left right : Box) : Bool :=
  distance rounding left.x0 right.x0 ≤ 1 && distance rounding left.top right.top ≤ 1 &&
    distance rounding left.x1 right.x1 ≤ 1 && distance rounding left.bottom right.bottom ≤ 1

def bothBoxes (close : Box → Box → Bool) (block native : DocumentBlock) : Bool :=
  match blockBox block, blockBox native with
  | some left, some right => close left right
  | _, _ => false

def nativeInRegion (native : List DocumentBlock) (region : Box) : List DocumentBlock :=
  native.filter fun block => block.anchors.any fun anchor =>
    overlap rounding (anchorBox anchor) region

def exactDuplicate (native : List DocumentBlock) (block : DocumentBlock) : Bool :=
  native.any fun other => PythonText.strip block.text = PythonText.strip other.text &&
    bothBoxes (boxesClose rounding) block other

def overlapsNative (native : List DocumentBlock) (block : DocumentBlock) : Bool :=
  native.any fun other => bothBoxes (fun left right => overlap rounding left right) block other

def mergeBlock (native : List DocumentBlock) (block : DocumentBlock) : Option DocumentBlock :=
  if exactDuplicate rounding native block then none
  else if overlapsNative rounding native block then some {block with quality := .needsReview}
  else some block

def mergeMixedBlocks (native ocr : List DocumentBlock) (region : Box) : List DocumentBlock × Bool :=
  (ocr.filterMap (mergeBlock rounding (nativeInRegion rounding native region)),
    ocr.all fun block => exactDuplicate rounding (nativeInRegion rounding native region) block ||
      !overlapsNative rounding (nativeInRegion rounding native region) block)

def regionBlocks (engine : Option Engine) (pageNumber : ℕ) (size : ℚ × ℚ)
    (native : List DocumentBlock) (region : Box × ℕ) : Except String (List DocumentBlock × Bool) :=
      do
  let found ← ocrBlocks rounding engine pageNumber size (some region)
  let merged := mergeMixedBlocks rounding native found.1 region.1
  return (merged.1,found.2 && merged.2)

structure ParsedPdf where
  blocks : List DocumentBlock
  pageDimensions : List (ℚ × ℚ)
  recognitionComplete : Bool

def pageBlocks (engine : Option Engine) (page : Page × ℕ) : Except String ParsedPdf := do
  let size ← validatePageGeometry rounding page.1
  let native ← nativeLineBlocks rounding page.1 page.2
  if native = [] then
    let found ← ocrBlocks rounding engine page.2 size none
    return ⟨found.1,[size],found.2⟩
  else
    let regions ← imageRegions rounding page.1.images size.1 size.2
    let merged ← (regions.zipIdx 1).mapM (regionBlocks rounding engine page.2 size native)
    return ⟨native++(merged.map Prod.fst).flatten,[size],merged.all Prod.snd⟩

def addPage (engine : Option Engine) (parsed : ParsedPdf) (page : Page × ℕ) :
    Except String ParsedPdf := do
  let found ← pageBlocks rounding engine page
  let blocks := parsed.blocks++found.blocks
  require (blocks.length ≤ 2000) "document_block_limit"
  return ⟨blocks,parsed.pageDimensions++found.pageDimensions,
    parsed.recognitionComplete && found.recognitionComplete⟩

/-- `serialized` is the size of a block in the JSON of a document. -/
def parsePdf (engine : Option Engine) (serialized : DocumentBlock →
    ℕ) (document : Option (List Page)) :
    Except String ParsedPdf :=
  match document with
  | none => .error "document_parse_failed"
  | some pages => do
    require (pages ≠ [] ∧ pages.length ≤ 30) "document_page_limit"
    let parsed ← (pages.zipIdx 1).foldlM (addPage rounding engine) ⟨[],[],true⟩
    require ((parsed.blocks.map serialized).sum ≤ 2097152) "document_serialized_limit"
    return parsed

end LawyerAgent.PdfBlocks
