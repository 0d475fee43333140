import LawyerAgent.BinaryWordFile
import LawyerAgent.CanonicalJson

/-!
# Text of legacy Word files

The main text and the header text are put together from pieces of the document
stream. Fields in the text are replaced by their results.
-/

set_option autoImplicit false

namespace LawyerAgent.BinaryWordText
open PythonText Common
open LegalArticleHeading (Text Expression spaces)
open Regex (fullmatch? slice)

structure BinaryWordField where
  instruction : Text
  result : Text
  startCp : ℕ
  endCp : ℕ

structure BinaryWordStory where
  rawText : Text
  visibleText : Text
  fields : List BinaryWordField

structure BinaryWordTextDocument where
  main : BinaryWordStory
  header : BinaryWordStory
  qualityFlags : List String
  sourceSha256 : String

def tableSlice (table : Bytes) (pair : ℕ × ℕ) : Attempt Bytes := do
  check (pair.2 == 0 || pair.1+pair.2 ≤ table.length) "table_range_out_of_bounds"
  return if pair.2 = 0 then [] else (table.drop pair.1).take pair.2

def fieldBegin : Char := '\x13'

def fieldSeparator : Char := '\x14'

def fieldEnd : Char := '\x15'

def isFieldControl (c : Char) : Bool := c == fieldBegin || c == fieldSeparator || c == fieldEnd

def isAllowedControl (c : Char) : Bool :=
  ['\t','\x0b','\x0c','\r'].contains c || isFieldControl c

def unitCount (c : Char) : ℕ := if c.toNat > 0xFFFF then 2 else 1

def cpPositions (text : Text) : List ℕ := text.scanl (fun cp c => cp+unitCount c) 0

def cpAt (cps : List ℕ) (index : ℕ) : Attempt ℕ :=
  match cps[index]? with
  | some cp => .ok cp
  | none => .error .indexError

def fieldMarkers (raw : Text) : List (ℕ × ℕ) :=
  (((cpPositions raw).zip raw).filter fun item => isFieldControl item.2).map fun item =>
    (item.1,item.2.toNat)

/-- The entries of the field table repeat the markers of the text. -/
def checkMarkers (fieldTable : Bytes) (count : ℕ) : List ((ℕ × ℕ) × ℕ) → Attempt Unit
  | [] => .ok ()
  | (marker,index)::rest => do
    check (← is (u32 fieldTable (index*4)) marker.1) "field_cp_mismatch"
    let kind ← byteAt fieldTable (4*(count+1)+index*2)
    check (kind &&& 0x1F == marker.2) "field_marker_mismatch"
    checkMarkers fieldTable count rest

def checkFieldTable (raw : Text) (fieldTable : Bytes) (totalCp : ℕ) : Attempt Unit :=
  let markers := fieldMarkers raw
  if markers = [] then check (fieldTable == []) "field_table_without_controls"
  else do
    check (fieldTable.length == 6*markers.length+4) "field_table_size_mismatch"
    check (← is (u32 fieldTable (markers.length*4)) totalCp) "field_terminal_cp_mismatch"
    checkMarkers fieldTable markers.length markers.zipIdx

/-- `\s*(?:PAGE|HYPERLINK\s+"[^"\r\n]+")\s*` -/
def fieldInstruction : Expression :=
  .seqs [spaces,
    .alt (.text ['P','A','G','E'])
      (.seqs [.text ['H','Y','P','E','R','L','I','N','K'],.plus (.set isSpace),.char '"',
        .plus (.set fun c => !(['"','\r','\n'].contains c)),.char '"']),
    spaces]

/-- `raw.find(c, start)`; a character that is not found is before every place. -/
def find (raw : Text) (c : Char) (start : ℕ) : Option ℕ :=
  ((raw.drop start).findIdx? (· == c)).map (start+·)

def fieldBounds (raw : Text) (cursor : ℕ) : Attempt (ℕ × ℕ) :=
  match find raw fieldSeparator (cursor+1), find raw fieldEnd (cursor+1) with
  | some separator, some stop => do
    check (cursor < separator && separator < stop) "unbalanced_field"
    return (separator,stop)
  | _, _ => .error (.binaryWord "unbalanced_field")

def readField (raw : Text) (cps : List ℕ) (cursor : ℕ) : Attempt (BinaryWordField × ℕ) := do
  let bounds ← fieldBounds raw cursor
  let instruction := slice raw (cursor+1) bounds.1
  let result := slice raw (bounds.1+1) bounds.2
  check (!(instruction++result).any isFieldControl) "nested_field_unsupported"
  check (fullmatch? fieldInstruction instruction).isSome "unsupported_field_instruction"
  check (!instruction.any fun c => c.toNat < 32) "unsupported_field_control"
  let startCp ← cpAt cps cursor
  let endCp ← cpAt cps (bounds.2+1)
  return (⟨instruction,result,startCp,endCp⟩,bounds.2+1)

/-- The loop of `_story` from a place on, cut off when the fuel runs out. -/
def storyFrom (raw : Text) (cps : List ℕ) :
    ℕ → ℕ → Attempt (Text × List BinaryWordField)
  | fuel, cursor =>
    match raw[cursor]? with
    | none => .ok ([],[])
    | some c =>
      match fuel with
      | 0 => .error .unfinished
      | fuel+1 =>
        if c ≠ fieldBegin then do
          check (!isFieldControl c) "unbalanced_field"
          let later ← storyFrom raw cps fuel (cursor+1)
          return (c::later.1,later.2)
        else do
          let found ← readField raw cps cursor
          let later ← storyFrom raw cps fuel found.2
          return (found.1.result++later.1,found.1::later.2)

def story (raw : Text) (fieldTable : Bytes) (totalCp : ℕ) : Attempt BinaryWordStory := do
  check (raw == [] || raw.getLast? == some '\r') "unterminated_story"
  check (raw.all fun c => 32 ≤ c.toNat || isAllowedControl c) "unsupported_text_control"
  check (!raw.any fun c => c.toNat == 0xFFFE || c.toNat == 0xFFFF) "invalid_xml_character"
  checkFieldTable raw fieldTable totalCp
  let found ← storyFrom raw (cpPositions raw) raw.length 0
  return ⟨raw,found.1,found.2⟩

structure Fib where
  flags : ℕ
  pairs : List (ℕ × ℕ)
  fibEnd : ℕ
  cbMac : ℕ
  mainCp : ℕ
  headerCp : ℕ

def expectedCp (fib : Fib) : ℕ := fib.mainCp+fib.headerCp+(if fib.headerCp ≠ 0 then 1 else 0)

def pairAt (fib : Fib) (index : ℕ) : Attempt (ℕ × ℕ) :=
  match fib.pairs[index]? with
  | some pair => .ok pair
  | none => .error .indexError

def readPair (word : Bytes) (index : ℕ) : Attempt (ℕ × ℕ) := do
  return (← u32 word (154+index*8),← u32 word (158+index*8))

def checkFlags (word : Bytes) : Attempt ℕ := do
  check (← is (u16 word 0) 0xA5EC) "invalid_fib_signature"
  let flags ← u16 word 10
  check (← both (.ok (flags &&& 0x0100 == 0)) (is (u32 word 14) 0)) "encrypted_doc_unsupported"
  check (flags &&& 3 == 0 && flags &&& 0x1000 != 0) "unsupported_fib_flags"
  check (← both (is (u16 word 32) 14) (is (u16 word 62) 22)) "unsupported_fib_layout"
  return flags

def readPairs (word : Bytes) : Attempt (List (ℕ × ℕ) × ℕ) := do
  let pairCount ← u16 word 152
  check (pairCount == 93 || pairCount == 164) "unsupported_fib_version"
  let pairs ← (List.range pairCount).mapM (readPair word)
  let newPos := 154+pairCount*8
  let newCount ← u16 word newPos
  let version ← if newCount ≠ 0 then u16 word (newPos+2) else u16 word 2
  check ([(0xC1,93,0),(0x10C,164,2)].contains (version,pairCount,newCount))
    "unsupported_fib_version"
  return (pairs,newPos+2+newCount*2)

def countAt (counts : List ℕ) (index : ℕ) : Attempt ℕ := cpAt counts index

def readFib (word : Bytes) : Attempt Fib := do
  let flags ← checkFlags word
  let found ← readPairs word
  let cbMac ← u32 word 64
  check (found.2 ≤ cbMac && cbMac ≤ word.length) "invalid_cbMac"
  let counts ← u32s word ((List.range' 3 8).map fun i => 64+i*4)
  check (counts.zipIdx.all fun count => count.1 == 0 || count.2 == 0 || count.2 == 2)
    "unsupported_text_story"
  let mainCp ← countAt counts 0
  let headerCp ← countAt counts 2
  let fib : Fib := ⟨flags,found.1,found.2,cbMac,mainCp,headerCp⟩
  check (0 < mainCp && mainCp ≤ expectedCp fib && expectedCp fib ≤ maxSourceBytes/2)
    "invalid_story_counts"
  return fib

/-- The piece table of the document and the number of its pieces. -/
def readPieceTable (table : Bytes) (fib : Fib) : Attempt (Bytes × ℕ) := do
  let clx ← tableSlice table (← pairAt fib 33)
  check (5 ≤ clx.length && clx.head? == some 2) "unsupported_clx_prc"
  let plcSize ← u32 clx 1
  check (plcSize+5 == clx.length && 16 ≤ plcSize && (plcSize-4) % 12 == 0)
    "invalid_piece_table_size"
  let count := (plcSize-4)/12
  check (count ≤ 4096) "piece_count_limit"
  return (clx.drop 5,count)

def increasing (cps : List ℕ) : Bool := (cps.zip cps.tail).all fun pair => pair.1 < pair.2

def readPieceCps (plc : Bytes) (count expected : ℕ) : Attempt (List ℕ) := do
  let cps ← u32s plc ((List.range (count+1)).map (·*4))
  check (cps.head? == some 0 && cps.getLast? == some expected && increasing cps)
    "invalid_piece_cp_sequence"
  return cps

/-- One piece; it lies behind the header of the stream and off the pieces before. -/
def readPiece (plc : Bytes) (count : ℕ) (cps : List ℕ) (fib : Fib) (intervals : List (ℕ × ℕ))
    (index : ℕ) : Attempt (ℕ × ℕ) := do
  let pos := 4*(count+1)+index*8
  check (← both (is (u16 plc pos) 0) (is (u16 plc (pos+6)) 0)) "unsupported_piece_properties"
  let fc ← u32 plc (pos+2)
  check (fc &&& 0x40000000 == 0) "compressed_piece_unsupported"
  check (fc &&& 0x80000000 == 0 && fc % 2 == 0) "invalid_piece_offset"
  let nextCp ← cpAt cps (index+1)
  let cp ← cpAt cps index
  let stop := fc+2*(nextCp-cp)
  check (fib.fibEnd ≤ fc && fc < stop && stop ≤ fib.cbMac) "piece_out_of_bounds"
  check (intervals.all fun other => stop ≤ other.1 || other.2 ≤ fc) "overlapping_text_pieces"
  return (fc,stop)

def readPieces (plc : Bytes) (count : ℕ) (cps : List ℕ) (fib : Fib) :
    List ℕ → List (ℕ × ℕ) → Attempt (List (ℕ × ℕ))
  | [], intervals => .ok intervals
  | index::rest, intervals => do
    let piece ← readPiece plc count cps fib intervals index
    readPieces plc count cps fib rest (intervals++[piece])

def textPieces (table : Bytes) (fib : Fib) : Attempt (List (ℕ × ℕ)) := do
  let found ← readPieceTable table fib
  let cps ← readPieceCps found.1 found.2 (expectedCp fib)
  readPieces found.1 found.2 cps fib (List.range found.2) []

def pieceBytes (word : Bytes) (pieces : List (ℕ × ℕ)) : Bytes :=
  pieces.flatMap fun piece => slice word piece.1 piece.2

def nondecreasing (values : List ℕ) : Bool := (values.zip values.tail).all fun pair => pair.1 ≤
  pair.2

def checkHeaderPositions (hdd : Bytes) (headerCp : ℕ) : Attempt Unit :=
  if headerCp ≠ 0 then do
    check (8 ≤ hdd.length && hdd.length % 4 == 0) "invalid_header_positions"
    let boundaries ← u32s hdd ((List.range (hdd.length/4)).map (·*4))
    check (boundaries.head? == some 0 && nondecreasing boundaries &&
      boundaries.getLast?.all fun last => last ≤ headerCp+2) "invalid_header_positions"
  else check (hdd == []) "unexpected_header_positions"

def qualityFlags (hasFields : Bool) : List String :=
  ["legacy_binary_static_text_recovery","original_layout_and_visibility_not_preserved",
    "images_objects_and_automatic_numbering_not_recovered","header_sections_not_preserved"]++
  if hasFields then ["field_results_static_not_recalculated","field_instructions_not_executed"]
  else []

def streamOf (file : CompoundFile) (name : String) : Attempt Bytes :=
  match file.storage.streams.lookup name.toList with
  | some data => .ok data
  | none => .error .keyError

/-- `_read` -/
def readDocument (sha256 : Bytes → Digest) (payload : Bytes) : Attempt BinaryWordTextDocument := do
  let file ← compoundFile payload
  let word ← streamOf file "WordDocument"
  let fib ← readFib word
  let table ← streamOf file (if fib.flags &&& 0x200 != 0 then "1Table" else "0Table")
  let pieces ← textPieces table fib
  let textBytes := pieceBytes word pieces
  check (fib.headerCp == 0 || textBytes.drop (textBytes.length-2) == [13,0])
    "invalid_story_terminator"
  let mainRaw ← decodeUtf16 (textBytes.take (fib.mainCp*2))
  let headerRaw ← decodeUtf16 (slice textBytes (fib.mainCp*2) ((fib.mainCp+fib.headerCp)*2))
  let hdd ← tableSlice table (← pairAt fib 11)
  checkHeaderPositions hdd fib.headerCp
  let main ← story mainRaw (← tableSlice table (← pairAt fib 16)) (expectedCp fib)
  let header ← story headerRaw (← tableSlice table (← pairAt fib 17)) (expectedCp fib)
  check (strip main.visibleText != []) "no_readable_text"
  return ⟨main,header,qualityFlags (main.fields.length+header.fields.length != 0),
    CanonicalJson.hex (sha256 payload)⟩

/-- `read_binary_word_text`: the errors of indexing and decoding become the
reader's own error. -/
def readBinaryWordText (sha256 : Bytes → Digest) (payload : Bytes) :
    Attempt BinaryWordTextDocument :=
  match readDocument sha256 payload with
  | .error .structError | .error .unicodeError | .error .indexError | .error .keyError =>
    .error (.binaryWord "malformed_binary_word")
  | result => result

end LawyerAgent.BinaryWordText
