import LawyerAgent.PythonText
import LawyerAgent.Regex.Matches
import Mathlib.Algebra.GroupWithZero.Nat

/-!
# Article headings and article numbers

The marker `第…条` that opens an article, its supplements `条之…`, and the
reading of its number in Arabic or Chinese numerals.
-/

set_option autoImplicit false

namespace LawyerAgent.LegalArticleHeading
open PythonText Regex

abbrev Text := List Char

structure ParsedParagraph where
  text : Text
  ordinal : ℕ

structure ParsedDocument where
  paragraphs : List ParsedParagraph

inductive Group
  | marker | supplement | separator | article | opening | closing
  deriving DecidableEq

abbrev Expression := Pattern Char Group

def isAsciiDigit (c : Char) : Bool := '0' ≤ c && c ≤ '9'

def isFullwidthDigit (c : Char) : Bool := '０' ≤ c && c ≤ '９'

def chineseNumerals : Text := ['一','二','三','四','五','六','七','八','九','十','百','千']

/-- `[一二三四五六七八九十百千0-9０-９]` -/
def isStructureNumeral (c : Char) : Bool :=
  chineseNumerals.contains c || isAsciiDigit c || isFullwidthDigit c

/-- `[一二三四五六七八九十百千零〇0-9０-９]` -/
def isNumeral (c : Char) : Bool := isStructureNumeral c || c == '零' || c == '〇'

def isVertical (c : Char) : Bool :=
  ['\r','\n','\x0b','\x0c','\u2028','\u2029'].contains c

/-- `[^\S\r\n\v\f\u2028\u2029]` -/
def isHorizontal (c : Char) : Bool := isSpace c && !isVertical c

/-- `[^\S\r\n\v\f\x1c-\x1f\x85\u2028\u2029]` -/
def isPlainHorizontal (c : Char) : Bool :=
  isHorizontal c && !(28 ≤ c.toNat && c.toNat ≤ 31) && c.toNat != 0x85

/-- `[\r\n\v\u2028\u2029]` -/
def isLineBreak (c : Char) : Bool := ['\r','\n','\x0b','\u2028','\u2029'].contains c

def number : Expression := .plus (.set isNumeral)

def spaces : Expression := .star (.set isSpace)

def horizontalSpace : Expression := .star (.set isHorizontal)

def articleSupplementCandidate : Expression :=
  .seqs [spaces,.char '第',number,horizontalSpace,.char '条',.char '之']

def supplementEnd : Expression :=
  .ahead (.alts [.set isSpace,.char '【',.atEnd (· == '\n')])

def articleMarker : Expression :=
  .seqs [.char '第',number,horizontalSpace,.char '条',
    .alt (.seq (.group .supplement (.seq (.char '之') number)) supplementEnd)
      (.notAhead (.char '之'))]

def articleHeading : Expression := .seqs [spaces,.group .marker articleMarker,spaces]

def structuralBarrier : Expression :=
  .seq spaces (.alt (.text ['序','言'])
    (.seqs [.char '第',.plus (.set isStructureNumeral),
      .set fun c => ['编','章','节'].contains c]))

def lineBreak : Expression := .plus (.set isLineBreak)

def isSupplement (heading : Match Group) : Bool := (heading.group .supplement).isSome

def toArabic (c : Char) : Char :=
  if isFullwidthDigit c then Char.ofNat (c.toNat- '０'.toNat+ '0'.toNat)
  else if c = '〇' then '零' else c

def chineseDigits : Text := ['零','一','二','三','四','五','六','七','八','九']

def unitOf (c : Char) : Option ℕ :=
  if c = '十' then some 10 else if c = '百' then some 100 else if c = '千' then some 1000
  else none

/-- Reads digits and units; the second number is the digit before a unit. -/
def readNumeral : Text → ℕ → ℕ → Option ℕ
  | [], total, digit => some (total+digit)
  | c::rest, total, digit =>
    if chineseDigits.contains c then readNumeral rest total (chineseDigits.idxOf c)
    else match unitOf c with
      | some unit => readNumeral rest (total+(if digit ≠ 0 then digit else 1)*unit) 0
      | none => none

structure Canonical where
  text : Text
  remaining : ℕ
  zeroNeeded : Bool

def canonicalStep (s : Canonical) (unit : ℕ × Text) : Canonical :=
  let digit := s.remaining/unit.1
  let remaining := s.remaining%unit.1
  if digit ≠ 0 then
    let zeroed := if s.zeroNeeded then s.text++['零'] else s.text
    let digits :=
      if unit.1 = 10 ∧ digit = 1 ∧ zeroed = [] then zeroed
      else zeroed++(chineseDigits[digit]?).toList
    ⟨digits++unit.2,remaining,false⟩
  else if s.text ≠ [] ∧ remaining ≠ 0 then ⟨s.text,remaining,true⟩
  else ⟨s.text,remaining,s.zeroNeeded⟩

def canonical (total : ℕ) : Text :=
  ([(1000,['千']),(100,['百']),(10,['十']),(1,[])].foldl canonicalStep ⟨[],total,false⟩).text

def maxStrDigits : ℕ := 4300

def asciiValue (text : Text) : ℕ := text.foldl (fun n c => n*10+(c.toNat- '0'.toNat)) 0

def cnNumber (value : Text) : Option ℕ :=
  let normalized := value.map toArabic
  if normalized ≠ [] ∧ normalized.all isAsciiDigit then
    -- `int` refuses a text with more digits than this.
    if normalized.length > maxStrDigits then none
    else if asciiValue normalized > 0 then some (asciiValue normalized) else none
  else
    match readNumeral normalized 0 0 with
    | none => none
    | some total =>
      if ¬(1 ≤ total ∧ total ≤ 9999) then none
      else if canonical total = normalized ∨
        (10 ≤ total ∧ total ≤ 19 ∧ '一'::canonical total = normalized) then some total
      else none

def articleNo : Expression :=
  .seqs [.char '第',.group .article number,.char '条',
    .opt (.seq (.char '之') (.group .supplement number))]

def removeSpaces (text : Text) : Text := text.filter fun c => !isSpace c

def markerNumber (marker : Text) : Option ℕ :=
  let normalized := removeSpaces marker
  match fullmatch? articleNo normalized with
  | none => none
  | some m => if isSupplement m then none else cnNumber (m.textOf .article normalized)

example : cnNumber ['一','千','零','二','十'] = some 1020 := by decide

def markerEnd (heading : Match Group) : ℕ := heading.stopOf .marker

def markerText (heading : Match Group) (view : Text) : Text := heading.textOf .marker view

end LawyerAgent.LegalArticleHeading

namespace LawyerAgent.LeadingTitle
open PythonText LegalArticleHeading Regex

structure LeadingTitleSpan where
  paragraphIndex : ℕ
  paragraphOrdinal : ℕ
  start : ℕ
  stop : ℕ
  text : Text

def maxNonemptyParagraphs : ℕ := 12

def maxCharacters : ℕ := 4096

def digit : Expression := .set isDecimal

def date : Expression :=
  .seqs [digit.times 4,.char '年',digit.between 1 2,.char '月',digit.between 1 2,.char '日']

def historyAction : Expression := .alts [.text ['通','过'],.text ['批','准'],.text ['公','布']]

def lawNumber : Expression :=
  .seqs [.text ['法','释'],.group .opening (.set fun c => ['〔','[','【'].contains c),
    digit.times 4,.group .closing (.set fun c => ['〕',']','】'].contains c),.plus digit,
    .char '号',.atEnd (· == '\n')]

def aboutWord : Expression := .text ['关','于']

def referenceBoundary : Expression :=
  .alt (.seqs [.char '《',.plus (.set fun c => !(['《','》'].contains c)),.char '》'])
    (.seqs [.char '<',.plus (.set fun c => !(['<','>'].contains c)),.char '>'])

/-- The alternatives of `_BODY_SIGNAL` without a look behind. -/
def plainBodySignal : Expression :=
  .alts [.set fun c => ['。','；',';','：',':'].contains c,
    .set fun c => ['“','”','‘','’','"','\x27'].contains c,
    .text ['本','条','例'],.text ['本','解','释'],.text ['为','了'],.text ['应','当']]

/-- `(?<!基)本法` anywhere in a text that follows this character. -/
def thisLaw (before : Option Char) : Text → Bool
  | [] => false
  | c::rest => (before != some '基' && c == '本' && rest.head? == some '法') || thisLaw (some c) rest

def bodySignal (text : Text) : Bool := search plainBodySignal text || thisLaw none text

def titleArticle : Expression := .seqs [.char '第',number,.char '条']

def titleClause : Expression := .opt (.seqs [.char '第',number,.char '款'])

def titleTail : Expression :=
  .seqs [titleArticle,titleClause,
    .star (.seqs [.set fun c => ['、','和'].contains c,titleArticle,titleClause]),
    .alts [.text ['的','解','释'],
      .seq (.alt (.text ['使','用']) (.text ['适','用'])) (.text ['问','题','的','解','释']),
      .text ['处','罚','权','限','规','定','的','决','定'],.text ['规','定','的','决','定'],
      .text ['有','关','问','题','的','批','复'],.text ['的','批','复']],
    .atEnd (· == '\n')]

def closingBracket (c : Char) : Option Char :=
  if c = '（' then some '）' else if c = '(' then some ')' else none

def openingBracket (c : Char) : Option Char :=
  if c = '）' then some '（' else if c = ')' then some '(' else none

def lawNumberClose (opening : Text) : Text :=
  if opening = ['〔'] then ['〕'] else if opening = ['['] then [']'] else ['】']

/-- `_has_balanced_history_brackets` with the brackets still open. -/
def balancedFrom : List Char → Text → Bool
  | stack, [] => stack.isEmpty
  | stack, c::rest =>
    if (closingBracket c).isSome then balancedFrom (c::stack) rest
    else match openingBracket c with
      | some opening =>
        match stack with
        | [] => false
        | top::stack => top == opening && balancedFrom stack rest
      | none => balancedFrom stack rest

def hasBalancedHistoryBrackets (text : Text) : Bool := balancedFrom [] text

def lines (text : Text) : List Text := split lineBreak text

def isArticleHeading (text : Text) : Bool := (match? articleHeading text).isSome

def isHistory (combined : Text) (paragraphs : List Text) : Bool :=
  (combined.head?.bind closingBracket).isSome &&
  hasBalancedHistoryBrackets combined &&
  !(paragraphs.any fun paragraph => (lines paragraph).any fun line =>
    strip line != [] && isArticleHeading (strip line)) &&
  search date combined && search historyAction combined

/-- `_find_history_range`: a group that runs past the end is no candidate. -/
def findHistoryRange (nonempty : List (ParsedParagraph × ℕ)) : Option (ℕ × ℕ) :=
  (List.range' 1 (nonempty.length-1)).findSome? fun start =>
    [1,2,3].findSome? fun count =>
      let group := (nonempty.drop start).take count
      let texts := group.map fun item => strip item.1.text
      if group.length = count ∧ isHistory texts.flatten texts then some (start,start+count)
      else none

def isLawNumber (text : Text) : Bool :=
  match fullmatch? lawNumber text with
  | some m => lawNumberClose (m.textOf .opening text) == m.textOf .closing text
  | none => false

def endsWith (text suffix : Text) : Bool := suffix.reverse.isPrefixOf text.reverse

/-- The end of the title before a history: the number of the law may stand
between them. -/
def titleEndBefore (nonempty : List (ParsedParagraph × ℕ)) (historyStart : ℕ) : Option ℕ :=
  let lawNumbers := (List.range historyStart).filter fun offset =>
    (nonempty[offset]?).any fun item => isLawNumber (strip item.1.text)
  if lawNumbers = [] then some historyStart
  else if lawNumbers = [historyStart-1] then some (historyStart-1)
  else none

def articleSegments (titleItems : List (ParsedParagraph × ℕ)) : List Text :=
  titleItems.flatMap fun item =>
    ((lines item.1.text).map strip).filterMap fun candidate =>
      if isArticleHeading candidate then some (removeSpaces candidate) else none

def isTitle (titleItems : List (ParsedParagraph × ℕ)) : Bool :=
  let normalized := titleItems.flatMap fun item => removeSpaces item.1.text
  let segments := articleSegments titleItems
  search aboutWord normalized && search referenceBoundary normalized &&
  !bodySignal normalized &&
  (endsWith normalized ['解','释'] || endsWith normalized ['决','定'] ||
    endsWith normalized ['批','复']) &&
  segments != [] && segments.all fun segment => (fullmatch? titleTail segment).isSome

def firstLine (text : Text) : Text :=
  ((lines text).map strip).find? (· != []) |>.getD []

/-- How many of the first paragraphs with text are the title. -/
def titleEnd (nonempty : List (ParsedParagraph × ℕ)) : Option ℕ :=
  match nonempty with
  | [] => none
  | first::_ =>
    if isArticleHeading (firstLine first.1.text) then none
    else match findHistoryRange nonempty with
      | none => none
      | some (historyStart,historyEnd) =>
        if historyStart = 0 then none
        else if ((nonempty.take historyEnd).map fun item => item.1.text.length).sum > maxCharacters
          then none
        else match titleEndBefore nonempty historyStart with
          | none => none
          | some stop =>
            if 0 < stop ∧ isTitle (nonempty.take stop) then some stop else none

def isNonempty (item : ParsedParagraph × ℕ) : Bool := strip item.1.text != []

def nonemptyParagraphs (document : ParsedDocument) : List (ParsedParagraph × ℕ) :=
  (document.paragraphs.zipIdx.filter isNonempty).take maxNonemptyParagraphs

def titleSpan (item : ParsedParagraph × ℕ) : LeadingTitleSpan :=
  ⟨item.2,item.1.ordinal,0,item.1.text.length,item.1.text⟩

def detectLeadingTitleSpans (document : ParsedDocument) : List LeadingTitleSpan :=
  match titleEnd (nonemptyParagraphs document) with
  | none => []
  | some stop => ((nonemptyParagraphs document).take stop).map titleSpan

theorem title_first (document : ParsedDocument) : ∃ count,
    (detectLeadingTitleSpans document).map LeadingTitleSpan.paragraphIndex =
      ((document.paragraphs.zipIdx.filter isNonempty).take count).map Prod.snd := by
  unfold detectLeadingTitleSpans
  cases titleEnd (nonemptyParagraphs document) with
  | none => exact ⟨0,rfl⟩
  | some stop =>
    refine ⟨min stop maxNonemptyParagraphs,?_⟩
    rw [List.map_map,nonemptyParagraphs,List.take_take]
    rfl

end LawyerAgent.LeadingTitle
