import LawyerAgent.LegalDocuments
import LawyerAgent.PdfBlockIds
import LawyerAgent.Spans.Slices
import Mathlib.Data.List.Dedup

/-!
# Location of a quote

A quote is searched without blanks in the verified blocks of one page, and its
characters are traced back to ranges of the blocks under their anchors.
-/

set_option autoImplicit false

namespace LawyerAgent.QuoteLocation
open DocumentBlocks PythonText Spans

structure IssueHighlight where
  blockId : List Char
  anchorId : List Char
  start : ℕ
  stop : ℕ
deriving DecidableEq

/-- The page of the first anchor, otherwise the page that the id starts with. -/
def pageOf (block : DocumentBlock) : ℕ :=
  match block.anchors with
  | first::_ => first.page
  | [] => match block.blockId with
    | 'p'::a::b::c:: '-'::_ =>
      if isDecimal a && isDecimal b && isDecimal c then
        LegalDocuments.digitValue a*100+LegalDocuments.digitValue b*10+LegalDocuments.digitValue c
      else 1
    | _ => 1

def compact (value : List Char) : List Char := value.filter fun c => !isSpace c

/-- A character of a block that is no blank. -/
structure Position where
  char : Char
  block : DocumentBlock
  offset : ℕ
deriving DecidableEq

def blockPositions (block : DocumentBlock) : List Position :=
  (block.text.zipIdx.filter fun c => !isSpace c.1).map fun c => ⟨c.1,block,c.2⟩

def positions (blocks : List DocumentBlock) : List Position := blocks.flatMap blockPositions

def compactText (blocks : List DocumentBlock) : List Char := (positions blocks).map Position.char

/-- A character under the anchor of the last range carries this range on. -/
def addPosition (located : List IssueHighlight) (position : Position) :
    Option (List IssueHighlight) :=
  match position.block.anchors.filter fun anchor =>
      anchor.start ≤ position.offset ∧ position.offset < anchor.stop with
  | [anchor] =>
    match located.getLast? with
    | some current =>
      if current.anchorId = anchor.anchorId then
        some (located.dropLast++[{current with stop := position.offset+1}])
      else some (located++[⟨position.block.blockId,anchor.anchorId,position.offset,
        position.offset+1⟩])
    | none => some [⟨position.block.blockId,anchor.anchorId,position.offset,position.offset+1⟩]
  | _ => none

def locateInBlocks (blocks : List DocumentBlock) (rawQuote : List Char) : List IssueHighlight :=
  match find (compactText blocks) (compact rawQuote) 0 with
  | none => []
  | some start =>
    if (find (compactText blocks) (compact rawQuote) (start+1)).isSome then []
    else match (((positions blocks).drop start).take (compact rawQuote).length).foldlM
        addPosition [] with
    | none => []
    | some located => if (located.map IssueHighlight.anchorId).Nodup then located else []

def onPage (blocks : List DocumentBlock) (page : ℕ) : List DocumentBlock :=
  blocks.filter fun block => pageOf block = page

def candidate (blocks : List DocumentBlock) (rawQuote : List Char) (excludedPage actualPage : ℕ) :
    Option (List IssueHighlight) :=
  if actualPage = excludedPage ∨ locateInBlocks (onPage blocks actualPage) rawQuote = [] then none
  else some (locateInBlocks (onPage blocks actualPage) rawQuote)

def locateUniquePage (blocks : List DocumentBlock) (rawQuote : List Char) (excludedPage : ℕ) :
    List IssueHighlight :=
  match ((blocks.map pageOf).dedup.insertionSort (· ≤ ·)).filterMap
      (candidate blocks rawQuote excludedPage) with
  | [located] => located
  | _ => []

/-- On the page, or else on the one other page where it is located. -/
def locate (verified : List DocumentBlock) (page : ℕ) (rawQuote : List Char) :
    List IssueHighlight :=
  match locateInBlocks (onPage verified page) rawQuote with
  | [] => locateUniquePage verified rawQuote page
  | located => located

def verifiedBlocks (sourceBlocks : List DocumentBlock) : List DocumentBlock :=
  sourceBlocks.filter fun block => block.quality = .verified ∧ block.anchors ≠ []

def separatorLength (text : List Char) : ℕ :=
  let dots := (text.takeWhile (· = '.')).length
  if 3 ≤ dots then dots
  else if text.head? = some '…' then (text.takeWhile (· = '…')).length
  else (text.takeWhile fun c => c = '\r' ∨ c = '\n').length

/-- The parts between the separators; the second argument counts what is left of one. -/
def splitQuote : List Char → ℕ → List (List Char)
  | [], _ => [[]]
  | _::text, skip+1 => splitQuote text skip
  | c::text, 0 =>
    match separatorLength (c::text) with
    | 0 => (splitQuote text 0).modifyHead (c::·)
    | skip+1 => []::splitQuote text skip

def putHighlight (items : List IssueHighlight) (item : IssueHighlight) : List IssueHighlight :=
  if items.any fun other => other.anchorId = item.anchorId then
    items.map fun other => if other.anchorId = item.anchorId then item else other
  else items++[item]

/-- The last block and anchor with the id. -/
def anchorOrder (verified : List DocumentBlock) (anchorId : List Char) : ℕ ×ₗ ℕ :=
  let entries := verified.zipIdx.flatMap fun block => block.1.anchors.zipIdx.map fun anchor =>
    (anchor.1.anchorId,toLex (block.2,anchor.2))
  (entries.reverse.lookup anchorId).getD (toLex (0,0))

def locateFragments (verified : List DocumentBlock) (page : ℕ) (rawQuote : List Char) :
    List IssueHighlight :=
  let fragments := (splitQuote rawQuote 0).filter fun fragment => 4 ≤ (compact fragment).length
  let results := (fragments.map (locate verified page)).filter (· ≠ [])
  let highlights := results.flatten
  let covered := (highlights.map fun highlight => highlight.stop-highlight.start).sum
  let pages := ((verified.flatMap DocumentBlock.anchors).filter fun anchor =>
    highlights.any fun highlight => anchor.anchorId = highlight.anchorId).map Anchor.page
  if results = [] then []
  else if results.length < 2 ∧ 5*covered < 4*max 1 (compact rawQuote).length then []
  else if pages.dedup.length ≠ 1 then []
  else (highlights.foldl putHighlight []).insertionSort fun a b =>
    anchorOrder verified a.anchorId ≤ anchorOrder verified b.anchorId

def locateQuote (sourceBlocks : List DocumentBlock) (page : ℕ) (rawQuote : List Char) :
    List IssueHighlight :=
  match locate (verifiedBlocks sourceBlocks) page rawQuote with
  | [] => locateFragments (verifiedBlocks sourceBlocks) page rawQuote
  | located => located

/-- The last block with the id. -/
def blockById (blocks : List DocumentBlock) (blockId : List Char) : Option DocumentBlock :=
  blocks.reverse.find? fun block => block.blockId = blockId

def itemText (blocks : List DocumentBlock) (item : IssueHighlight) : Option (List Char) :=
  (blockById blocks item.blockId).map fun block =>
    (block.text.take item.stop).drop item.start

def highlightText (blocks : List DocumentBlock) (highlights : List IssueHighlight) :
    Option (List Char) :=
  (highlights.mapM (itemText blocks)).map List.flatten

variable {block : DocumentBlock} {rawQuote : List Char}

theorem blockPositions_block {p : Position} (h : p ∈ blockPositions block) : p.block = block := by
  obtain ⟨c,-,rfl⟩ := List.mem_map.mp h
  rfl

theorem blockPositions_increase (block : DocumentBlock) :
    (blockPositions block).Pairwise fun p q => p.offset < q.offset := by
  rw [blockPositions,List.pairwise_map]
  refine List.Pairwise.filter _ ?_
  have hindices : ((block.text.zipIdx).map Prod.snd).Pairwise (· < ·) := by
    rw [List.zipIdx_map_snd]
    exact List.pairwise_lt_range'
  exact List.pairwise_map.mp hindices

def blockSpan (block : DocumentBlock) (start stop : ℕ) : List Position :=
  slice Position.offset start stop (blockPositions block)

theorem blockSpan_text (block : DocumentBlock) (start stop : ℕ) :
    (blockSpan block start stop).map Position.char =
      compact ((block.text.take stop).drop start) := by
  have hslice : (block.text.take stop).drop start =
      (slice Prod.snd start stop block.text.zipIdx).map Prod.fst :=
    (slice_zipIdx block.text 0 start stop).symm
  rw [hslice,compact,List.filter_map,blockSpan,slice,blockPositions,List.filter_map,List.map_map,
    slice,List.filter_filter,List.filter_filter]
  congr 1
  refine List.filter_congr fun c _ => ?_
  exact Bool.and_comm _ _

/-- The second position comes next after the first in their block. -/
def Next (p q : Position) : Prop :=
  p.block = q.block → ∀ start ≤ p.offset,
    blockSpan q.block start (q.offset+1) = blockSpan p.block start (p.offset+1)++[q]

theorem blockPositions_next (block : DocumentBlock) : (blockPositions block).IsChain Next := by
  refine List.IsChain.imp_of_mem_imp ?_ (slices_chain (blockPositions_increase block))
  intro p q hp hq hnext _ start hstart
  rw [blockPositions_block hp,blockPositions_block hq]
  exact hnext start hstart

theorem positions_next {blocks : List DocumentBlock} (h : blocks.Nodup) :
    (positions blocks).IsChain Next := by
  induction blocks with
  | nil => exact .nil
  | cons block blocks ih =>
    obtain ⟨hblock,hblocks⟩ := List.nodup_cons.mp h
    rw [positions,List.flatMap_cons,List.isChain_append]
    refine ⟨blockPositions_next block,ih hblocks,?_⟩
    intro p hp q hq hsame
    have hp := blockPositions_block (List.mem_of_getLast? hp)
    obtain ⟨other,hother,hq⟩ := List.mem_flatMap.mp (List.mem_of_head? hq)
    have hq := blockPositions_block hq
    rw [hp,hq] at hsame
    rw [hsame] at hblock
    exact absurd hother hblock

/-- Ids come once, and the anchors of a block lie on its page. -/
structure Parsed (blocks : List DocumentBlock) : Prop where
  blockIds : (blocks.map DocumentBlock.blockId).Nodup
  anchorIds : (blocks.flatMap DocumentBlock.anchorIds).Nodup
  onePage : ∀ block ∈ blocks, ∀ anchor ∈ block.anchors, anchor.page = pageOf block

section Document
variable {blocks : List DocumentBlock} (hparsed : Parsed blocks)
include hparsed

theorem Parsed.nodup : blocks.Nodup := hparsed.blockIds.of_map

theorem Parsed.one_block {a b : DocumentBlock} (ha : a ∈ blocks) (hb : b ∈ blocks) {id : List Char}
    (hid : id ∈ a.anchorIds) (hid' : id ∈ b.anchorIds) : a = b := by
  have hapart := (List.nodup_flatMap.mp hparsed.anchorIds).2
  by_contra hne
  have hsymm : Std.Symm (Function.onFun List.Disjoint DocumentBlock.anchorIds) :=
    ⟨fun _ _ h => h.symm⟩
  exact hapart.forall ha hb hne hid hid'

theorem Parsed.one_anchor (hblock : block ∈ blocks) {a b : Anchor} (ha : a ∈ block.anchors)
    (hb : b ∈ block.anchors) (hab : a.anchorId = b.anchorId) : a = b :=
  List.inj_on_of_nodup_map ((List.nodup_flatMap.mp hparsed.anchorIds).1 block hblock) ha hb hab

theorem Parsed.by_id (hblock : block ∈ blocks) :
    blockById blocks block.blockId = some block := by
  rw [blockById]
  cases hfound : blocks.reverse.find? fun other => other.blockId = block.blockId with
  | none =>
    have hno := List.find?_eq_none.mp hfound block (List.mem_reverse.mpr hblock)
    exact absurd (decide_eq_true rfl) hno
  | some other =>
    have hsame := List.find?_some hfound
    have hid : other.blockId = block.blockId := of_decide_eq_true hsame
    have hother := List.mem_reverse.mp (List.mem_of_find?_eq_some hfound)
    rw [List.inj_on_of_nodup_map hparsed.blockIds hother hblock hid]

end Document

def Under (block : DocumentBlock) (item : IssueHighlight) : Prop :=
  block.blockId = item.blockId ∧ item.start < item.stop ∧
    ∃ anchor ∈ block.anchors, anchor.anchorId = item.anchorId ∧ anchor.start ≤ item.start ∧
      item.stop ≤ anchor.stop

def itemSpan (blocks : List DocumentBlock) (item : IssueHighlight) : List Position :=
  match blockById blocks item.blockId with
  | none => []
  | some block => blockSpan block item.start item.stop

/-- The ranges hold these positions, and the last of them ends at the last. -/
structure Tracks (all blocks : List DocumentBlock) (located : List IssueHighlight)
    (ps : List Position) : Prop where
  under : ∀ item ∈ located, ∃ block ∈ blocks, Under block item
  spans : located.flatMap (itemSpan all) = ps
  last : ∀ item ∈ located.getLast?, ∃ q ∈ ps.getLast?, q.block ∈ blocks ∧ Under q.block item ∧
    item.stop = q.offset+1 ∧ item.start ≤ q.offset

theorem under_id {all : List DocumentBlock} (hparsed : Parsed all) (hblock : block ∈ all)
    {item : IssueHighlight} (h : Under block item) :
    itemSpan all item = blockSpan block item.start item.stop := by
  rw [itemSpan,← h.1,hparsed.by_id hblock]

theorem last_range {α : Type} {items : List α} {item : α} (h : items.getLast? = some item) :
    items = items.dropLast++[item] := by
  have hne : items ≠ [] := by
    rintro rfl
    cases h
  rw [List.getLast?_eq_some_getLast hne] at h
  rw [← Option.some.inj h,List.dropLast_append_getLast]

section Runs
variable {all blocks : List DocumentBlock} (hparsed : Parsed all)
  (hall : ∀ block ∈ blocks, block ∈ all) {located out : List IssueHighlight} {ps : List Position}
  {p : Position}
include hparsed hall

theorem Tracks.new (h : Tracks all blocks located ps) (hblock : p.block ∈ blocks)
    (hmem : p ∈ blockPositions p.block) {anchor : Anchor} (hanchor : anchor ∈ p.block.anchors)
    (hstart : anchor.start ≤ p.offset) (hstop : p.offset < anchor.stop) :
    Tracks all blocks
      (located++[⟨p.block.blockId,anchor.anchorId,p.offset,p.offset+1⟩]) (ps++[p]) := by
  have hunder : Under p.block ⟨p.block.blockId,anchor.anchorId,p.offset,p.offset+1⟩ :=
    ⟨rfl,Nat.lt_succ_self _,anchor,hanchor,rfl,hstart,hstop⟩
  constructor
  · intro item hitem
    rcases List.mem_append.mp hitem with hitem | hitem
    · exact h.under item hitem
    · rw [List.mem_singleton.mp hitem]
      exact ⟨p.block,hblock,hunder⟩
  · rw [List.flatMap_append,h.spans,List.flatMap_singleton,under_id hparsed (hall _ hblock) hunder]
    exact congrArg (ps++·) (slice_single (blockPositions_increase p.block) hmem)
  · intro item hitem
    rw [List.getLast?_concat,Option.mem_some_iff] at hitem
    subst hitem
    exact ⟨p,List.getLast?_concat .. ▸ rfl,hblock,hunder,rfl,le_rfl⟩

theorem Tracks.extend (h : Tracks all blocks located ps) (hblock : p.block ∈ blocks)
    (hnext : ∀ q ∈ ps.getLast?, Next q p) {anchor : Anchor} (hanchor : anchor ∈ p.block.anchors)
    (hstop : p.offset < anchor.stop) {current : IssueHighlight}
    (hcurrent : located.getLast? = some current) (hsame : current.anchorId = anchor.anchorId) :
    Tracks all blocks (located.dropLast++[{current with stop := p.offset+1}]) (ps++[p]) := by
  obtain ⟨q,hq,hqblock,⟨hid,-,found,hfound,hfoundId,hfirst,-⟩,hend,hstart⟩ :=
    h.last current hcurrent
  have hfoundIn : anchor.anchorId ∈ q.block.anchorIds :=
    List.mem_map.mpr ⟨found,hfound,hfoundId.trans hsame⟩
  have hanchorIn : anchor.anchorId ∈ p.block.anchorIds := List.mem_map_of_mem hanchor
  have hone : q.block = p.block :=
    hparsed.one_block (hall _ hqblock) (hall _ hblock) hfoundIn hanchorIn
  rw [hone] at hid hfound
  have hanchors : found = anchor :=
    hparsed.one_anchor (hall _ hblock) hfound hanchor (hfoundId.trans hsame)
  subst hanchors
  have hspan := hnext q hq hone current.start hstart
  have hlow : current.start ≤ p.offset := by
    have hp : p ∈ blockSpan p.block current.start (p.offset+1) := by
      rw [hspan]
      exact List.mem_append_right _ (List.mem_singleton_self p)
    exact of_decide_eq_true (Bool.and_eq_true_iff.mp (List.mem_filter.mp hp).2).1
  have hunder : Under p.block {current with stop := p.offset+1} :=
    ⟨hid,Nat.lt_succ_of_le hlow,found,hanchor,hfoundId,hfirst,hstop⟩
  have hunderLast : Under q.block current := (h.last current hcurrent).elim fun r hr => by
    have hqr : q = r := Option.some.inj (hq.symm.trans hr.1)
    rw [hqr]
    exact hr.2.2.1
  constructor
  · intro item hitem
    rcases List.mem_append.mp hitem with hitem | hitem
    · exact h.under item (List.dropLast_subset _ hitem)
    · rw [List.mem_singleton.mp hitem]
      exact ⟨p.block,hblock,hunder⟩
  · have hspans := h.spans
    rw [last_range hcurrent,List.flatMap_append,List.flatMap_singleton,
      under_id hparsed (hall _ hqblock) hunderLast,hend] at hspans
    rw [List.flatMap_append,List.flatMap_singleton,under_id hparsed (hall _ hblock) hunder,hspan,
      ← List.append_assoc,hspans]
  · intro item hitem
    rw [List.getLast?_concat,Option.mem_some_iff] at hitem
    subst hitem
    exact ⟨p,List.getLast?_concat .. ▸ rfl,hblock,hunder,rfl,hlow⟩

theorem addPosition_tracks (h : Tracks all blocks located ps) (hblock : p.block ∈ blocks)
    (hmem : p ∈ blockPositions p.block) (hnext : ∀ q ∈ ps.getLast?, Next q p)
    (hstep : addPosition located p = some out) : Tracks all blocks out (ps++[p]) := by
  rw [addPosition.eq_def] at hstep
  split at hstep
  · next anchor hfilter =>
    have hfound : anchor ∈ p.block.anchors.filter fun anchor =>
        anchor.start ≤ p.offset ∧ p.offset < anchor.stop := by
      rw [hfilter]
      exact List.mem_singleton_self anchor
    obtain ⟨hanchor,hrange⟩ := List.mem_filter.mp hfound
    obtain ⟨hstart,hstop⟩ := of_decide_eq_true hrange
    cases hlast : located.getLast? with
    | none =>
      rw [hlast] at hstep
      cases hstep
      rw [List.getLast?_eq_none_iff] at hlast
      subst hlast
      exact h.new hparsed hall hblock hmem hanchor hstart hstop
    | some current =>
      rw [hlast] at hstep
      by_cases hsame : current.anchorId = anchor.anchorId
      · have hout := Option.some.inj ((if_pos hsame).symm.trans hstep)
        rw [← hout]
        exact h.extend hparsed hall hblock hnext hanchor hstop hlast hsame
      · have hout := Option.some.inj ((if_neg hsame).symm.trans hstep)
        rw [← hout]
        exact h.new hparsed hall hblock hmem hanchor hstart hstop
  · cases hstep

theorem run_tracks (hchain : ps.IsChain Next)
    (hps : ∀ p ∈ ps, p.block ∈ blocks ∧ p ∈ blockPositions p.block)
    (h : ps.foldlM addPosition [] = some located) : Tracks all blocks located ps := by
  induction ps using List.reverseRecOn generalizing located with
  | nil =>
    cases h
    exact ⟨nofun,rfl,nofun⟩
  | append_singleton ps p ih =>
    rw [List.foldlM_append] at h
    obtain ⟨next,hnext,hstep⟩ := Option.bind_eq_some_iff.mp h
    rw [List.foldlM_cons] at hstep
    obtain ⟨last,hlast,hout⟩ := Option.bind_eq_some_iff.mp hstep
    cases hout
    obtain ⟨hfirst,-,hjoin⟩ := List.isChain_append.mp hchain
    have htracks := ih hfirst (fun q hq => hps q (List.mem_append_left _ hq)) hnext
    obtain ⟨hblock,hmem⟩ := hps p (List.mem_append_right _ (List.mem_singleton_self p))
    exact addPosition_tracks hparsed hall htracks hblock hmem (fun q hq => hjoin q hq p rfl) hlast

theorem locateInBlocks_tracks (hblocks : blocks.Nodup)
    (h : locateInBlocks blocks rawQuote = located) (hne : located ≠ []) :
    (∃! start, Occurs (compactText blocks) (compact rawQuote) start) ∧
      (located.map IssueHighlight.anchorId).Nodup ∧
      ∃ start, Occurs (compactText blocks) (compact rawQuote) start ∧
        Tracks all blocks located
          (((positions blocks).drop start).take (compact rawQuote).length) := by
  rw [locateInBlocks] at h
  cases hfirst : find (compactText blocks) (compact rawQuote) 0 with
  | none =>
    rw [hfirst] at h
    exact absurd h.symm hne
  | some start =>
    rw [hfirst] at h
    dsimp only at h
    cases hagain : find (compactText blocks) (compact rawQuote) (start+1) with
    | some other =>
      rw [hagain] at h
      exact absurd h.symm hne
    | none =>
      rw [hagain,Option.isSome_none,if_neg Bool.false_ne_true] at h
      cases hrun : (((positions blocks).drop start).take (compact rawQuote).length).foldlM
          addPosition [] with
      | none =>
        rw [hrun] at h
        exact absurd h.symm hne
      | some found =>
        rw [hrun] at h
        dsimp only at h
        by_cases hnodup : (found.map IssueHighlight.anchorId).Nodup
        · rw [if_pos hnodup] at h
          subst h
          refine ⟨find_unique hfirst hagain,hnodup,start,(find_some hfirst).2.1,?_⟩
          refine run_tracks hparsed hall (((positions_next hblocks).drop start).take _) ?_ hrun
          intro p hp
          obtain ⟨block,hblock,hp⟩ := List.mem_flatMap.mp
            (List.mem_of_mem_drop (List.mem_of_mem_take hp))
          rw [blockPositions_block hp]
          exact ⟨hblock,hp⟩
        · rw [if_neg hnodup] at h
          exact absurd h.symm hne

theorem highlightText_spans (h : ∀ item ∈ located, ∃ block ∈ blocks, Under block item) :
    ∃ text, highlightText all located = some text ∧
      compact text = (located.flatMap (itemSpan all)).map Position.char := by
  induction located with
  | nil => exact ⟨[],rfl,rfl⟩
  | cons item located ih =>
    obtain ⟨text,htext,hcompact⟩ := ih fun i hi => h i (List.mem_cons_of_mem item hi)
    obtain ⟨block,hblock,hunder⟩ := h item List.mem_cons_self
    obtain ⟨texts,htexts,hjoined⟩ := Option.map_eq_some_iff.mp htext
    have hitem : itemText all item = some ((block.text.take item.stop).drop item.start) := by
      rw [itemText,← hunder.1,hparsed.by_id (hall block hblock)]
      rfl
    refine ⟨(block.text.take item.stop).drop item.start++text,?_,?_⟩
    · rw [highlightText,List.mapM_cons,hitem,htexts,← hjoined]
      rfl
    · rw [List.flatMap_cons,List.map_append,under_id hparsed (hall block hblock) hunder,
        blockSpan_text,← hcompact]
      exact List.filter_append ..

end Runs

/-- The ranges spell the quote where it occurs on the page, once; they lie under
different anchors of verified blocks of the page. -/
structure WholeQuote (blocks : List DocumentBlock) (rawQuote : List Char)
    (located : List IssueHighlight) (page : ℕ) : Prop where
  spelled : ∃ text, highlightText blocks located = some text ∧ compact text = compact rawQuote
  unique : ∃! start, Occurs (compactText (onPage (verifiedBlocks blocks) page))
    (compact rawQuote) start
  traced : ∃ start, Occurs (compactText (onPage (verifiedBlocks blocks) page))
      (compact rawQuote) start ∧ located.flatMap (itemSpan blocks) =
        ((positions (onPage (verifiedBlocks blocks) page)).drop start).take
          (compact rawQuote).length
  distinct : (located.map IssueHighlight.anchorId).Nodup
  inside : ∀ item ∈ located, ∃ block ∈ blocks, block.quality = .verified ∧ pageOf block = page ∧
    block.blockId = item.blockId ∧ item.start < item.stop ∧ item.stop ≤ block.text.length ∧
    ∃ anchor ∈ block.anchors, anchor.anchorId = item.anchorId ∧ anchor.page = page ∧
      anchor.start ≤ item.start ∧ item.stop ≤ anchor.stop

theorem onPage_whole {blocks : List DocumentBlock} (hparsed : Parsed blocks) {page : ℕ}
    {located : List IssueHighlight}
    (h : locateInBlocks (onPage (verifiedBlocks blocks) page) rawQuote = located)
    (hne : located ≠ []) : WholeQuote blocks rawQuote located page := by
  have hkept : (onPage (verifiedBlocks blocks) page).Sublist blocks :=
    List.filter_sublist.trans List.filter_sublist
  have hall : ∀ block ∈ onPage (verifiedBlocks blocks) page, block ∈ blocks :=
    fun block hblock => hkept.subset hblock
  obtain ⟨hunique,hnodup,start,hoccurs,htracks⟩ :=
    locateInBlocks_tracks hparsed hall (hkept.nodup hparsed.nodup) h hne
  obtain ⟨text,htext,hcompact⟩ := highlightText_spans hparsed hall htracks.under
  have hspelt : (((positions (onPage (verifiedBlocks blocks) page)).drop start).take
      (compact rawQuote).length).map Position.char = compact rawQuote := by
    rw [List.map_take,List.map_drop]
    exact (List.prefix_iff_eq_take.mp hoccurs.2).symm
  refine ⟨⟨text,htext,?_⟩,hunique,⟨start,hoccurs,htracks.spans⟩,hnodup,?_⟩
  · rw [hcompact,htracks.spans,hspelt]
  · intro item hitem
    obtain ⟨block,hblock,hid,hrange,anchor,hanchor,hsame,hfirst,hlast⟩ := htracks.under item hitem
    obtain ⟨hverified,hpage⟩ := List.mem_filter.mp hblock
    obtain ⟨hmem,hquality⟩ := List.mem_filter.mp hverified
    have hpage : pageOf block = page := of_decide_eq_true hpage
    have hquality := (of_decide_eq_true hquality).1
    have hanchorPage := hparsed.onePage block hmem anchor hanchor
    exact ⟨block,hmem,hquality,hpage,hid,hrange,hlast.trans (block.contained anchor hanchor),anchor,
      hanchor,hsame,hanchorPage.trans hpage,hfirst,hlast⟩

theorem locate_whole {blocks : List DocumentBlock} (hparsed : Parsed blocks) {page : ℕ}
    {located : List IssueHighlight} (h : locate (verifiedBlocks blocks) page rawQuote = located)
    (hne : located ≠ []) :
    ∃ actualPage, WholeQuote blocks rawQuote located actualPage := by
  rw [locate] at h
  cases hpage : locateInBlocks (onPage (verifiedBlocks blocks) page) rawQuote with
  | cons item rest =>
    rw [hpage] at h
    have hlocated : item::rest = located := h
    exact ⟨page,onPage_whole hparsed (hpage.trans hlocated) hne⟩
  | nil =>
    rw [hpage] at h
    dsimp only at h
    rw [locateUniquePage] at h
    split at h
    · next found hfound =>
      subst h
      have hmem : found ∈ ((((verifiedBlocks blocks).map pageOf).dedup.insertionSort
          (· ≤ ·)).filterMap (candidate (verifiedBlocks blocks) rawQuote page)) := by
        rw [hfound]
        exact List.mem_singleton_self found
      obtain ⟨actualPage,-,hcandidate⟩ := List.mem_filterMap.mp hmem
      rw [candidate] at hcandidate
      split at hcandidate
      · cases hcandidate
      · exact ⟨actualPage,onPage_whole hparsed (Option.some.inj hcandidate) hne⟩
    · exact absurd h.symm hne

/-- A located whole quote is the result, and it is spelled where it occurs. -/
theorem whole_quote_located {blocks : List DocumentBlock} (hparsed : Parsed blocks) {page : ℕ}
    {rawQuote : List Char} {located : List IssueHighlight}
    (h : locate (verifiedBlocks blocks) page rawQuote = located) (hne : located ≠ []) :
    locateQuote blocks page rawQuote = located ∧
      ∃ actualPage, WholeQuote blocks rawQuote located actualPage := by
  refine ⟨?_,locate_whole hparsed h hne⟩
  rw [locateQuote,h]
  cases located with
  | nil => exact absurd rfl hne
  | cons item rest => rfl

def lineAnchor (id : String) (start stop : ℕ) (h : start < stop) : Anchor :=
  ⟨id.toList,1,start,stop,⟨⟨0,0⟩,⟨9,0⟩,⟨9,9⟩,⟨0,9⟩⟩,le_rfl,h⟩

/-- Two lines of a page, the second in two parts. -/
def twoLines : List DocumentBlock :=
  [⟨"p001-line0001".toList,.text,"rent a".toList,
      [lineAnchor "p001-line0001-anchor001" 0 6 (by decide)],.verified,none,
      by decide,by decide,by decide⟩,
    ⟨"p001-line0002".toList,.text,"room\nnow".toList,
      [lineAnchor "p001-line0002-anchor001" 0 4 (by decide),
        lineAnchor "p001-line0002-anchor002" 5 8 (by decide)],.verified,none,
      by decide,by decide,by decide⟩]

theorem twoLines_located : locateQuote twoLines 1 "a room n".toList =
      [⟨"p001-line0001".toList,"p001-line0001-anchor001".toList,5,6⟩,
        ⟨"p001-line0002".toList,"p001-line0002-anchor001".toList,0,4⟩,
        ⟨"p001-line0002".toList,"p001-line0002-anchor002".toList,5,6⟩] ∧
    ∃ actualPage, WholeQuote twoLines "a room n".toList
      [⟨"p001-line0001".toList,"p001-line0001-anchor001".toList,5,6⟩,
        ⟨"p001-line0002".toList,"p001-line0002-anchor001".toList,0,4⟩,
        ⟨"p001-line0002".toList,"p001-line0002-anchor002".toList,5,6⟩] actualPage :=
  whole_quote_located ⟨by decide,by decide,by decide⟩
    (by decide) (by decide)

end LawyerAgent.QuoteLocation
