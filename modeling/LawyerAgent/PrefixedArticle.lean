import LawyerAgent.LegalArticleHeading
import LawyerAgent.Numbering.ExactRuns

/-!
# Prefixed article headings

A heading behind a private-use mark, empty brackets or zero-width blanks is an
article heading when the ordinary headings around it leave exactly its number
free. Quotes and brackets still open make a place uncertain.
-/

set_option autoImplicit false

namespace LawyerAgent.PrefixedArticle
open PythonText LegalArticleHeading Regex

structure Boundaries where
  stack : List Char
  certain : Bool

def Boundaries.start : Boundaries := ⟨[],true⟩

def Boundaries.clear (b : Boundaries) : Bool := b.stack.isEmpty && b.certain

def pairs : List (Char × Char) :=
  [('“','”'),('‘','’'),('《','》'),('（','）'),('(',')'),('【','】'),('[',']'),('\x7b','\x7d'),
    ('「','」'),('『','』'),('〔','〕')]

def isSymmetricQuote (c : Char) : Bool := c == '"' || c == '\x27'

def isOpening (c : Char) : Bool := pairs.any fun pair => pair.1 == c

def closeToOpen (c : Char) : Option Char := (pairs.find? fun pair => pair.2 == c).map Prod.fst

def scanCharacter (b : Boundaries) (c : Char) : Boundaries :=
  if isSymmetricQuote c then
    if b.stack.head? = some c then ⟨b.stack.tail,b.certain⟩ else ⟨c::b.stack,b.certain⟩
  else if isOpening c then ⟨c::b.stack,b.certain⟩
  else match closeToOpen c with
    | some opening =>
      if b.stack.head? = some opening then ⟨b.stack.tail,b.certain⟩ else ⟨b.stack,false⟩
    | none => b

def scanBoundaries (text : Text) (b : Boundaries) : Boundaries := text.foldl scanCharacter b

def markCharacter : Char := '\ue004'

def zeroWidthBlank : Char := '\u200b'

/-- `_PREFIX` -/
def headingPrefix : Expression :=
  .alt
    (.seq (.alt (.char markCharacter) (.text ['（','）'])) (.plus (.set isHorizontal)))
    (.seqs [(Pattern.char zeroWidthBlank).between 1 8,.star (.set isPlainHorizontal),
      .ahead (.char '第')])

def bodyAfterSeparator : Expression :=
  .seq (.plus (.set isHorizontal)) (.set fun c => !isSpace c)

def zeroWidthAnchorBody : Expression :=
  .seq (.plus (.set isPlainHorizontal)) (.set fun c => !isSpace c)

structure PrefixedArticleSpan where
  paragraphIndex : ℕ
  paragraphOrdinal : ℕ
  markerStart : ℕ
  headPrefix : Text

structure Candidate where
  span : PrefixedArticleSpan
  number : ℕ
  boundaryIsClear : Bool

def candidate (paragraphIndex paragraphOrdinal : ℕ) (text : Text) (boundaryIsClear : Bool) :
    Option Candidate := do
  let prefixMatch ← match? headingPrefix text
  let markerStart := prefixMatch.stop
  let view := text.drop markerStart
  let heading ← match? articleHeading view
  if isSupplement heading then none else
  let tail := view.drop (markerEnd heading)
  if (match? bodyAfterSeparator tail).isNone then none else
  let number ← markerNumber (markerText heading view)
  some ⟨⟨paragraphIndex,paragraphOrdinal,markerStart,text.take markerStart⟩,number,boundaryIsClear⟩

def ordinaryArticleNumber (text : Text) : Option ℕ := do
  let stripped := strip text
  let heading ← match? articleHeading stripped
  if isSupplement heading then none else markerNumber (markerText heading stripped)

def isZeroWidthAnchor (text : Text) : Bool :=
  let stripped := strip text
  match match? articleHeading stripped with
  | none => false
  | some heading => !isSupplement heading &&
    (match? zeroWidthAnchorBody (stripped.drop (markerEnd heading))).isSome

def isSupplementaryArticleHeading (text : Text) : Bool :=
  let view := text.drop ((match? headingPrefix text).elim 0 Match.stop)
  (match? articleHeading view).any isSupplement

def isStructuralBarrier (text : Text) : Bool := (match? structuralBarrier text).isSome

def isBarrier (text : Text) : Bool :=
  isStructuralBarrier text || isSupplementaryArticleHeading text

structure Anchor where
  index : ℕ
  number : ℕ
  boundaryIsClear : Bool

/-- The first loop: the anchors and the candidates from a paragraph on. -/
def collect (excluded : List ℕ) : ℕ → List ParsedParagraph → Boundaries →
    List Anchor × List Candidate
  | _, [], _ => ([],[])
  | index, paragraph::rest, b =>
    let later := collect excluded (index+1) rest (scanBoundaries paragraph.text b)
    if excluded.contains index then later
    else match candidate index paragraph.ordinal paragraph.text b.clear with
      | some found => (later.1,found::later.2)
      | none =>
        match ordinaryArticleNumber paragraph.text with
        | some number => (⟨index,number,b.clear⟩::later.1,later.2)
        | none => later

def textAt (document : ParsedDocument) (index : ℕ) : Text :=
  (document.paragraphs[index]?).elim [] ParsedParagraph.text

def groupBetween (candidates : List Candidate) (left right : Anchor) : List Candidate :=
  candidates.filter fun item =>
    left.index < item.span.paragraphIndex && item.span.paragraphIndex < right.index

/-- The candidates between two adjacent anchors, when they are accepted. -/
def acceptedGroup (document : ParsedDocument) (candidates : List Candidate)
    (left right : Anchor) : List Candidate :=
  let group := groupBetween candidates left right
  if group.isEmpty || !left.boundaryIsClear || !right.boundaryIsClear ||
      !group.all Candidate.boundaryIsClear then []
  else if (group.any fun item => item.span.headPrefix.head? == some zeroWidthBlank) &&
      !([left.index,right.index].all fun index => isZeroWidthAnchor (textAt document index)) then []
  else if (List.range' (left.index+1) (right.index-(left.index+1))).any fun index =>
      !(candidates.any fun item => item.span.paragraphIndex == index) &&
      isBarrier (textAt document index) then []
  else if Numbering.exactRun Candidate.number left.number group right.number then group
  else []

def acceptedGroups (document : ParsedDocument) (excluded : List ℕ) : List (List Candidate) :=
  let collected := collect excluded 0 document.paragraphs .start
  (collected.1.zip collected.1.tail).map fun anchors =>
    acceptedGroup document collected.2 anchors.1 anchors.2

def detectPrefixedArticleSpans (document : ParsedDocument) (excluded : List ℕ) :
    List PrefixedArticleSpan :=
  (acceptedGroups document excluded).flatMap fun group => group.map Candidate.span

theorem prefix_head {text : Text} {m : Match Group} (h : match? headingPrefix text = some m) :
    ∃ c rest, text = c::rest ∧ (c = markCharacter ∨ c = '（' ∨ c = zeroWidthBlank) := by
  cases text with
  | nil =>
    simp [match?,headingPrefix,run,Pattern.char,Pattern.text,Pattern.seqs,Pattern.between,
      Pattern.times] at h
  | cons c rest =>
    refine ⟨c,rest,rfl,?_⟩
    by_contra hne
    simp only [not_or] at hne
    simp [match?,headingPrefix,run,Pattern.char,Pattern.text,Pattern.seqs,Pattern.between,
      Pattern.times,hne] at h

theorem prefix_not_structural {text : Text} {m : Match Group}
    (h : match? headingPrefix text = some m) : isStructuralBarrier text = false := by
  obtain ⟨c,rest,rfl,hc⟩ := prefix_head h
  have hc' : isSpace c = false ∧ c ≠ '序' ∧ c ≠ '第' := by
    rcases hc with rfl | rfl | rfl <;> decide
  simp only [isStructuralBarrier,match?,structuralBarrier,spaces]
  rw [run_skip hc'.1]
  simp [run,Pattern.text,Pattern.seqs,Pattern.char,hc']

theorem candidate_spec {paragraphIndex paragraphOrdinal : ℕ} {text : Text} {clear : Bool}
    {found : Candidate} (h : candidate paragraphIndex paragraphOrdinal text clear = some found) :
    found.span.paragraphIndex = paragraphIndex ∧ found.span.markerStart ≤ text.length ∧
    isBarrier text = false ∧
    ∃ heading, match? articleHeading (text.drop found.span.markerStart) = some heading ∧
      markerNumber (markerText heading (text.drop found.span.markerStart)) = some found.number := by
  unfold candidate at h
  simp only [Option.bind_eq_bind,Option.bind_eq_some_iff] at h
  obtain ⟨m,hm,heading,hheading,h⟩ := h
  split at h
  · cases h
  · rename_i hsupplement
    have hbarrier : isBarrier text = false := by
      simp [isBarrier,prefix_not_structural hm,isSupplementaryArticleHeading,hm,hheading,
        hsupplement]
    split at h
    · cases h
    · simp only [Option.bind_eq_some_iff,Option.some.injEq] at h
      obtain ⟨number,hnumber,rfl⟩ := h
      exact ⟨rfl,(match_within hm).stop_le,hbarrier,heading,hheading,hnumber⟩

def Unnumbered (paragraphIndex : ℕ) (paragraph : ParsedParagraph) : Prop :=
  ordinaryArticleNumber paragraph.text = none ∧
  ∃ clear, candidate paragraphIndex paragraph.ordinal paragraph.text clear = none

structure Collected (excluded : List ℕ) (index : ℕ) (paragraphs : List ParsedParagraph)
    (found : List Anchor × List Candidate) : Prop where
  anchor : ∀ a ∈ found.1, ∃ k paragraph, paragraphs[k]? = some paragraph ∧ a.index = index+k ∧
    a.index ∉ excluded ∧ ordinaryArticleNumber paragraph.text = some a.number
  candidate : ∀ c ∈ found.2, ∃ k paragraph clear, paragraphs[k]? = some paragraph ∧
    PrefixedArticle.candidate (index+k) paragraph.ordinal paragraph.text clear = some c
  anchors_sorted : found.1.Pairwise fun a b => a.index < b.index
  candidates_sorted : found.2.Pairwise fun c d =>
    c.span.paragraphIndex < d.span.paragraphIndex
  complete : ∀ k paragraph, paragraphs[k]? = some paragraph → index+k ∉ excluded →
    (∃ c ∈ found.2, c.span.paragraphIndex = index+k) ∨ (∃ a ∈ found.1, a.index = index+k) ∨
    Unnumbered (index+k) paragraph

variable {excluded : List ℕ} {found : List Anchor × List Candidate} {index : ℕ}
  {paragraphs : List ParsedParagraph}

theorem anchor_later (paragraph : ParsedParagraph)
    (h : Collected excluded (index+1) paragraphs found) :
    ∀ a ∈ found.1, ∃ k p, (paragraph::paragraphs)[k]? = some p ∧ a.index = index+k ∧
      a.index ∉ excluded ∧ ordinaryArticleNumber p.text = some a.number := by
  intro a ha
  obtain ⟨k,p,hk,hindex,hrest⟩ := h.anchor a ha
  exact ⟨k+1,p,hk,by omega,hrest⟩

theorem candidate_later (paragraph : ParsedParagraph)
    (h : Collected excluded (index+1) paragraphs found) :
    ∀ c ∈ found.2, ∃ k p clear, (paragraph::paragraphs)[k]? = some p ∧
      candidate (index+k) p.ordinal p.text clear = some c := by
  intro c hc
  obtain ⟨k,p,clear,hk,hcandidate⟩ := h.candidate c hc
  refine ⟨k+1,p,clear,hk,?_⟩
  rwa [show index+(k+1) = index+1+k by omega]

theorem collected_skip (paragraph : ParsedParagraph)
    (h : Collected excluded (index+1) paragraphs found)
    (hfirst : index ∉ excluded → Unnumbered index paragraph) :
    Collected excluded index (paragraph::paragraphs) found := by
  refine ⟨anchor_later paragraph h,candidate_later paragraph h,h.anchors_sorted,
    h.candidates_sorted,?_⟩
  intro k p hk hexcluded
  cases k with
  | zero =>
    obtain rfl : paragraph = p := by simpa using hk
    exact .inr (.inr (hfirst hexcluded))
  | succ k =>
    rw [show index+(k+1) = index+1+k by omega] at hexcluded ⊢
    exact h.complete k p (by simpa using hk) hexcluded

theorem collected_candidate {paragraph : ParsedParagraph} {clear : Bool} {first : Candidate}
    (h : Collected excluded (index+1) paragraphs found)
    (hfirst : candidate index paragraph.ordinal paragraph.text clear = some first) :
    Collected excluded index (paragraph::paragraphs) (found.1,first::found.2) := by
  have hindex := (candidate_spec hfirst).1
  refine ⟨fun a ha => anchor_later paragraph h a ha,?_,h.anchors_sorted,?_,?_⟩
  · intro c hc
    rcases List.mem_cons.mp hc with rfl | hc
    · exact ⟨0,paragraph,clear,rfl,hfirst⟩
    · exact candidate_later paragraph h c hc
  · refine List.pairwise_cons.mpr ⟨?_,h.candidates_sorted⟩
    intro c hc
    obtain ⟨k,p,clear,hk,hcandidate⟩ := h.candidate c hc
    have := (candidate_spec hcandidate).1
    omega
  · intro k p hk hexcluded
    cases k with
    | zero => exact .inl ⟨first,List.mem_cons_self,hindex⟩
    | succ k =>
      rw [show index+(k+1) = index+1+k by omega] at hexcluded ⊢
      rcases h.complete k p (by simpa using hk) hexcluded with ⟨c,hc,hci⟩ | hrest
      · exact .inl ⟨c,List.mem_cons_of_mem _ hc,hci⟩
      · exact .inr hrest

theorem collected_anchor {paragraph : ParsedParagraph} {number : ℕ} (clear : Bool)
    (h : Collected excluded (index+1) paragraphs found) (hexcluded : index ∉ excluded)
    (hfirst : ordinaryArticleNumber paragraph.text = some number) :
    Collected excluded index (paragraph::paragraphs) (⟨index,number,clear⟩::found.1,found.2) := by
  refine ⟨?_,fun c hc => candidate_later paragraph h c hc,?_,h.candidates_sorted,?_⟩
  · intro a ha
    rcases List.mem_cons.mp ha with rfl | ha
    · exact ⟨0,paragraph,rfl,rfl,hexcluded,hfirst⟩
    · exact anchor_later paragraph h a ha
  · refine List.pairwise_cons.mpr ⟨?_,h.anchors_sorted⟩
    intro a ha
    obtain ⟨k,p,hk,hindex,-⟩ := h.anchor a ha
    change index < a.index
    omega
  · intro k p hk hexcluded
    cases k with
    | zero => exact .inr (.inl ⟨_,List.mem_cons_self,rfl⟩)
    | succ k =>
      rw [show index+(k+1) = index+1+k by omega] at hexcluded ⊢
      rcases h.complete k p (by simpa using hk) hexcluded with hrest | ⟨a,ha,hai⟩ | hrest
      · exact .inl hrest
      · exact .inr (.inl ⟨a,List.mem_cons_of_mem _ ha,hai⟩)
      · exact .inr (.inr hrest)

theorem collect_spec (excluded : List ℕ) (index : ℕ) (paragraphs : List ParsedParagraph)
    (b : Boundaries) :
    Collected excluded index paragraphs (collect excluded index paragraphs b) := by
  induction paragraphs generalizing index b with
  | nil => exact ⟨by simp [collect],by simp [collect],List.Pairwise.nil,List.Pairwise.nil,by simp⟩
  | cons paragraph paragraphs ih =>
    have hlater := ih (index+1) (scanBoundaries paragraph.text b)
    rw [collect]
    split
    · rename_i hexcluded
      exact collected_skip paragraph hlater fun h => absurd (by simpa using hexcluded) h
    · rename_i hexcluded
      split
      · rename_i hcandidate
        exact collected_candidate hlater hcandidate
      · rename_i hcandidate
        split
        · rename_i hnumber
          exact collected_anchor _ hlater (by simpa using hexcluded) hnumber
        · rename_i hnumber
          exact collected_skip paragraph hlater fun _ => ⟨hnumber,_,hcandidate⟩

def Standalone (document : ParsedDocument) (excluded : List ℕ) (index number : ℕ) : Prop :=
  ∃ paragraph, document.paragraphs[index]? = some paragraph ∧ index ∉ excluded ∧
    ordinaryArticleNumber paragraph.text = some number

/-- Two ordinary articles stand around the run. No heading of a part, chapter
or section and no supplement stands between them, and every other paragraph
there is excluded or opens with no article number. -/
def Enclosed (document : ParsedDocument) (excluded : List ℕ) (r : Numbering.Run Candidate) :
    Prop :=
  ∃ left right, Standalone document excluded left r.left ∧
    Standalone document excluded right r.right ∧
    (∀ c ∈ r.items, left < c.span.paragraphIndex ∧ c.span.paragraphIndex < right) ∧
    ∀ i paragraph, document.paragraphs[i]? = some paragraph → left < i → i < right →
      isBarrier paragraph.text = false ∧
      (i ∈ excluded ∨ (∃ c ∈ r.items, c.span.paragraphIndex = i) ∨ Unnumbered i paragraph)

theorem acceptedGroup_cases (document : ParsedDocument) (candidates : List Candidate)
    (left right : Anchor) :
    acceptedGroup document candidates left right = [] ∨
    acceptedGroup document candidates left right = groupBetween candidates left right ∧
    Numbering.exactRun Candidate.number left.number (groupBetween candidates left right)
      right.number = true ∧
    ∀ i, left.index < i → i < right.index →
      (∃ c ∈ candidates, c.span.paragraphIndex = i) ∨ isBarrier (textAt document i) = false := by
  unfold acceptedGroup
  simp only
  split
  · exact .inl rfl
  split
  · exact .inl rfl
  split
  · exact .inl rfl
  rename_i hbarrier
  split
  · rename_i hexact
    refine .inr ⟨rfl,hexact,?_⟩
    intro i hleft hright
    by_contra hne
    simp only [not_or,not_exists,not_and,Bool.not_eq_false] at hne
    refine hbarrier (List.any_eq_true.mpr ⟨i,?_,?_⟩)
    · rw [List.mem_range'_1]
      omega
    · simp only [Bool.and_eq_true,hne.2,and_true,Bool.not_eq_true']
      rw [List.any_eq_false]
      intro c hc
      simpa using hne.1 c hc
  · exact .inl rfl

theorem adjacent_split {α : Type} {l : List α} {p : α × α} (h : p ∈ l.zip l.tail) :
    ∃ before after, l = before++p.1::p.2::after := by
  induction l with
  | nil => simp at h
  | cons a l ih =>
    cases l with
    | nil => simp at h
    | cons b l =>
      rcases List.mem_cons.mp h with rfl | h
      · exact ⟨[],l,rfl⟩
      · obtain ⟨before,after,hsplit⟩ := ih h
        exact ⟨a::before,after,by rw [hsplit]; rfl⟩

theorem adjacent_pairwise {α : Type} {R : α → α → Prop} {l : List α} (h : l.Pairwise R) :
    (l.zip l.tail).Pairwise fun p q => p.2 = q.1 ∨ R p.2 q.1 := by
  induction l with
  | nil => exact List.Pairwise.nil
  | cons a l ih =>
    cases l with
    | nil => exact List.Pairwise.nil
    | cons b l =>
      have htail := (List.pairwise_cons.mp h).2
      refine List.pairwise_cons.mpr ⟨?_,ih htail⟩
      intro q hq
      rcases List.mem_cons.mp (List.of_mem_zip hq).1 with heq | hmem
      · exact .inl heq.symm
      · exact .inr ((List.pairwise_cons.mp htail).1 _ hmem)

theorem adjacent_free {anchors before after : List Anchor} {left right : Anchor}
    (hsorted : anchors.Pairwise fun a b => a.index < b.index)
    (hsplit : anchors = before++left::right::after) :
    ∀ a ∈ anchors, a.index ≤ left.index ∨ right.index ≤ a.index := by
  intro a ha
  rw [hsplit] at hsorted ha
  obtain ⟨-,hpair,hcross⟩ := List.pairwise_append.mp hsorted
  have hright := (List.pairwise_cons.mp (List.pairwise_cons.mp hpair).2).1
  simp only [List.mem_append,List.mem_cons] at ha
  rcases ha with h | rfl | rfl | h
  · exact .inl (Nat.le_of_lt (hcross a h left List.mem_cons_self))
  · exact .inl (Nat.le_refl _)
  · exact .inr (Nat.le_refl _)
  · exact .inr (Nat.le_of_lt (hright a h))

theorem acceptedGroup_run (document : ParsedDocument) (excluded : List ℕ)
    (hfound : Collected excluded 0 document.paragraphs found) {anchors : Anchor × Anchor}
    (hmem : anchors ∈ found.1.zip found.1.tail) :
    acceptedGroup document found.2 anchors.1 anchors.2 = [] ∨
    ∃ r : Numbering.Run Candidate,
      r.items = acceptedGroup document found.2 anchors.1 anchors.2 ∧
      r.Exact Candidate.number ∧ Enclosed document excluded r := by
  obtain ⟨left,right⟩ := anchors
  obtain ⟨before,after,hsplit⟩ := adjacent_split hmem
  change found.1 = before++left::right::after at hsplit
  have hleft : left ∈ found.1 := by simp [hsplit]
  have hright : right ∈ found.1 := by simp [hsplit]
  rcases acceptedGroup_cases document found.2 left right with hnone | ⟨hgroup,hexact,hbarrier⟩
  · exact .inl hnone
  refine .inr ⟨⟨left.number,groupBetween found.2 left right,right.number⟩,hgroup.symm,
    (Numbering.exactRun_iff _ _ _ _).mp hexact,left.index,right.index,?_,?_,?_,?_⟩
  · obtain ⟨k,p,hk,hindex,hexcluded,hnumber⟩ := hfound.anchor left hleft
    exact ⟨p,by rw [hindex,Nat.zero_add]; exact hk,hexcluded,hnumber⟩
  · obtain ⟨k,p,hk,hindex,hexcluded,hnumber⟩ := hfound.anchor right hright
    exact ⟨p,by rw [hindex,Nat.zero_add]; exact hk,hexcluded,hnumber⟩
  · intro c hc
    simpa [groupBetween] using (List.mem_filter.mp hc).2
  · intro i paragraph hparagraph hli hir
    have hitem : ∀ c ∈ found.2, c.span.paragraphIndex = i →
      c ∈ groupBetween found.2 left right := by
      intro c hc hci
      refine List.mem_filter.mpr ⟨hc,?_⟩
      simp [hci,hli,hir]
    have htext : textAt document i = paragraph.text := by simp [textAt,hparagraph]
    refine ⟨?_,?_⟩
    · rcases hbarrier i hli hir with ⟨c,hc,hci⟩ | hfree
      · obtain ⟨k,p,clear,hk,hcandidate⟩ := hfound.candidate c hc
        have hspec := candidate_spec hcandidate
        obtain rfl : k = i := by omega
        obtain rfl : p = paragraph := Option.some.inj (hk.symm.trans hparagraph)
        exact hspec.2.2.1
      · rwa [htext] at hfree
    · by_cases hexcluded : i ∈ excluded
      · exact .inl hexcluded
      · rcases hfound.complete i paragraph hparagraph (by simpa using hexcluded) with
          ⟨c,hc,hci⟩ | ⟨a,ha,hai⟩ | hnone
        · exact .inr (.inl ⟨c,hitem c hc (by omega),by omega⟩)
        · have := adjacent_free hfound.anchors_sorted hsplit a ha
          omega
        · exact .inr (.inr (by simpa using hnone))

theorem groupBetween_mem {candidates : List Candidate} {left right : Anchor} {c : Candidate}
    (h : c ∈ groupBetween candidates left right) : c ∈ candidates ∧
      left.index < c.span.paragraphIndex ∧ c.span.paragraphIndex < right.index := by
  have hfilter := List.mem_filter.mp h
  exact ⟨hfilter.1,by simpa using hfilter.2⟩

theorem acceptedGroup_sublist (document : ParsedDocument) (candidates : List Candidate)
    (left right : Anchor) : (acceptedGroup document candidates left right).Sublist
      (groupBetween candidates left right) := by
  rcases acceptedGroup_cases document candidates left right with h | ⟨h,-⟩
  · exact h ▸ List.nil_sublist _
  · exact h ▸ List.Sublist.refl _

theorem acceptedGroups_flatten (document : ParsedDocument) (excluded : List ℕ) :
    ∃ runs : List (Numbering.Run Candidate),
      (acceptedGroups document excluded).flatten = runs.flatMap Numbering.Run.items ∧
      ∀ r ∈ runs, r.Exact Candidate.number ∧ Enclosed document excluded r := by
  have hfound := collect_spec excluded 0 document.paragraphs .start
  unfold acceptedGroups
  generalize collect excluded 0 document.paragraphs .start = found at hfound
  have hrun : ∀ anchors ∈ found.1.zip found.1.tail,
      acceptedGroup document found.2 anchors.1 anchors.2 = [] ∨
      ∃ r : Numbering.Run Candidate,
        r.items = acceptedGroup document found.2 anchors.1 anchors.2 ∧
        r.Exact Candidate.number ∧ Enclosed document excluded r :=
    fun anchors h => acceptedGroup_run document excluded hfound h
  simp only
  generalize found.1.zip found.1.tail = adjacent at hrun ⊢
  induction adjacent with
  | nil => exact ⟨[],rfl,by simp⟩
  | cons anchors adjacent ih =>
    obtain ⟨runs,hflatten,hruns⟩ := ih fun a ha => hrun a (List.mem_cons_of_mem _ ha)
    rcases hrun anchors List.mem_cons_self with hnone | ⟨r,hitems,hr⟩
    · exact ⟨runs,by simpa [hnone] using hflatten,hruns⟩
    · refine ⟨r::runs,by simp [hitems,hflatten],?_⟩
      intro r' hr'
      rcases List.mem_cons.mp hr' with rfl | h
      · exact hr
      · exact hruns r' h

theorem accepted_pairwise (document : ParsedDocument) (excluded : List ℕ) :
    (acceptedGroups document excluded).flatten.Pairwise fun c d =>
      c.span.paragraphIndex < d.span.paragraphIndex := by
  have hfound := collect_spec excluded 0 document.paragraphs .start
  unfold acceptedGroups
  generalize collect excluded 0 document.paragraphs .start = found at hfound
  simp only [← List.flatMap_def]
  refine List.pairwise_flatMap.mpr ⟨?_,?_⟩
  · intro anchors _
    exact (hfound.candidates_sorted.filter _).sublist
      (acceptedGroup_sublist document found.2 anchors.1 anchors.2)
  · refine (adjacent_pairwise hfound.anchors_sorted).imp ?_
    intro p q hpq c hc d hd
    have hc' := groupBetween_mem ((acceptedGroup_sublist document found.2 p.1 p.2).subset hc)
    have hd' := groupBetween_mem ((acceptedGroup_sublist document found.2 q.1 q.2).subset hd)
    have hle : p.2.index ≤ q.1.index := by
      rcases hpq with h | h
      · exact Nat.le_of_eq (congrArg Anchor.index h)
      · exact Nat.le_of_lt h
    omega

theorem accepted_candidate (document : ParsedDocument) (excluded : List ℕ) :
    ∀ c ∈ (acceptedGroups document excluded).flatten, ∃ paragraph,
      document.paragraphs[c.span.paragraphIndex]? = some paragraph ∧
      ∃ clear, candidate c.span.paragraphIndex paragraph.ordinal paragraph.text clear = some c := by
  have hfound := collect_spec excluded 0 document.paragraphs .start
  intro c hc
  obtain ⟨group,hgroup,hc⟩ := List.mem_flatten.mp hc
  obtain ⟨anchors,-,rfl⟩ := List.mem_map.mp hgroup
  have hmem := groupBetween_mem ((acceptedGroup_sublist document _ anchors.1 anchors.2).subset hc)
  obtain ⟨k,paragraph,clear,hk,hcandidate⟩ := hfound.candidate c hmem.1
  have hindex : c.span.paragraphIndex = k := by
    rw [(candidate_spec hcandidate).1,Nat.zero_add]
  refine ⟨paragraph,hindex ▸ hk,clear,?_⟩
  rwa [hindex,← Nat.zero_add k]

end LawyerAgent.PrefixedArticle
