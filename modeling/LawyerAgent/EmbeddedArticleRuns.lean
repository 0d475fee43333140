import LawyerAgent.PrefixedArticle

/-!
# Embedded article headings

A heading behind the full stop of another article opens an article of its own
when it stands in a run between two headings at line starts that leave its
number free.
-/

set_option autoImplicit false

namespace LawyerAgent.EmbeddedArticle
open PythonText LegalArticleHeading PrefixedArticle Regex

def sentenceBoundary : Expression :=
  .seq (.char '。') (.group .separator
    (.seq horizontalSpace (.opt (.seq (.char markCharacter) horizontalSpace))))

def bodyAfterMarker : Expression := bodyAfterSeparator

def referenceAfterMarker : Expression :=
  .alts [.text ['的','规','定'],
    .seqs [.opt (.char '第'),.opt (.set fun c => ['（','('].contains c),number,
      .opt (.set fun c => ['）',')'].contains c),.set fun c => ['款','项'].contains c],
    .seqs [.char '第',number,.char '款']]

structure EmbeddedArticleSpan where
  paragraphIndex : ℕ
  paragraphOrdinal : ℕ
  markerStart : ℕ
  splitStart : ℕ
  leftSeparator : Text

structure Candidate where
  span : EmbeddedArticleSpan
  number : ℕ

abbrev Event := Numbering.Event Candidate

def skipWhitespace (text : Text) (start stop : ℕ) : ℕ :=
  start+((slice text start stop).takeWhile isSpace).length

def trimBounds (text : Text) (start stop : ℕ) : ℕ × ℕ :=
  let start' := skipWhitespace text start stop
  (start',stop-((slice text start' stop).reverse.takeWhile isSpace).length)

def startsWith (text : Text) (c : Char) (start stop : ℕ) : Bool :=
  (slice text start stop).head? == some c

def headingAt (text : Text) (start stop : ℕ) : Option (Match Group) :=
  match? articleHeading (slice text start stop)

/-- The text behind a marker is a body, not the rest of a reference. -/
def opensBody (text : Text) (markerEnd stop : ℕ) : Bool :=
  (match? bodyAfterMarker (slice text markerEnd stop)).isSome &&
  (match? referenceAfterMarker (slice text (skipWhitespace text markerEnd stop) stop)).isNone

def headingEvent (text : Text) (start stop : ℕ) (heading : Match Group) : Event :=
  if isSupplement heading || !opensBody text (start+markerEnd heading) stop then .barrier
  else match markerNumber (markerText heading (slice text start stop)) with
    | some number => .anchor number
    | none => .barrier

def startEvent (text : Text) (start stop : ℕ) (boundaryIsClear prefixedIsAccepted : Bool) :
    Option Event :=
  let bounds := trimBounds text start stop
  if bounds.1 = bounds.2 then none
  else if !boundaryIsClear then
    if (headingAt text bounds.1 bounds.2).isSome then some .barrier else none
  else
    let marked := startsWith text markCharacter bounds.1 bounds.2
    if marked && !prefixedIsAccepted then some .barrier
    else
      let start := if marked then skipWhitespace text (bounds.1+1) bounds.2 else bounds.1
      match headingAt text start bounds.2 with
      | some heading => some (headingEvent text start bounds.2 heading)
      | none =>
        let view := slice text start bounds.2
        if isStructuralBarrier view || (match? articleSupplementCandidate view).isSome then
          some .barrier
        else none

def embeddedCandidate (paragraphIndex paragraphOrdinal : ℕ) (text : Text)
    (markerStart lineEnd : ℕ) (leftSeparator : Text) : Option Candidate :=
  if !startsWith text '第' markerStart lineEnd then none
  else match headingAt text markerStart lineEnd with
    | none => none
    | some heading =>
      if isSupplement heading || !opensBody text (markerStart+markerEnd heading) lineEnd then none
      else match markerNumber (markerText heading (slice text markerStart lineEnd)) with
        | none => none
        | some number => some ⟨⟨paragraphIndex,paragraphOrdinal,markerStart,markerStart,
            leftSeparator⟩,number⟩

def looksLikeArticleBoundary (text : Text) (start stop : ℕ) : Bool :=
  startsWith text '第' start stop &&
  ((headingAt text start stop).isSome ||
    (match? articleSupplementCandidate (slice text start stop)).isSome)

/-- The ends of the sentences of a line, with the blanks behind the full stop. -/
def sentences (text : Text) (lineStart lineEnd : ℕ) : List (ℕ × Text) :=
  let line := slice text lineStart lineEnd
  (findIter sentenceBoundary line).map fun found =>
    (lineStart+found.1+found.2.stopOf .separator,
      found.2.textOf .separator (line.drop found.1))

def sentenceEvent (paragraphIndex : ℕ) (paragraph : ParsedParagraph) (lineEnd : ℕ)
    (sentence : ℕ × Text) (b : Boundaries) : Option Event :=
  match embeddedCandidate paragraphIndex paragraph.ordinal paragraph.text sentence.1 lineEnd
      sentence.2 with
  | some candidate =>
    if b.clear then some (.candidate candidate)
    else if looksLikeArticleBoundary paragraph.text sentence.1 lineEnd then some .barrier else none
  | none =>
    if looksLikeArticleBoundary paragraph.text sentence.1 lineEnd then some .barrier else none

/-- The sentences of a line in order; the text up to `scanAt` has been scanned. -/
def sentenceEvents (paragraphIndex : ℕ) (paragraph : ParsedParagraph) (lineEnd : ℕ) :
    ℕ → List (ℕ × Text) → Boundaries → List Event × Boundaries
  | scanAt, [], b => ([],scanBoundaries (slice paragraph.text scanAt lineEnd) b)
  | scanAt, sentence::rest, b =>
    let b' := scanBoundaries (slice paragraph.text scanAt sentence.1) b
    let later := sentenceEvents paragraphIndex paragraph lineEnd sentence.1 rest b'
    ((sentenceEvent paragraphIndex paragraph lineEnd sentence b').toList++later.1,later.2)

def lineEvents (paragraphIndex : ℕ) (paragraph : ParsedParagraph) (override : Option ℕ)
    (lineStart lineEnd : ℕ) (b : Boundaries) : List Event × Boundaries :=
  let override := if lineStart = 0 then override else none
  let first := startEvent paragraph.text (override.getD lineStart) lineEnd b.clear override.isSome
  let later := sentenceEvents paragraphIndex paragraph lineEnd lineStart
    (sentences paragraph.text lineStart lineEnd) b
  (first.toList++later.1,later.2)

/-- The lines from `lineStart` on; a line break is scanned with its line. -/
def linesFrom (paragraphIndex : ℕ) (paragraph : ParsedParagraph) (override : Option ℕ) :
    ℕ → List (ℕ × Match Group) → Boundaries → List Event × Boundaries
  | lineStart, [], b =>
    lineEvents paragraphIndex paragraph override lineStart paragraph.text.length b
  | lineStart, boundary::rest, b =>
    let line := lineEvents paragraphIndex paragraph override lineStart boundary.1 b
    let lineStart' := boundary.1+boundary.2.stop
    let b' := scanBoundaries (slice paragraph.text boundary.1 lineStart') line.2
    let later := linesFrom paragraphIndex paragraph override lineStart' rest b'
    (line.1++later.1,later.2)

def prefixedMarker (prefixed : List PrefixedArticleSpan) (index : ℕ) : Option ℕ :=
  (prefixed.reverse.find? fun span => span.paragraphIndex == index).map
    PrefixedArticleSpan.markerStart

def paragraphEvents (excluded : List ℕ) (prefixed : List PrefixedArticleSpan) (index : ℕ)
    (paragraph : ParsedParagraph) (b : Boundaries) : List Event × Boundaries :=
  if excluded.contains index then ([.barrier],scanBoundaries paragraph.text b)
  else linesFrom index paragraph (prefixedMarker prefixed index) 0
    (findIter lineBreak paragraph.text) b

def eventsFrom (excluded : List ℕ) (prefixed : List PrefixedArticleSpan) :
    ℕ → List ParsedParagraph → Boundaries → List (ℕ × Event)
  | _, [], _ => []
  | index, paragraph::rest, b =>
    let found := paragraphEvents excluded prefixed index paragraph b
    (found.1.map fun e => (index,e))++eventsFrom excluded prefixed (index+1) rest found.2

def locatedEvents (document : ParsedDocument) (excluded : List ℕ)
    (prefixed : List PrefixedArticleSpan) : List (ℕ × Event) :=
  eventsFrom excluded prefixed 0 document.paragraphs .start

def acceptedCandidates (document : ParsedDocument) (excluded : List ℕ)
    (prefixed : List PrefixedArticleSpan) : List Candidate :=
  Numbering.accept Candidate.number ((locatedEvents document excluded prefixed).map Prod.snd)

def detectEmbeddedArticleSpans (document : ParsedDocument) (excluded : List ℕ)
    (prefixed : List PrefixedArticleSpan) : List EmbeddedArticleSpan :=
  (acceptedCandidates document excluded prefixed).map Candidate.span

end LawyerAgent.EmbeddedArticle

namespace LawyerAgent.EmbeddedArticle
open PythonText LegalArticleHeading PrefixedArticle Regex

theorem class_excludes (p : Char → Bool) (stop : Char) (h : p stop = false) :
    ∀ c, p c = true → c ≠ stop := by
  rintro c hc rfl
  rw [h] at hc
  cases hc

theorem heading_over : Pattern.Over (· ≠ '。') articleHeading := by
  have hspace := class_excludes isSpace '。' (by decide)
  have hhorizontal := class_excludes isHorizontal '。' (by decide)
  have hnumeral := class_excludes isNumeral '。' (by decide)
  simpa [articleHeading,articleMarker,Pattern.seqs,spaces,number,horizontalSpace,supplementEnd,
    Pattern.Over,Pattern.plus,Pattern.char] using
    ⟨hspace,⟨hnumeral,hhorizontal,hnumeral⟩,hspace⟩

theorem sentence_match {s : Text} {m : Match Group} (h : match? sentenceBoundary s = some m) :
    s.head? = some '。' ∧ m.stopOf .separator = m.stop := by
  have hm : m ∈ run sentenceBoundary s := List.mem_of_mem_head? h
  obtain ⟨first,hfirst,hm⟩ := List.mem_flatMap.mp hm
  obtain ⟨rest,hrest,rfl⟩ := List.mem_map.mp hm
  obtain ⟨inner,hinner,rfl⟩ := List.mem_map.mp hrest
  cases s with
  | nil => simp [run,Pattern.char] at hfirst
  | cons c s =>
    by_cases hc : c = '。'
    · simp [hc,Match.stopOf,Match.group,Match.andThen,Capture.shift]
    · simp [run,Pattern.char,hc] at hfirst

def StopBetween (text : Text) (i j : ℕ) : Prop :=
  ∃ p, i ≤ p ∧ p < j ∧ text[p]? = some '。'

variable {text : Text} {heading : Match Group} {paragraph : ParsedParagraph}
  {document : ParsedDocument} {excluded : List ℕ} {prefixed : List PrefixedArticleSpan}

theorem slice_head {start stop i : ℕ} {c : Char}
    (h : ((slice text start stop).drop i).head? = some c) : text[start+i]? = some c := by
  rw [List.head?_drop,slice,List.getElem?_drop,List.getElem?_take] at h
  split at h
  · exact h
  · cases h

theorem sentences_bounds {lineStart lineEnd : ℕ} (hline : lineStart ≤ lineEnd)
    (hend : lineEnd ≤ text.length) :
    ∀ s ∈ sentences text lineStart lineEnd,
      StopBetween text lineStart s.1 ∧ s.1 ≤ lineEnd := by
  intro s hs
  obtain ⟨f,hf,rfl⟩ := List.mem_map.mp hs
  obtain ⟨hpos,hmatch,hstop⟩ := findIter_match hf
  have hlength : (slice text lineStart lineEnd).length = lineEnd-lineStart := by
    rw [slice_length]
    omega
  obtain ⟨hhead,hseparator⟩ := sentence_match hmatch
  refine ⟨⟨lineStart+f.1,by omega,?_,?_⟩,?_⟩
  · change lineStart+f.1 < lineStart+f.1+f.2.stopOf .separator
    omega
  · exact slice_head hhead
  · change lineStart+f.1+f.2.stopOf .separator ≤ lineEnd
    omega

theorem sentences_pairwise (text : Text) (lineStart lineEnd : ℕ) :
    (sentences text lineStart lineEnd).Pairwise fun s t => StopBetween text s.1 t.1 := by
  refine List.pairwise_map.mpr ?_
  refine List.Pairwise.imp_of_mem ?_
    (findIter_pairwise sentenceBoundary (slice text lineStart lineEnd))
  intro f g hf hg hfg
  obtain ⟨-,hmatch,-⟩ := findIter_match hf
  have hseparator := (sentence_match hmatch).2
  obtain ⟨hpos',hmatch',hstop'⟩ := findIter_match hg
  obtain ⟨hhead',hseparator'⟩ := sentence_match hmatch'
  refine ⟨lineStart+g.1,?_,?_,?_⟩
  · change lineStart+f.1+f.2.stopOf .separator ≤ lineStart+g.1
    omega
  · change lineStart+g.1 < lineStart+g.1+g.2.stopOf .separator
    omega
  · exact slice_head hhead'

/-- An article heading with this number takes the text from `start` to `stop`. -/
def HeadingAt (text : Text) (start stop number : ℕ) : Prop :=
  ∃ viewEnd heading, viewEnd ≤ text.length ∧ headingAt text start viewEnd = some heading ∧
    stop = start+heading.stop ∧ start < stop ∧ stop ≤ viewEnd ∧
    markerNumber (markerText heading (slice text start viewEnd)) = some number

theorem heading_pos {view : Text} (h : match? articleHeading view = some heading) :
    0 < heading.stop := by
  have hm : heading ∈ run articleHeading view := List.mem_of_mem_head? h
  obtain ⟨first,-,hm⟩ := List.mem_flatMap.mp hm
  obtain ⟨rest,hrest,rfl⟩ := List.mem_map.mp hm
  obtain ⟨marker,hmarker,hrest⟩ := List.mem_flatMap.mp hrest
  obtain ⟨last,-,rfl⟩ := List.mem_map.mp hrest
  obtain ⟨inner,hinner,rfl⟩ := List.mem_map.mp hmarker
  obtain ⟨c,hc,hinner⟩ := List.mem_flatMap.mp hinner
  obtain ⟨tail,-,rfl⟩ := List.mem_map.mp hinner
  have hone : c.stop = 1 := by
    cases hview : (view.drop first.stop) with
    | nil => simp [hview,run,Pattern.char] at hc
    | cons d s =>
      by_cases hd : d = '第'
      · simp [hview,run,Pattern.char,hd] at hc
        simp [hc]
      · simp [hview,run,Pattern.char,hd] at hc
  simp only [Match.andThen]
  omega

theorem heading_place {start viewEnd number : ℕ} (hview : viewEnd ≤ text.length)
    (h : headingAt text start viewEnd = some heading)
    (hnumber : markerNumber (markerText heading (slice text start viewEnd)) = some number) :
    HeadingAt text start (start+heading.stop) number := by
  have hle := (match_within h).stop_le
  have hpos := heading_pos h
  rw [slice_length] at hle
  exact ⟨viewEnd,heading,hview,h,rfl,by omega,by omega,hnumber⟩

theorem heading_before_stop {start stop number p : ℕ} (h : HeadingAt text start stop number)
    (hp : text[p]? = some '。') (hle : start ≤ p) :
    stop ≤ p := by
  obtain ⟨viewEnd,heading,hview,hheading,rfl,-,hstop,-⟩ := h
  by_contra hlt
  have hover := run_over articleHeading heading_over (slice text start viewEnd) heading
    (List.mem_of_mem_head? hheading)
  refine hover '。' (List.mem_iff_getElem?.mpr ⟨p-start,?_⟩) rfl
  rw [List.getElem?_take,if_pos (by omega),slice,List.getElem?_drop,List.getElem?_take,
    if_pos (by omega),show start+(p-start) = p by omega]
  exact hp

theorem candidate_spec {paragraphIndex paragraphOrdinal markerStart lineEnd : ℕ}
    {leftSeparator : Text} {found : Candidate} (hend : lineEnd ≤ text.length)
    (h : embeddedCandidate paragraphIndex paragraphOrdinal text markerStart lineEnd leftSeparator =
      some found) :
    found.span.paragraphIndex = paragraphIndex ∧ found.span.markerStart = markerStart ∧
    ∃ stop, HeadingAt text markerStart stop found.number ∧ stop ≤ lineEnd := by
  unfold embeddedCandidate at h
  split at h
  · cases h
  split at h
  · cases h
  rename_i heading hheading
  split at h
  · cases h
  split at h
  · cases h
  rename_i number hnumber
  cases h
  have hplace := heading_place hend hheading hnumber
  have hle := (match_within hheading).stop_le
  have hpos := heading_pos hheading
  rw [slice_length] at hle
  exact ⟨rfl,rfl,_,hplace,by omega⟩

/-- The heading of `c` ends before the one of `d` starts. -/
def Follows (text : Text) (c d : Candidate) : Prop :=
  c.span.markerStart < d.span.markerStart ∧
  ∃ stop, HeadingAt text c.span.markerStart stop c.number ∧ stop ≤ d.span.markerStart

/-- The candidates among these events lie between two places of the paragraph,
one after the other. -/
structure Local (index : ℕ) (text : Text) (start stop : ℕ) (events : List Event) : Prop where
  candidate : ∀ c, .candidate c ∈ events → c.span.paragraphIndex = index ∧
    start ≤ c.span.markerStart ∧ c.span.markerStart < stop ∧
    ∃ last, HeadingAt text c.span.markerStart last c.number ∧ last ≤ stop
  sorted : events.Pairwise fun x y =>
    ∀ c d, x = .candidate c → y = .candidate d → Follows text c d

theorem local_append {index start middle stop : ℕ} {events later : List Event}
    (h : Local index text start middle events) (hlater : Local index text middle stop later)
    (hstart : start ≤ middle) (hstop : middle ≤ stop) :
    Local index text start stop (events++later) := by
  refine ⟨?_,List.pairwise_append.mpr ⟨h.sorted,hlater.sorted,?_⟩⟩
  · intro c hc
    rcases List.mem_append.mp hc with hc | hc
    · obtain ⟨hindex,hlow,hhigh,last,hplace,hlast⟩ := h.candidate c hc
      exact ⟨hindex,hlow,by omega,last,hplace,by omega⟩
    · obtain ⟨hindex,hlow,hrest⟩ := hlater.candidate c hc
      exact ⟨hindex,by omega,hrest⟩
  · rintro x hx y hy c d rfl rfl
    obtain ⟨-,-,hhigh,last,hplace,hlast⟩ := h.candidate c hx
    obtain ⟨-,hlow,-⟩ := hlater.candidate d hy
    exact ⟨by omega,last,hplace,by omega⟩

theorem local_wider {index start middle stop : ℕ} {events : List Event}
    (h : Local index text middle stop events) (hstart : start ≤ middle) :
    Local index text start stop events := by
  refine ⟨?_,h.sorted⟩
  intro c hc
  obtain ⟨hindex,hlow,hrest⟩ := h.candidate c hc
  exact ⟨hindex,by omega,hrest⟩

theorem local_of_none {index : ℕ} (start stop : ℕ) {event : Option Event}
    (h : ∀ c, event ≠ some (.candidate c)) : Local index text start stop event.toList := by
  refine ⟨?_,?_⟩
  · intro c hc
    exact absurd (Option.mem_toList.mp hc) (h c)
  · cases event <;> simp

theorem barrier_candidate (b : Bool) (c : Candidate) :
    (if b then some (.barrier : Event) else none) ≠ some (.candidate c) := by
  cases b <;> simp

theorem headingEvent_candidate (text : Text) (start stop : ℕ) (heading : Match Group)
    (c : Candidate) : headingEvent text start stop heading ≠ .candidate c := by
  unfold headingEvent
  split
  · simp
  · split <;> simp

theorem startEvent_candidate (text : Text) (start stop : ℕ) (clear accepted : Bool)
    (c : Candidate) : startEvent text start stop clear accepted ≠ some (.candidate c) := by
  intro h
  unfold startEvent at h
  simp only at h
  split at h
  · cases h
  split at h
  · exact barrier_candidate _ c h
  split at h
  · cases h
  split at h
  · exact headingEvent_candidate _ _ _ _ _ (Option.some.inj h)
  · exact barrier_candidate _ c h

theorem sentenceEvent_candidate {index lineEnd : ℕ} {sentence : ℕ × Text} {b : Boundaries}
    {c : Candidate} (h : sentenceEvent index paragraph lineEnd sentence b = some (.candidate c)) :
    embeddedCandidate index paragraph.ordinal paragraph.text sentence.1 lineEnd sentence.2 =
      some c := by
  unfold sentenceEvent at h
  split at h
  · rename_i candidate hcandidate
    split at h
    · cases h
      exact hcandidate
    · split at h <;> cases h
  · split at h <;> cases h

theorem sentenceEvents_mem (index : ℕ) (paragraph : ParsedParagraph) (lineEnd scanAt : ℕ)
    (ends : List (ℕ × Text)) (b : Boundaries) {c : Candidate}
    (h : .candidate c ∈ (sentenceEvents index paragraph lineEnd scanAt ends b).1) :
    ∃ sentence ∈ ends, embeddedCandidate index paragraph.ordinal paragraph.text sentence.1
      lineEnd sentence.2 = some c := by
  induction ends generalizing scanAt b with
  | nil => simp [sentenceEvents] at h
  | cons sentence ends ih =>
    rcases List.mem_append.mp h with h | h
    · exact ⟨sentence,List.mem_cons_self,sentenceEvent_candidate (Option.mem_toList.mp h)⟩
    · obtain ⟨s,hs,hcandidate⟩ := ih _ _ h
      exact ⟨s,List.mem_cons_of_mem _ hs,hcandidate⟩

theorem sentenceEvents_sorted (index : ℕ) (paragraph : ParsedParagraph) {lineEnd : ℕ}
    (hend : lineEnd ≤ paragraph.text.length) (scanAt : ℕ) (ends : List (ℕ × Text))
    (hends : ends.Pairwise fun s t => StopBetween paragraph.text s.1 t.1) (b : Boundaries) :
    (sentenceEvents index paragraph lineEnd scanAt ends b).1.Pairwise fun x y =>
      ∀ c d, x = .candidate c → y = .candidate d → Follows paragraph.text c d := by
  induction ends generalizing scanAt b with
  | nil => exact List.Pairwise.nil
  | cons sentence ends ih =>
    obtain ⟨hfirst,hrest⟩ := List.pairwise_cons.mp hends
    refine List.pairwise_append.mpr ⟨?_,ih _ hrest _,?_⟩
    · cases sentenceEvent index paragraph lineEnd sentence _ <;> simp
    · rintro x hx y hy c d rfl rfl
      obtain ⟨s,hs,hd⟩ := sentenceEvents_mem _ _ _ _ _ _ hy
      obtain ⟨-,hcstart,stop,hplace,-⟩ :=
        candidate_spec hend (sentenceEvent_candidate (Option.mem_toList.mp hx))
      obtain ⟨-,hdstart,-⟩ := candidate_spec hend hd
      obtain ⟨p,hle,hlt,hp⟩ := hfirst s hs
      have hstop := heading_before_stop hplace hp hle
      rw [Follows,hcstart,hdstart]
      exact ⟨by omega,stop,hplace,by omega⟩

theorem lineEvents_local (index : ℕ) (paragraph : ParsedParagraph) (override : Option ℕ)
    {lineStart lineEnd : ℕ} (hline : lineStart ≤ lineEnd)
    (hend : lineEnd ≤ paragraph.text.length) (b : Boundaries) :
    Local index paragraph.text lineStart lineEnd
      (lineEvents index paragraph override lineStart lineEnd b).1 := by
  refine local_append (local_of_none lineStart lineStart (startEvent_candidate _ _ _ _ _)) ?_
    (Nat.le_refl _) hline
  refine ⟨?_,sentenceEvents_sorted index paragraph hend _ _ (sentences_pairwise _ _ _) b⟩
  intro c hc
  obtain ⟨s,hs,hcandidate⟩ := sentenceEvents_mem _ _ _ _ _ _ hc
  obtain ⟨hindex,hstart,stop,hplace,hstop⟩ := candidate_spec hend hcandidate
  obtain ⟨⟨p,hp,hlt,-⟩,-⟩ := sentences_bounds hline hend s hs
  obtain ⟨-,-,-,-,-,hpos,-⟩ := id hplace
  rw [hstart]
  exact ⟨hindex,by omega,by omega,stop,hplace,hstop⟩

theorem linesFrom_local (index : ℕ) (paragraph : ParsedParagraph) (override : Option ℕ)
    (boundaries : List (ℕ × Match Group)) {lineStart : ℕ}
    (hstart : lineStart ≤ paragraph.text.length)
    (hbounds : ∀ f ∈ boundaries, lineStart ≤ f.1 ∧ f.1+f.2.stop ≤ paragraph.text.length)
    (hsorted : boundaries.Pairwise fun f g => f.1+f.2.stop ≤ g.1) (b : Boundaries) :
    Local index paragraph.text lineStart paragraph.text.length
      (linesFrom index paragraph override lineStart boundaries b).1 := by
  induction boundaries generalizing lineStart b with
  | nil => exact lineEvents_local index paragraph override hstart (Nat.le_refl _) b
  | cons boundary boundaries ih =>
    obtain ⟨hfirst,hrest⟩ := List.pairwise_cons.mp hsorted
    have hboundary := hbounds boundary List.mem_cons_self
    refine local_append (lineEvents_local index paragraph override hboundary.1 (by omega) b)
      (local_wider (ih hboundary.2 ?_ hrest _) (by omega)) hboundary.1 (by omega)
    intro f hf
    exact ⟨hfirst f hf,(hbounds f (List.mem_cons_of_mem _ hf)).2⟩

theorem paragraphEvents_local (excluded : List ℕ) (prefixed : List PrefixedArticleSpan)
    (index : ℕ) (paragraph : ParsedParagraph) (b : Boundaries) :
    Local index paragraph.text 0 paragraph.text.length
      (paragraphEvents excluded prefixed index paragraph b).1 := by
  unfold paragraphEvents
  split
  · exact ⟨by simp,by simp⟩
  · refine linesFrom_local index paragraph _ _ (Nat.zero_le _) ?_
      (findIter_pairwise lineBreak paragraph.text) b
    intro f hf
    exact ⟨Nat.zero_le _,(findIter_match hf).2.2⟩

theorem skipWhitespace_slice (text : Text) (start stop : ℕ) :
    slice text start (skipWhitespace text start stop) =
      (slice text start stop).takeWhile isSpace := by
  have hfront := List.takeWhile_prefix isSpace (l := slice text start stop)
  have htake := List.prefix_iff_eq_take.mp hfront
  have hlength := hfront.length_le
  rw [slice_length] at hlength
  unfold skipWhitespace
  generalize ((slice text start stop).takeWhile isSpace).length = k at htake hlength ⊢
  rw [htake]
  by_cases hnone : k = 0
  · simp [slice,hnone]
  · rw [slice,slice,List.take_drop,List.take_take,Nat.min_eq_left (by omega)]

theorem skipWhitespace_spaces (text : Text) (start stop : ℕ) :
    ∀ c ∈ slice text start (skipWhitespace text start stop), isSpace c = true := by
  rw [skipWhitespace_slice]
  exact fun c hc => List.mem_takeWhile_imp hc

/-- Blanks and marks stand between `base` and a heading that takes the text from
`start` to `stop`. -/
def OpensLine (text : Text) (base start stop number : ℕ) : Prop :=
  (∀ c ∈ slice text base start, isSpace c = true ∨ c = markCharacter) ∧
  HeadingAt text start stop number

theorem headingEvent_anchor {start stop number : ℕ} (hstop : stop ≤ text.length)
    (hheading : headingAt text start stop = some heading)
    (h : headingEvent text start stop heading = .anchor number) :
    HeadingAt text start (start+heading.stop) number := by
  unfold headingEvent at h
  split at h
  · cases h
  split at h
  · rename_i n hn
    cases h
    exact heading_place hstop hheading hn
  · cases h

theorem barrier_anchor (b : Bool) (number : ℕ) :
    (if b then some (.barrier : Event) else none) ≠ some (.anchor number) := by
  cases b <;> simp

theorem skip_mark {start stop : ℕ} (h : startsWith text markCharacter start stop = true) :
    ∀ c ∈ slice text start (skipWhitespace text (start+1) stop),
      isSpace c = true ∨ c = markCharacter := by
  intro c hc
  have hle : start+1 ≤ skipWhitespace text (start+1) stop := Nat.le_add_right _ _
  rw [← slice_append text (Nat.le_succ start) hle] at hc
  rcases List.mem_append.mp hc with hc | hc
  · have hhead : text[start]? = some markCharacter := by
      have := slice_head (i := 0) (by simpa [startsWith] using h)
      simpa using this
    obtain ⟨i,hi⟩ := List.mem_iff_getElem?.mp hc
    rw [slice,List.getElem?_drop,List.getElem?_take] at hi
    split at hi
    · obtain rfl : i = 0 := by omega
      exact .inr (Option.some.inj (hi.symm.trans hhead))
    · cases hi
  · exact .inl (skipWhitespace_spaces text (start+1) stop c hc)

theorem startEvent_anchor {base stop number : ℕ} {clear accepted : Bool}
    (hstop : stop ≤ text.length)
    (h : startEvent text base stop clear accepted = some (.anchor number)) :
    ∃ start last, OpensLine text base start last number := by
  unfold startEvent at h
  simp only at h
  split at h
  · cases h
  split at h
  · exact absurd h (barrier_anchor _ number)
  have hle : (trimBounds text base stop).2 ≤ text.length :=
    Nat.le_trans (Nat.sub_le _ _) hstop
  have hfirst : ∀ c ∈ slice text base (trimBounds text base stop).1, isSpace c = true :=
    skipWhitespace_spaces text base stop
  split at h
  · cases h
  split at h
  · rename_i heading hheading
    refine ⟨_,_,?_,headingEvent_anchor hle hheading (Option.some.inj h)⟩
    split
    · rename_i hmarked
      intro c hc
      have hbase : base ≤ (trimBounds text base stop).1 := Nat.le_add_right _ _
      have hskip : (trimBounds text base stop).1 ≤
          skipWhitespace text ((trimBounds text base stop).1+1) (trimBounds text base stop).2 :=
        Nat.le_trans (Nat.le_succ _) (Nat.le_add_right _ _)
      rw [← slice_append text hbase hskip] at hc
      rcases List.mem_append.mp hc with hc | hc
      · exact .inl (hfirst c hc)
      · exact skip_mark hmarked c hc
    · exact fun c hc => .inl (hfirst c hc)
  · exact absurd h (barrier_anchor _ number)

theorem sentenceEvent_anchor (index lineEnd : ℕ) (paragraph : ParsedParagraph)
    (sentence : ℕ × Text) (b : Boundaries) (number : ℕ) :
    sentenceEvent index paragraph lineEnd sentence b ≠ some (.anchor number) := by
  unfold sentenceEvent
  split
  · split
    · simp
    · exact barrier_anchor _ number
  · exact barrier_anchor _ number

theorem sentenceEvents_anchor (index : ℕ) (paragraph : ParsedParagraph) (lineEnd scanAt : ℕ)
    (ends : List (ℕ × Text)) (b : Boundaries) (number : ℕ) :
    .anchor number ∉ (sentenceEvents index paragraph lineEnd scanAt ends b).1 := by
  induction ends generalizing scanAt b with
  | nil => simp [sentenceEvents]
  | cons sentence ends ih =>
    intro h
    rcases List.mem_append.mp h with h | h
    · exact sentenceEvent_anchor _ _ _ _ _ _ (Option.mem_toList.mp h)
    · exact ih _ _ h

def lineBounds (text : Text) : ℕ → List (ℕ × Match Group) → List (ℕ × ℕ)
  | lineStart, [] => [(lineStart,text.length)]
  | lineStart, boundary::rest =>
    (lineStart,boundary.1)::lineBounds text (boundary.1+boundary.2.stop) rest

/-- A heading opens the line, or follows the accepted prefix of the first line. -/
def OpensSome (text : Text) (override : Option ℕ) (lines : List (ℕ × ℕ)) (number : ℕ) : Prop :=
  ∃ line ∈ lines, ∃ base start stop, (base = line.1 ∨ line.1 = 0 ∧ override = some base) ∧
    OpensLine text base start stop number

theorem lineEvents_anchor {index lineStart lineEnd number : ℕ} {override : Option ℕ}
    {b : Boundaries} (hend : lineEnd ≤ paragraph.text.length)
    (h : .anchor number ∈ (lineEvents index paragraph override lineStart lineEnd b).1) :
    OpensSome paragraph.text override [(lineStart,lineEnd)] number := by
  rcases List.mem_append.mp h with h | h
  · obtain ⟨start,stop,hopens⟩ := startEvent_anchor hend (Option.mem_toList.mp h)
    refine ⟨_,List.mem_singleton_self _,_,start,stop,?_,hopens⟩
    by_cases hfirst : lineStart = 0
    · cases override with
      | none => exact .inl (by simp [hfirst])
      | some base => exact .inr ⟨hfirst,by simp [hfirst]⟩
    · exact .inl (by simp [hfirst])
  · exact absurd h (sentenceEvents_anchor _ _ _ _ _ _ _)

theorem linesFrom_anchor {index number : ℕ} {override : Option ℕ}
    (boundaries : List (ℕ × Match Group)) (lineStart : ℕ)
    (hbounds : ∀ f ∈ boundaries, f.1+f.2.stop ≤ paragraph.text.length) (b : Boundaries)
    (h : .anchor number ∈ (linesFrom index paragraph override lineStart boundaries b).1) :
    OpensSome paragraph.text override (lineBounds paragraph.text lineStart boundaries) number := by
  induction boundaries generalizing lineStart b with
  | nil => exact lineEvents_anchor (Nat.le_refl _) h
  | cons boundary boundaries ih =>
    rcases List.mem_append.mp h with h | h
    · have hboundary := hbounds boundary List.mem_cons_self
      obtain ⟨line,hline,hopens⟩ := lineEvents_anchor (by omega) h
      exact ⟨line,List.mem_cons.mpr (.inl (List.mem_singleton.mp hline)),hopens⟩
    · obtain ⟨line,hline,hopens⟩ :=
        ih _ (fun f hf => hbounds f (List.mem_cons_of_mem _ hf)) _ h
      exact ⟨line,List.mem_cons_of_mem _ hline,hopens⟩

theorem eventsFrom_spec (excluded : List ℕ) (prefixed : List PrefixedArticleSpan) (index : ℕ)
    (paragraphs : List ParsedParagraph) (b : Boundaries) :
    ∀ located ∈ eventsFrom excluded prefixed index paragraphs b,
      ∃ k paragraph b', located.1 = index+k ∧ paragraphs[k]? = some paragraph ∧
        located.2 ∈ (paragraphEvents excluded prefixed (index+k) paragraph b').1 := by
  induction paragraphs generalizing index b with
  | nil => simp [eventsFrom]
  | cons paragraph paragraphs ih =>
    intro located hmem
    rcases List.mem_append.mp hmem with h | h
    · obtain ⟨e,he,rfl⟩ := List.mem_map.mp h
      exact ⟨0,paragraph,b,rfl,rfl,he⟩
    · obtain ⟨k,p,b',hindex,hk,hevent⟩ := ih _ _ located h
      refine ⟨k+1,p,b',by omega,hk,?_⟩
      rwa [show index+(k+1) = index+1+k by omega]

/-- The order of the events: paragraph by paragraph, and inside a paragraph each
heading ends before the next candidate. -/
def Ordered (document : ParsedDocument) (x y : ℕ × Event) : Prop :=
  x.1 < y.1 ∨ x.1 = y.1 ∧ ∀ paragraph, document.paragraphs[x.1]? = some paragraph →
    ∀ c d, x.2 = .candidate c → y.2 = .candidate d → Follows paragraph.text c d

theorem eventsFrom_ordered (document : ParsedDocument) (excluded : List ℕ)
    (prefixed : List PrefixedArticleSpan) (index : ℕ) (paragraphs : List ParsedParagraph)
    (hparagraphs : document.paragraphs.drop index = paragraphs) (b : Boundaries) :
    (eventsFrom excluded prefixed index paragraphs b).Pairwise (Ordered document) := by
  induction paragraphs generalizing index b with
  | nil => exact List.Pairwise.nil
  | cons paragraph paragraphs ih =>
    have hfirst : document.paragraphs[index]? = some paragraph := by
      rw [← List.head?_drop,hparagraphs]
      rfl
    have hrest : document.paragraphs.drop (index+1) = paragraphs := by
      rw [← List.drop_drop,hparagraphs]
      rfl
    refine List.pairwise_append.mpr ⟨?_,ih _ hrest _,?_⟩
    · refine List.pairwise_map.mpr ?_
      refine (paragraphEvents_local excluded prefixed index paragraph b).sorted.imp ?_
      intro x y hxy
      refine .inr ⟨rfl,fun p hp => ?_⟩
      obtain rfl : paragraph = p := Option.some.inj (hfirst.symm.trans hp)
      exact hxy
    · intro x hx y hy
      obtain ⟨e,-,rfl⟩ := List.mem_map.mp hx
      obtain ⟨k,-,-,hindex,-⟩ := eventsFrom_spec _ _ _ _ _ y hy
      refine .inl ?_
      change index < y.1
      omega

theorem located_ordered (document : ParsedDocument) (excluded : List ℕ)
    (prefixed : List PrefixedArticleSpan) :
    (locatedEvents document excluded prefixed).Pairwise (Ordered document) :=
  eventsFrom_ordered document excluded prefixed 0 document.paragraphs rfl .start

theorem located_spec (document : ParsedDocument) (excluded : List ℕ)
    (prefixed : List PrefixedArticleSpan) :
    ∀ located ∈ locatedEvents document excluded prefixed, ∃ paragraph b,
      document.paragraphs[located.1]? = some paragraph ∧
      located.2 ∈ (paragraphEvents excluded prefixed located.1 paragraph b).1 := by
  intro located hmem
  obtain ⟨k,paragraph,b,hindex,hk,hevent⟩ := eventsFrom_spec _ _ _ _ _ located hmem
  rw [Nat.zero_add] at hindex hevent
  exact ⟨paragraph,b,hindex ▸ hk,hindex ▸ hevent⟩

/-- An ordinary article with this number opens a line of the paragraph. -/
def StandaloneLine (document : ParsedDocument) (excluded : List ℕ)
    (prefixed : List PrefixedArticleSpan) (index number : ℕ) : Prop :=
  ∃ paragraph, document.paragraphs[index]? = some paragraph ∧ index ∉ excluded ∧
    OpensSome paragraph.text (prefixedMarker prefixed index)
      (lineBounds paragraph.text 0 (findIter lineBreak paragraph.text)) number

theorem anchor_standalone {index number : ℕ}
    (h : (index,.anchor number) ∈ locatedEvents document excluded prefixed) :
    StandaloneLine document excluded prefixed index number := by
  obtain ⟨paragraph,b,hparagraph,hevent⟩ := located_spec document excluded prefixed _ h
  unfold paragraphEvents at hevent
  split at hevent
  · simp at hevent
  · rename_i hexcluded
    refine ⟨paragraph,hparagraph,by simpa using hexcluded,?_⟩
    exact linesFrom_anchor _ 0 (fun f hf => (findIter_match hf).2.2) b hevent

/-- Two ordinary articles stand around the run at the start of lines. Between
them there is no event but the run's own, so no barrier, and no paragraph from
the first to the last is excluded. Inside an open quotation only the heading of
an article is a barrier to this detector. -/
def Enclosed (document : ParsedDocument) (excluded : List ℕ) (prefixed : List PrefixedArticleSpan)
    (r : Numbering.Run Candidate) : Prop :=
  ∃ left right, r.Enclosed (locatedEvents document excluded prefixed) left right ∧
    StandaloneLine document excluded prefixed left r.left ∧
    StandaloneLine document excluded prefixed right r.right ∧
    (∀ c ∈ r.items, left ≤ c.span.paragraphIndex ∧ c.span.paragraphIndex ≤ right) ∧
    ∀ i, i < document.paragraphs.length → left ≤ i → i ≤ right → i ∉ excluded

theorem candidate_located {index : ℕ} {c : Candidate}
    (h : (index,.candidate c) ∈ locatedEvents document excluded prefixed) :
    c.span.paragraphIndex = index ∧ ∃ paragraph,
      document.paragraphs[index]? = some paragraph ∧ ∃ stop,
        HeadingAt paragraph.text c.span.markerStart stop c.number ∧
        stop ≤ paragraph.text.length := by
  obtain ⟨paragraph,b,hparagraph,hevent⟩ := located_spec document excluded prefixed _ h
  obtain ⟨hindex,-,-,hplace⟩ :=
    (paragraphEvents_local excluded prefixed index paragraph b).candidate c hevent
  exact ⟨hindex,paragraph,hparagraph,hplace⟩

theorem excluded_event (excluded : List ℕ) (prefixed : List PrefixedArticleSpan) (index : ℕ)
    (paragraphs : List ParsedParagraph) (b : Boundaries) {k : ℕ} (hk : k < paragraphs.length)
    (hexcluded : index+k ∈ excluded) :
    (index+k,.barrier) ∈ eventsFrom excluded prefixed index paragraphs b := by
  induction paragraphs generalizing index b k with
  | nil => simp at hk
  | cons first paragraphs ih =>
    cases k with
    | zero =>
      refine List.mem_append_left _ (List.mem_map.mpr ⟨.barrier,?_,rfl⟩)
      simp [paragraphEvents,show index ∈ excluded from hexcluded]
    | succ k =>
      rw [show index+(k+1) = index+1+k by omega] at hexcluded ⊢
      exact List.mem_append_right _ (ih _ _ (by simpa using hk) hexcluded)

theorem run_enclosed {r : Numbering.Run Candidate} {left right : ℕ}
    (h : r.Enclosed (locatedEvents document excluded prefixed) left right) :
    Enclosed document excluded prefixed r := by
  have hsorted : (locatedEvents document excluded prefixed).Pairwise fun x y => x.1 ≤ y.1 := by
    refine (located_ordered document excluded prefixed).imp ?_
    rintro x y (hlt | ⟨heq,-⟩) <;> omega
  have hanchors := Numbering.enclosed_anchors h
  have hleft := anchor_standalone hanchors.1
  have hright := anchor_standalone hanchors.2
  refine ⟨left,right,h,hleft,hright,?_,?_⟩
  · intro c hc
    obtain ⟨k,hk,hlk,hkr⟩ := Numbering.enclosed_items h hsorted c hc
    rw [(candidate_located hk).1]
    exact ⟨hlk,hkr⟩
  · intro i hi hli hir hexcluded
    have hbarrier := excluded_event excluded prefixed 0 document.paragraphs .start hi
      (by simpa using hexcluded)
    rw [Nat.zero_add] at hbarrier
    by_cases hleft' : i = left
    · obtain ⟨-,-,hnot,-⟩ := hleft
      exact hnot (hleft' ▸ hexcluded)
    by_cases hright' : i = right
    · obtain ⟨-,-,hnot,-⟩ := hright
      exact hnot (hright' ▸ hexcluded)
    obtain ⟨c,-,hc⟩ :=
      Numbering.enclosed_between h hsorted hbarrier (by omega) (by omega)
    cases hc

theorem accepted_runs (document : ParsedDocument) (excluded : List ℕ)
    (prefixed : List PrefixedArticleSpan) :
    ∃ runs : List (Numbering.Run Candidate),
      acceptedCandidates document excluded prefixed = runs.flatMap Numbering.Run.items ∧
      ∀ r ∈ runs, r.Exact Candidate.number ∧ Enclosed document excluded prefixed r := by
  obtain ⟨runs,haccepted,hruns⟩ :=
    Numbering.accept_runs Candidate.number (locatedEvents document excluded prefixed)
  refine ⟨runs,haccepted,fun r hr => ⟨(hruns r hr).1,?_⟩⟩
  obtain ⟨i,j,henclosed⟩ := (hruns r hr).2
  exact run_enclosed henclosed

end LawyerAgent.EmbeddedArticle
