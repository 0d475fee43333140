import LawyerAgent.LegalStructureParser

/-!
# Offsets of parsed articles

The segments of a document, put together, are its normalized text. Splitting a
segment loses nothing, and the loop that builds the articles counts along: an
article is the part of the normalized text between its offsets.
-/

set_option autoImplicit false

namespace LawyerAgent.LegalStructureParser
open PythonText LegalArticleHeading Regex
open EmbeddedArticle (EmbeddedArticleSpan)
open SpacedArticle (SpacedArticleSpan)
open LeadingTitle (detectLeadingTitleSpans)

def segmentText (segments : List ArticleSegment) : Text := segments.flatMap ArticleSegment.text

def normalizedText (profile : Option String) (document : ParsedDocument) : Text :=
  segmentText (documentSegments profile document).1

theorem slice_to_end (s : Text) (start : ℕ) : slice s start s.length = s.drop start := by
  simp [slice]

theorem pieces_flatten (s : Text) (cuts : List ℕ) {start : ℕ} (hstart : start ≤ s.length)
    (hsorted : cuts.Pairwise (· ≤ ·)) (hlow : ∀ c ∈ cuts, start ≤ c)
    (hhigh : ∀ c ∈ cuts, c ≤ s.length) :
    (((start::cuts).zip (cuts++[s.length])).flatMap fun p => slice s p.1 p.2) = s.drop start := by
  induction cuts generalizing start with
  | nil => simp [slice_to_end]
  | cons c cuts ih =>
    obtain ⟨hfirst,hrest⟩ := List.pairwise_cons.mp hsorted
    have hc := hhigh c List.mem_cons_self
    have htail := ih hc hrest hfirst fun d hd => hhigh d (List.mem_cons_of_mem _ hd)
    rw [List.cons_append,List.zip_cons_cons,List.flatMap_cons,htail,← slice_to_end,
      ← slice_to_end,slice_append s (hlow c List.mem_cons_self) hc]

def Increasing (embedded : List EmbeddedArticleSpan) : Prop :=
  embedded.Pairwise fun a b => a.markerStart ≤ b.markerStart

variable {embedded : List EmbeddedArticleSpan} {text : Text} {repeatedItemReferences : Bool}
  {s : ParseState}

theorem cuts_sorted (h : Increasing embedded) (normalizedStart length : ℕ) :
    (cutsOf normalizedStart length embedded).Pairwise (· ≤ ·) := by
  refine List.pairwise_map.mpr ((h.filter _).imp ?_)
  intro a b hab
  omega

theorem cuts_inside {normalizedStart length : ℕ} :
    ∀ c ∈ cutsOf normalizedStart length embedded, c ≤ length := by
  intro c hc
  obtain ⟨span,hspan,rfl⟩ := List.mem_map.mp hc
  have hinside := (List.mem_filter.mp hspan).2
  simp only [Bool.and_eq_true,decide_eq_true_eq] at hinside
  omega

theorem split_lossless (h : Increasing embedded) (text : Text) (rawStart rawEnd : ℕ)
    (classificationStart : Option ℕ) (spacedMarker : Option SpacedArticleSpan) :
    segmentText (splitNormalizedSegment text rawStart rawEnd classificationStart embedded
      spacedMarker) = strip (slice text rawStart rawEnd) := by
  unfold splitNormalizedSegment
  simp only
  split
  · rename_i hempty
    rw [hempty]
    rfl
  · generalize strip (slice text rawStart rawEnd) = normalized
    generalize rawStart+leadingSpaces (slice text rawStart rawEnd) = normalizedStart
    have hpieces := pieces_flatten normalized (cutsOf normalizedStart normalized.length embedded)
      (Nat.zero_le _) (cuts_sorted h _ _) (fun c _ => Nat.zero_le c) cuts_inside
    rw [List.drop_zero] at hpieces
    rw [segmentText,List.flatMap_map]
    generalize (0::cutsOf normalizedStart normalized.length embedded).zip
      (cutsOf normalizedStart normalized.length embedded++[normalized.length]) = pieces at hpieces ⊢
    refine Eq.trans ?_ hpieces
    conv_rhs => rw [← List.zipIdx_map_fst 0 pieces,List.flatMap_map]

/-- The normalized segments of a paragraph before any is split. -/
def normalizedSegments (repeatedItemReferences : Bool) (markers : Markers) (index : ℕ)
    (paragraph : ParsedParagraph) : List Text :=
  if markers.titles.contains index then [strip paragraph.text]
  else (bodyBounds repeatedItemReferences paragraph).1.map fun bounds =>
    strip (slice paragraph.text bounds.1 bounds.2)

def Markers.Increasing (markers : Markers) : Prop :=
  ∀ index, LegalStructureParser.Increasing (embeddedIn markers.embedded index)

theorem segmentText_append (segments later : List ArticleSegment) :
    segmentText (segments++later) = segmentText segments++segmentText later :=
  List.flatMap_append

variable {markers : Markers}

theorem paragraph_text (repeatedItemReferences : Bool) (h : markers.Increasing) (index : ℕ)
    (paragraph : ParsedParagraph) :
    segmentText (paragraphSegments repeatedItemReferences markers index paragraph).1 =
      (normalizedSegments repeatedItemReferences markers index paragraph).flatten := by
  unfold paragraphSegments normalizedSegments
  split
  · simp [segmentText]
  · simp only
    induction (bodyBounds repeatedItemReferences paragraph).1 with
    | nil => rfl
    | cons bounds rest ih =>
      rw [List.flatMap_cons,segmentText_append,ih,splitSegment,split_lossless (h index)]
      rfl

theorem articleSegments_text (repeatedItemReferences : Bool) (h : markers.Increasing) (index : ℕ)
    (paragraphs : List ParsedParagraph)
    (hok : (articleSegments repeatedItemReferences markers index paragraphs).2 = none) :
    segmentText (articleSegments repeatedItemReferences markers index paragraphs).1 =
      ((paragraphs.zipIdx index).flatMap fun p =>
        normalizedSegments repeatedItemReferences markers p.2 p.1).flatten := by
  induction paragraphs generalizing index with
  | nil => rfl
  | cons paragraph paragraphs ih =>
    rw [articleSegments] at hok ⊢
    cases hfound : (paragraphSegments repeatedItemReferences markers index paragraph).2 with
    | some error => simp [hfound] at hok
    | none =>
      simp only [hfound] at hok ⊢
      rw [segmentText_append,paragraph_text repeatedItemReferences h,ih (index+1) hok]
      simp

theorem markers_increasing (profile : Option String) (document : ParsedDocument) :
    (markersOf profile document).Increasing := by
  intro index
  unfold markersOf
  split
  · obtain ⟨runs,hspans,hruns⟩ := ArticleRuns.embedded_runs document
      ((detectLeadingTitleSpans document).map LeadingTitle.LeadingTitleSpan.paragraphIndex)
      (PrefixedArticle.detectPrefixedArticleSpans document
        ((detectLeadingTitleSpans document).map LeadingTitle.LeadingTitleSpan.paragraphIndex))
    simp only [embeddedIn,hspans]
    have hsorted := (List.pairwise_map.mpr (hruns.ordered.imp fun {c d} hcd =>
      show c.span.paragraphIndex = d.span.paragraphIndex → c.span.markerStart ≤ d.span.markerStart
        from fun heq => by
          rcases hcd with hlt | ⟨_,_,_,hfollows⟩
          · omega
          · exact Nat.le_of_lt hfollows.1) :
      ((runs.flatMap Numbering.Run.items).map EmbeddedArticle.Candidate.span).Pairwise
        fun a b => a.paragraphIndex = b.paragraphIndex → a.markerStart ≤ b.markerStart)
    refine List.Pairwise.imp_of_mem ?_ (hsorted.filter fun span => span.paragraphIndex == index)
    intro a b ha hb hab
    have ha' := (List.mem_filter.mp ha).2
    have hb' := (List.mem_filter.mp hb).2
    simp only [beq_iff_eq] at ha' hb'
    exact hab (ha'.trans hb'.symm)
  · exact List.Pairwise.nil

theorem strip_eq_nil : strip text = [] ↔ ∀ c ∈ text, isSpace c = true := by
  rw [strip,List.rdropWhile_eq_nil_iff]
  constructor
  · intro h
    rw [← List.dropWhile_eq_nil_iff]
    by_contra hne
    have hfalse := List.head_dropWhile_not isSpace hne
    rw [h _ (List.head_mem hne)] at hfalse
    cases hfalse
  · exact fun h c hc => h c ((List.dropWhile_sublist _).subset hc)

theorem blank_segments {paragraphText : Text} (h : strip paragraphText = []) (rawStart rawEnd : ℕ)
    (classificationStart : Option ℕ) (embedded : List EmbeddedArticleSpan)
    (spacedMarker : Option SpacedArticleSpan) :
    splitNormalizedSegment paragraphText rawStart rawEnd classificationStart embedded spacedMarker
      = [] := by
  have hraw : strip (slice paragraphText rawStart rawEnd) = [] :=
    strip_eq_nil.mpr fun c hc => strip_eq_nil.mp h c (mem_of_mem_slice hc)
  simp [splitNormalizedSegment,hraw]

theorem split_not_title {paragraphText : Text} {rawStart rawEnd : ℕ}
    {classificationStart : Option ℕ} {spacedMarker : Option SpacedArticleSpan} :
    ∀ segment ∈ splitNormalizedSegment paragraphText
      rawStart rawEnd classificationStart embedded spacedMarker, segment.isTitle = false := by
  intro segment hmem
  unfold splitNormalizedSegment at hmem
  simp only at hmem
  split at hmem
  · simp at hmem
  · obtain ⟨piece,-,rfl⟩ := List.mem_map.mp hmem
    rfl

theorem body_not_title {index : ℕ} {paragraph : ParsedParagraph} (h : index ∉ markers.titles) :
    ∀ segment ∈
      (paragraphSegments repeatedItemReferences markers index paragraph).1,
      segment.isTitle = false := by
  intro segment hmem
  unfold paragraphSegments at hmem
  rw [if_neg (by simpa using h)] at hmem
  obtain ⟨bounds,-,hsegment⟩ := List.mem_flatMap.mp hmem
  exact split_not_title segment hsegment

theorem blank_body {index : ℕ} {paragraph : ParsedParagraph} (h : index ∉ markers.titles)
    (hblank : strip paragraph.text = []) :
    (paragraphSegments repeatedItemReferences markers index paragraph).1 = [] := by
  unfold paragraphSegments
  rw [if_neg (by simpa using h)]
  simp [splitSegment,blank_segments hblank]

/-- Title segments are followed by segments of the body only. -/
def TitlesFirst (segments : List ArticleSegment) : Prop :=
  ∃ titles body, segments = titles++body ∧ (∀ s ∈ titles, s.isTitle = true) ∧
    ∀ s ∈ body, s.isTitle = false

def TitlesFrom (titles : List ℕ) (index : ℕ) (paragraphs : List ParsedParagraph) : Prop :=
  ∃ count, ∀ i, index ≤ i → (i ∈ titles ↔
    i ∈ (((paragraphs.zipIdx index).filter LeadingTitle.isNonempty).take count).map Prod.snd)

theorem body_only (repeatedItemReferences : Bool) {index : ℕ} (paragraphs : List ParsedParagraph)
    (h : ∀ i, index ≤ i → i ∉ markers.titles) :
    ∀ s ∈ (articleSegments repeatedItemReferences markers index paragraphs).1,
      s.isTitle = false := by
  induction paragraphs generalizing index with
  | nil => simp [articleSegments]
  | cons paragraph paragraphs ih =>
    intro s hs
    have hfirst : ∀ s ∈ (paragraphSegments repeatedItemReferences markers index paragraph).1,
        s.isTitle = false := body_not_title (h index (Nat.le_refl _))
    rw [articleSegments] at hs
    split at hs
    · exact hfirst s hs
    · rcases List.mem_append.mp hs with hs | hs
      · exact hfirst s hs
      · exact ih (fun i hi => h i (by omega)) s hs

theorem later_index {index i : ℕ} {paragraphs : List ParsedParagraph} {count : ℕ}
    (h : i ∈ (((paragraphs.zipIdx index).filter LeadingTitle.isNonempty).take count).map
      Prod.snd) : index ≤ i := by
  obtain ⟨p,hp,rfl⟩ := List.mem_map.mp h
  have hmem := (List.mem_filter.mp (List.mem_of_mem_take hp)).1
  exact List.le_snd_of_mem_zipIdx hmem

theorem segments_titlesFirst (repeatedItemReferences : Bool) (index : ℕ)
    (paragraphs : List ParsedParagraph) (h : TitlesFrom markers.titles index paragraphs) :
    TitlesFirst (articleSegments repeatedItemReferences markers index paragraphs).1 := by
  induction paragraphs generalizing index with
  | nil => exact ⟨[],[],rfl,by simp,by simp⟩
  | cons paragraph paragraphs ih =>
    obtain ⟨count,hcount⟩ := h
    rw [List.zipIdx_cons,List.filter_cons] at hcount
    by_cases hblank : strip paragraph.text = []
    · -- A blank paragraph is no title and has no segment.
      have hempty : LeadingTitle.isNonempty (paragraph,index) = false := by
        simp [LeadingTitle.isNonempty,hblank]
      simp only [hempty] at hcount
      have hnot : index ∉ markers.titles := fun hmem => by
        have := later_index ((hcount index (Nat.le_refl _)).mp hmem)
        omega
      have hlater := ih (index+1) ⟨count,fun i hi => hcount i (by omega)⟩
      rw [articleSegments]
      split
      · rw [blank_body hnot hblank]
        exact ⟨[],[],rfl,by simp,by simp⟩
      · simpa only [blank_body hnot hblank,List.nil_append] using hlater
    · have hnonempty : LeadingTitle.isNonempty (paragraph,index) = true := by
        simp [LeadingTitle.isNonempty,hblank]
      simp only [hnonempty,if_true] at hcount
      cases count with
      | zero =>
        refine ⟨[],_,rfl,by simp,?_⟩
        exact body_only repeatedItemReferences (paragraph::paragraphs)
          fun i hi hmem => by simpa using (hcount i hi).mp hmem
      | succ count =>
        have hmem : index ∈ markers.titles := (hcount index (Nat.le_refl _)).mpr (by simp)
        have hlater : TitlesFrom markers.titles (index+1) paragraphs := by
          refine ⟨count,fun i hi => (hcount i (by omega)).trans ?_⟩
          simp only [List.take_succ_cons,List.map_cons,List.mem_cons]
          constructor
          · rintro (heq | h)
            · omega
            · exact h
          · exact .inr
        obtain ⟨titles,body,hsplit,htitles,hbody⟩ := ih (index+1) hlater
        have hfirst : paragraphSegments repeatedItemReferences markers index paragraph =
            ([⟨strip paragraph.text,true,none,none⟩],none) := by
          simp [paragraphSegments,hmem]
        refine ⟨⟨strip paragraph.text,true,none,none⟩::titles,body,?_,?_,hbody⟩
        · simp [articleSegments,hfirst,hsplit]
        · intro s hs
          rcases List.mem_cons.mp hs with rfl | hs
          · rfl
          · exact htitles s hs

theorem document_titlesFirst (profile : Option String) (document : ParsedDocument) :
    TitlesFirst (documentSegments profile document).1 := by
  refine segments_titlesFirst _ 0 document.paragraphs ?_
  unfold markersOf
  split
  · obtain ⟨count,hcount⟩ := LeadingTitle.title_first document
    exact ⟨count,fun i _ => by rw [hcount]⟩
  · exact ⟨0,by simp⟩

/-- The articles are parts of the text, one after the other. -/
structure Placed (text : Text) (articles : List ParsedArticle) : Prop where
  is_slice : ∀ a ∈ articles, a.text = slice text a.charStart a.charEnd
  is_paragraphs : ∀ a ∈ articles, a.text = a.paragraphs.flatten
  inside : ∀ a ∈ articles, a.charStart < a.charEnd ∧ a.charEnd ≤ text.length
  increasing : articles.Pairwise fun a b => a.charEnd ≤ b.charStart

/-- Where the text not yet in a finished article begins. -/
def openStart (s : ParseState) : ℕ := if s.currentNo.isSome then s.currentStart else s.cursor

structure Counted (text : Text) (s : ParseState) : Prop where
  cursor : s.cursor = text.length
  placed : Placed text s.articles
  behind : ∀ a ∈ s.articles, a.charEnd ≤ openStart s
  opened : s.currentNo.isSome = true →
    s.currentStart < text.length ∧ s.currentPieces.flatten = text.drop s.currentStart

theorem slice_append_right {start stop : ℕ} (h : stop ≤ text.length) (more : Text) :
    slice (text++more) start stop = slice text start stop := by
  rw [slice,slice,List.take_append_of_le_length h]

theorem placed_more {articles : List ParsedArticle} (h : Placed text articles) (more : Text) :
    Placed (text++more) articles := by
  refine ⟨?_,h.is_paragraphs,?_,h.increasing⟩
  · intro a ha
    rw [slice_append_right (h.inside a ha).2]
    exact h.is_slice a ha
  · intro a ha
    have hinside := h.inside a ha
    rw [List.length_append]
    omega

theorem counted_start : Counted [] .start :=
  ⟨rfl,⟨by simp [ParseState.start],by simp [ParseState.start],by simp [ParseState.start],
    List.Pairwise.nil⟩,by simp [ParseState.start],by simp [ParseState.start]⟩

@[simp] theorem flush_cursor (s : ParseState) : (flush s).cursor = s.cursor := by
  unfold flush
  split <;> rfl

@[simp] theorem flush_currentNo (s : ParseState) : (flush s).currentNo = none := by
  unfold flush
  split
  · assumption
  · rfl

theorem flush_placed (h : Counted text s) :
    Placed text (flush s).articles ∧ ∀ a ∈ (flush s).articles, a.charEnd ≤ text.length := by
  cases hno : s.currentNo with
  | none =>
    have hflush : flush s = s := by simp [flush,hno]
    rw [hflush]
    exact ⟨h.placed,fun a ha => (h.placed.inside a ha).2⟩
  | some no =>
    obtain ⟨hstart,hpieces⟩ := h.opened (by simp [hno])
    have hlength : s.currentPieces.flatten.length = text.length-s.currentStart := by
      rw [hpieces,List.length_drop]
    have harticles : (flush s).articles = s.articles++[⟨no,s.currentPath,
        s.currentPieces.flatten,s.currentStart,
        s.currentStart+s.currentPieces.flatten.length,s.currentPieces⟩] := by
      simp [flush,hno]
    have hend : s.currentStart+s.currentPieces.flatten.length = text.length := by omega
    rw [harticles]
    have hinside : ∀ a ∈ s.articles++[⟨no,s.currentPath,s.currentPieces.flatten,s.currentStart,
        s.currentStart+s.currentPieces.flatten.length,s.currentPieces⟩],
        a.charStart < a.charEnd ∧ a.charEnd ≤ text.length := by
      intro a ha
      rcases List.mem_append.mp ha with ha | ha
      · exact h.placed.inside a ha
      · obtain rfl := List.mem_singleton.mp ha
        simp only
        omega
    refine ⟨⟨?_,?_,hinside,?_⟩,fun a ha => (hinside a ha).2⟩
    · intro a ha
      rcases List.mem_append.mp ha with ha | ha
      · exact h.placed.is_slice a ha
      · obtain rfl := List.mem_singleton.mp ha
        simp only
        rw [hend,slice_to_end]
        exact hpieces
    · intro a ha
      rcases List.mem_append.mp ha with ha | ha
      · exact h.placed.is_paragraphs a ha
      · obtain rfl := List.mem_singleton.mp ha
        rfl
    · refine List.pairwise_append.mpr ⟨h.placed.increasing,List.pairwise_singleton _ _,?_⟩
      intro a ha b hb
      obtain rfl := List.mem_singleton.mp hb
      simpa [openStart,hno] using h.behind a ha

theorem counted_open {text more : Text} (h : Counted text s) (hmore : more ≠ [])
    (classification : Text) :
    Counted (text++more) (advance (openArticle s classification more) more) := by
  obtain ⟨hplaced,hbehind⟩ := flush_placed h
  refine ⟨?_,placed_more hplaced more,?_,?_⟩
  · simp [advance,openArticle,h.cursor]
  · intro a ha
    have := hbehind a ha
    simpa [advance,openArticle,openStart,h.cursor] using this
  · intro _
    have hlength := List.length_pos_iff.mpr hmore
    simp [advance,openArticle,h.cursor]
    omega

theorem counted_heading {text more : Text} (h : Counted text s) (level : Level) (heading : Text) :
    Counted (text++more) (advance (openHeading s level heading) more) := by
  obtain ⟨hplaced,hbehind⟩ := flush_placed h
  have hframe : (openHeading s level heading).articles = (flush s).articles ∧
      (openHeading s level heading).currentNo = none ∧
      (openHeading s level heading).cursor = s.cursor := by
    cases level <;> simp [openHeading,enterStructure]
  obtain ⟨harticles,hno,hcursor⟩ := hframe
  refine ⟨?_,?_,?_,?_⟩
  · simp [advance,hcursor,h.cursor]
  · change Placed (text++more) (openHeading s level heading).articles
    rw [harticles]
    exact placed_more hplaced more
  · intro a ha
    change a ∈ (openHeading s level heading).articles at ha
    rw [harticles] at ha
    have := hbehind a ha
    simp only [openStart,advance,hno,hcursor,h.cursor,Option.isSome_none,Bool.false_eq_true,
      if_false]
    omega
  · intro hsome
    simp [advance,hno] at hsome

theorem counted_continue {text more : Text} (h : Counted text s) :
    Counted (text++more) (advance (continueArticle s more) more) := by
  cases hno : s.currentNo with
  | none =>
    refine ⟨?_,?_,?_,?_⟩
    · simp [advance,continueArticle,hno,h.cursor]
    · simpa [advance,continueArticle,hno] using placed_more h.placed more
    · intro a ha
      have := h.behind a (by simpa [advance,continueArticle,hno] using ha)
      simp only [openStart,advance,continueArticle,hno,Option.isSome_none,Bool.false_eq_true,
        if_false] at this ⊢
      omega
    · simp [advance,continueArticle,hno]
  | some no =>
    obtain ⟨hstart,hpieces⟩ := h.opened (by simp [hno])
    refine ⟨?_,?_,?_,?_⟩
    · simp [advance,continueArticle,hno,h.cursor]
    · simpa [advance,continueArticle,hno] using placed_more h.placed more
    · intro a ha
      have := h.behind a (by simpa [advance,continueArticle,hno] using ha)
      simpa [openStart,advance,continueArticle,hno] using this
    · intro _
      refine ⟨?_,?_⟩
      · simp [advance,continueArticle,hno]
        omega
      · rw [List.drop_append_of_le_length (Nat.le_of_lt (by
          simpa [advance,continueArticle,hno] using hstart))]
        simp [advance,continueArticle,hno,hpieces]

theorem counted_segment {s s' : ParseState} {segment : ArticleSegment} (h : Counted text s)
    (hbody : segment.isTitle = false) (hok : parseSegment repeatedItemReferences s segment = .ok
      s') :
    Counted (text++segment.text) s' := by
  unfold parseSegment at hok
  simp only [hbody,Bool.false_eq_true,if_false] at hok
  split at hok
  · rename_i hempty
    cases hok
    rwa [hempty,List.append_nil]
  rename_i hmore
  split at hok
  · cases hok
    exact counted_open h hmore _
  · cases hok
    exact counted_heading h _ _
  · split at hok
    · cases hok
    · cases hok
      exact counted_continue h

theorem counted_title {s s' : ParseState} {segment : ArticleSegment} (h : Counted text s)
    (hno : s.currentNo = none) (htitle : segment.isTitle = true)
    (hok : parseSegment repeatedItemReferences s segment = .ok s') :
    Counted (text++segment.text) s' ∧ s'.currentNo = none := by
  unfold parseSegment at hok
  simp only [htitle,if_true] at hok
  split at hok
  · rename_i hempty
    cases hok
    rw [hempty,List.append_nil]
    exact ⟨h,hno⟩
  · cases hok
    have hsame : continueArticle s segment.text = s := by simp [continueArticle,hno]
    have hcounted : Counted _ (advance (continueArticle s segment.text) segment.text) :=
      counted_continue h
    rw [hsame] at hcounted
    exact ⟨hcounted,hno⟩

theorem counted_body {s s' : ParseState} (segments : List ArticleSegment) (h : Counted text s)
    (hbody : ∀ segment ∈ segments, segment.isTitle = false)
    (hok : parseSegments repeatedItemReferences segments s = .ok s') :
    Counted (text++segmentText segments) s' := by
  induction segments generalizing text s with
  | nil =>
    cases hok
    simpa [segmentText] using h
  | cons segment segments ih =>
    rw [parseSegments] at hok
    cases hstep : parseSegment repeatedItemReferences s segment with
    | error e =>
      rw [hstep] at hok
      cases hok
    | ok middle =>
      rw [hstep] at hok
      have hmiddle := counted_segment h (hbody segment List.mem_cons_self) hstep
      have hlast := ih hmiddle (fun later hlater => hbody later (List.mem_cons_of_mem _ hlater)) hok
      rwa [List.append_assoc] at hlast

theorem counted_segments {s s' : ParseState} (titles body : List ArticleSegment)
    (h : Counted text s) (hno : s.currentNo = none)
    (htitles : ∀ segment ∈ titles, segment.isTitle = true)
    (hbody : ∀ segment ∈ body, segment.isTitle = false)
    (hok : parseSegments repeatedItemReferences (titles++body) s = .ok s') :
    Counted (text++segmentText (titles++body)) s' := by
  induction titles generalizing text s with
  | nil => exact counted_body body h hbody hok
  | cons segment titles ih =>
    rw [List.cons_append,parseSegments] at hok
    cases hstep : parseSegment repeatedItemReferences s segment with
    | error e =>
      rw [hstep] at hok
      cases hok
    | ok middle =>
      rw [hstep] at hok
      obtain ⟨hmiddle,hmiddleNo⟩ := counted_title h hno (htitles segment List.mem_cons_self) hstep
      have hlast := ih hmiddle hmiddleNo
        (fun later hlater => htitles later (List.mem_cons_of_mem _ hlater)) hok
      rwa [List.append_assoc] at hlast

/-- The raw segment of a paragraph, split or not, makes up its normalized text. -/
def SplitsLossless (profile : Option String) (document : ParsedDocument) : Prop :=
  ∀ index paragraph, document.paragraphs[index]? = some paragraph →
    index ∉ (markersOf profile document).titles →
    ∀ bounds ∈ (bodyBounds (repeatsItems profile) paragraph).1,
      segmentText (splitSegment (markersOf profile document) index paragraph bounds) =
        strip (slice paragraph.text bounds.1 bounds.2)

theorem splits_lossless (profile : Option String) (document : ParsedDocument) :
    SplitsLossless profile document := by
  intro index paragraph _ _ bounds _
  exact split_lossless (markers_increasing profile document index) _ _ _ _ _

theorem parse_ok {profile : Option String} {document : ParsedDocument}
    {instrument : ParsedInstrument} (h : parse profile document = .ok instrument) :
    (documentSegments profile document).2 = none ∧
    ∃ s, parseSegments (repeatsItems profile) (documentSegments profile document).1 .start = .ok s ∧
      instrument.articles = (flush s).articles := by
  unfold parse at h
  simp only at h
  cases hsegments : parseSegments (repeatsItems profile)
      (documentSegments profile document).1 .start with
  | error e =>
    rw [hsegments] at h
    cases h
  | ok s =>
    rw [hsegments] at h
    cases herror : (documentSegments profile document).2 with
    | some error =>
      simp only [herror] at h
      cases h
    | none =>
      simp only [herror] at h
      cases h
      exact ⟨rfl,s,rfl,rfl⟩

/-- The articles of a parsed document are parts of its normalized text, which is
made of the normalized segments of its paragraphs, and no split of a segment
loses a character. -/
theorem parse_offsets {profile : Option String} {document : ParsedDocument}
    {instrument : ParsedInstrument} (h : parse profile document = .ok instrument) :
    Placed (normalizedText profile document) instrument.articles ∧
    normalizedText profile document = (document.paragraphs.zipIdx.flatMap fun p =>
      normalizedSegments (repeatsItems profile) (markersOf profile document) p.2 p.1).flatten ∧
    SplitsLossless profile document := by
  obtain ⟨hend,s,hs,harticles⟩ := parse_ok h
  obtain ⟨titles,body,hsplit,htitles,hbody⟩ := document_titlesFirst profile document
  have hcounted : Counted (normalizedText profile document) s := by
    rw [hsplit] at hs
    have := counted_segments titles body counted_start rfl htitles hbody hs
    rwa [List.nil_append,← hsplit] at this
  refine ⟨harticles ▸ (flush_placed hcounted).1,?_,splits_lossless profile document⟩
  exact articleSegments_text _ (markers_increasing profile document) 0 document.paragraphs hend

/-- An article embedded in the paragraph of another, and one of its own. -/
def sampleDocument : ParsedDocument :=
  ⟨[⟨['第','一','条',' ','甲','。',' ','第','二','条',' ','乙','。'],40⟩,
    ⟨['第','三','条',' ','丙','。'],41⟩]⟩

def offsets (result : Except ParseError ParsedInstrument) : List (ℕ × ℕ) :=
  match result with
  | .ok instrument => instrument.articles.map fun a => (a.charStart,a.charEnd)
  | .error _ => []

theorem sample_offsets : ∃ instrument,
    parse (some "corpus-docx-v4") sampleDocument = .ok instrument ∧
    (instrument.articles.map fun a => (a.charStart,a.charEnd)) = [(0,7),(7,13),(13,19)] ∧
    Placed (normalizedText (some "corpus-docx-v4") sampleDocument) instrument.articles := by
  have hoffsets : offsets (parse (some "corpus-docx-v4") sampleDocument) =
      [(0,7),(7,13),(13,19)] := by decide
  cases h : parse (some "corpus-docx-v4") sampleDocument with
  | error e =>
    rw [h] at hoffsets
    cases hoffsets
  | ok instrument =>
    rw [h] at hoffsets
    exact ⟨instrument,rfl,hoffsets,(parse_offsets h).1⟩

end LawyerAgent.LegalStructureParser
