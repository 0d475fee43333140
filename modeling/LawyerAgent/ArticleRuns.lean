import LawyerAgent.EmbeddedArticleRuns
import LawyerAgent.SpacedArticle

/-!
# Accepted article runs

The three detectors accept the same kind of run: together with the ordinary
articles around it its numbers count up by one, no barrier stands inside it,
and its spans lie in their paragraphs in the order of the document.
-/

set_option autoImplicit false

namespace LawyerAgent.ArticleRuns
open LegalArticleHeading PrefixedArticle Regex
open Numbering (Run)

/-- The span is the start of a heading with the candidate's number. -/
def EmbeddedPlaced (document : ParsedDocument) (c : EmbeddedArticle.Candidate) : Prop :=
  ∃ paragraph, document.paragraphs[c.span.paragraphIndex]? = some paragraph ∧
    ∃ stop, EmbeddedArticle.HeadingAt paragraph.text c.span.markerStart stop c.number ∧
      stop ≤ paragraph.text.length

/-- The heading of `c` ends before the heading of `d` starts. -/
def EmbeddedBefore (document : ParsedDocument) (c d : EmbeddedArticle.Candidate) : Prop :=
  c.span.paragraphIndex < d.span.paragraphIndex ∨
  c.span.paragraphIndex = d.span.paragraphIndex ∧ ∃ paragraph,
    document.paragraphs[c.span.paragraphIndex]? = some paragraph ∧
    EmbeddedArticle.Follows paragraph.text c d

structure EmbeddedRuns (document : ParsedDocument) (excluded : List ℕ)
    (prefixed : List PrefixedArticleSpan) (runs : List (Run EmbeddedArticle.Candidate)) : Prop where
  exact : ∀ r ∈ runs, r.Exact EmbeddedArticle.Candidate.number
  enclosed : ∀ r ∈ runs, EmbeddedArticle.Enclosed document excluded prefixed r
  placed : ∀ c ∈ runs.flatMap Run.items, EmbeddedPlaced document c
  ordered : (runs.flatMap Run.items).Pairwise (EmbeddedBefore document)

theorem embedded_runs (document : ParsedDocument) (excluded : List ℕ)
    (prefixed : List PrefixedArticleSpan) : ∃ runs,
    EmbeddedArticle.detectEmbeddedArticleSpans document excluded prefixed =
      (runs.flatMap Run.items).map EmbeddedArticle.Candidate.span ∧
    EmbeddedRuns document excluded prefixed runs := by
  obtain ⟨runs,haccepted,hruns⟩ := EmbeddedArticle.accepted_runs document excluded prefixed
  refine ⟨runs,by rw [← haccepted]; rfl,fun r hr => (hruns r hr).1,fun r hr => (hruns r hr).2,
    ?_,?_⟩
  · intro c hc
    rw [← haccepted] at hc
    obtain ⟨i,hlocated⟩ := Numbering.accept_mem hc
    obtain ⟨rfl,paragraph,hparagraph,hplace⟩ := EmbeddedArticle.candidate_located hlocated
    exact ⟨paragraph,hparagraph,hplace⟩
  · rw [← haccepted]
    refine Numbering.accept_pairwise (List.Pairwise.imp_of_mem ?_
      (EmbeddedArticle.located_ordered document excluded prefixed))
    rintro ⟨i,x⟩ ⟨j,y⟩ hx hy hxy c d rfl rfl
    obtain ⟨rfl,paragraph,hparagraph,-⟩ := EmbeddedArticle.candidate_located hx
    obtain ⟨rfl,-⟩ := EmbeddedArticle.candidate_located hy
    rcases hxy with hlt | ⟨heq,hfollows⟩
    · exact .inl hlt
    · exact .inr ⟨heq,paragraph,hparagraph,hfollows paragraph hparagraph c d rfl rfl⟩

/-- The prefix ends in the paragraph, and the heading behind it has the
candidate's number. -/
def PrefixedPlaced (document : ParsedDocument) (c : PrefixedArticle.Candidate) : Prop :=
  ∃ paragraph, document.paragraphs[c.span.paragraphIndex]? = some paragraph ∧
    c.span.markerStart ≤ paragraph.text.length ∧
    ∃ heading, match? articleHeading (paragraph.text.drop c.span.markerStart) = some heading ∧
      markerNumber (markerText heading (paragraph.text.drop c.span.markerStart)) = some c.number

structure PrefixedRuns (document : ParsedDocument) (excluded : List ℕ)
    (runs : List (Run PrefixedArticle.Candidate)) : Prop where
  exact : ∀ r ∈ runs, r.Exact PrefixedArticle.Candidate.number
  enclosed : ∀ r ∈ runs, PrefixedArticle.Enclosed document excluded r
  placed : ∀ c ∈ runs.flatMap Run.items, PrefixedPlaced document c
  ordered : (runs.flatMap Run.items).Pairwise fun c d =>
    c.span.paragraphIndex < d.span.paragraphIndex

theorem prefixed_runs (document : ParsedDocument) (excluded : List ℕ) : ∃ runs,
    detectPrefixedArticleSpans document excluded =
      (runs.flatMap Run.items).map PrefixedArticle.Candidate.span ∧
    PrefixedRuns document excluded runs := by
  obtain ⟨runs,hflatten,hruns⟩ := acceptedGroups_flatten document excluded
  refine ⟨runs,?_,fun r hr => (hruns r hr).1,fun r hr => (hruns r hr).2,?_,?_⟩
  · rw [← hflatten,List.map_flatten]
    rfl
  · intro c hc
    rw [← hflatten] at hc
    obtain ⟨paragraph,hparagraph,clear,hcandidate⟩ := accepted_candidate document excluded c hc
    obtain ⟨-,hstart,-,hheading⟩ := PrefixedArticle.candidate_spec hcandidate
    exact ⟨paragraph,hparagraph,hstart,hheading⟩
  · rw [← hflatten]
    exact accepted_pairwise document excluded

/-- The marker lies in the paragraph and has this number without its blanks. -/
def SpacedPlaced (document : ParsedDocument)
    (item : ℕ × SpacedArticle.SpacedArticleSpan) : Prop :=
  ∃ paragraph, document.paragraphs[item.2.paragraphIndex]? = some paragraph ∧
    item.2.markerStart ≤ item.2.markerEnd ∧ item.2.markerEnd ≤ paragraph.text.length ∧
    item.2.originalMarker = slice paragraph.text item.2.markerStart item.2.markerEnd ∧
    markerNumber (item.2.originalMarker.filter fun c => !isPlainHorizontal c) = some item.1

structure SpacedRuns (document : ParsedDocument) (excluded : List ℕ)
    (runs : List (Run (ℕ × SpacedArticle.SpacedArticleSpan))) : Prop where
  exact : ∀ r ∈ runs, r.Exact Prod.fst
  enclosed : ∀ r ∈ runs, SpacedArticle.Enclosed document excluded r
  placed : ∀ item ∈ runs.flatMap Run.items, SpacedPlaced document item
  ordered : (runs.flatMap Run.items).Pairwise fun x y =>
    x.2.paragraphIndex < y.2.paragraphIndex

theorem spaced_runs (document : ParsedDocument) (excluded : List ℕ) : ∃ runs,
    SpacedArticle.detectSpacedArticleSpans document excluded =
      (runs.flatMap Run.items).map Prod.snd ∧
    SpacedRuns document excluded runs := by
  obtain ⟨runs,haccepted,hruns⟩ := SpacedArticle.accepted_runs document excluded
  refine ⟨runs,by rw [← haccepted]; rfl,fun r hr => (hruns r hr).1,fun r hr => (hruns r hr).2,
    ?_,?_⟩
  · intro item hitem
    rw [← haccepted] at hitem
    obtain ⟨i,hlocated⟩ := Numbering.accept_mem hitem
    obtain ⟨paragraph,clear,hparagraph,hevent⟩ :=
      SpacedArticle.located_spec document excluded _ hlocated
    obtain ⟨hindex,hrest⟩ := SpacedArticle.candidate_event hevent
    exact ⟨paragraph,hindex ▸ hparagraph,hrest⟩
  · rw [← haccepted]
    refine Numbering.accept_pairwise (List.Pairwise.imp_of_mem ?_
      (SpacedArticle.eventsFrom_pairwise excluded 0 document.paragraphs .start))
    rintro ⟨i,x⟩ ⟨j,y⟩ hx hy hxy c d rfl rfl
    rw [SpacedArticle.candidate_located hx,SpacedArticle.candidate_located hy]
    exact hxy

/-- Whatever the paragraphs, the excluded ones and the prefixes accepted before,
every detector returns exact runs in order. -/
theorem detected_runs (document : ParsedDocument) (excluded : List ℕ)
    (prefixed : List PrefixedArticleSpan) :
    (∃ runs, EmbeddedArticle.detectEmbeddedArticleSpans document excluded prefixed =
        (runs.flatMap Run.items).map EmbeddedArticle.Candidate.span ∧
      EmbeddedRuns document excluded prefixed runs) ∧
    (∃ runs, detectPrefixedArticleSpans document excluded =
        (runs.flatMap Run.items).map PrefixedArticle.Candidate.span ∧
      PrefixedRuns document excluded runs) ∧
    (∃ runs, SpacedArticle.detectSpacedArticleSpans document excluded =
        (runs.flatMap Run.items).map Prod.snd ∧
      SpacedRuns document excluded runs) :=
  ⟨embedded_runs document excluded prefixed,prefixed_runs document excluded,
    spaced_runs document excluded⟩

end LawyerAgent.ArticleRuns
