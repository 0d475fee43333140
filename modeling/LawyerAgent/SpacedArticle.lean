import LawyerAgent.PrefixedArticle

/-!
# Spaced article headings

A heading whose numeral is broken by blanks is an article heading when it
stands in a run between two ordinary paragraphs that leave its number free.
-/

set_option autoImplicit false

namespace LawyerAgent.SpacedArticle
open LegalArticleHeading PrefixedArticle PythonText Regex

def blank : Expression := .set isPlainHorizontal

def bodyAfterMarker : Expression := .seq (.plus blank) (.set fun c => !isSpace c)

/-- `第{_NUMBER}(?:{_HORIZONTAL}+{_NUMBER})+{_HORIZONTAL}*条` -/
def brokenMarker : Expression :=
  .seqs [.char '第',number,.plus (.seq (.plus blank) number),.star blank,.char '条']

def spacedMarker : Expression :=
  .seqs [.star blank,.group .marker brokenMarker,.ahead bodyAfterMarker]

def spacedSupplement : Expression := .seqs [.star blank,brokenMarker,.char '之']

structure SpacedArticleSpan where
  paragraphIndex : ℕ
  paragraphOrdinal : ℕ
  markerStart : ℕ
  markerEnd : ℕ
  originalMarker : Text
  normalizedMarker : Text

abbrev Event := Numbering.Event (ℕ × SpacedArticleSpan)

/-- The heading of an ordinary paragraph is set off from its body. -/
def anchorHasBodySeparator (text : Text) (heading : Match Group) : Bool :=
  (match? bodyAfterMarker (text.drop (markerEnd heading))).isSome

def isSpacedBarrier (excluded : List ℕ) (index : ℕ) (text : Text) : Bool :=
  excluded.contains index || isStructuralBarrier text || isSupplementaryArticleHeading text ||
  (match? spacedSupplement text).isSome ||
  (match? articleHeading text).any fun heading => !anchorHasBodySeparator text heading

/-- What the loop does with one paragraph; some paragraphs are passed over. -/
def paragraphEvent (excluded : List ℕ) (index : ℕ) (paragraph : ParsedParagraph) (clear : Bool) :
    Option Event :=
  let text := paragraph.text
  let found := match? spacedMarker text
  let number := ordinaryArticleNumber text
  if isSpacedBarrier excluded index text || (!clear && (found.isSome || number.isSome)) then
    some .barrier
  else match found with
    | some m =>
      let marker := m.textOf .marker text
      let normalized := marker.filter fun c => !isPlainHorizontal c
      match markerNumber normalized with
      | none => some .barrier
      | some candidateNumber => some (.candidate (candidateNumber,⟨index,paragraph.ordinal,
          m.startOf .marker,m.stopOf .marker,marker,normalized⟩))
    | none => number.map .anchor

def eventsFrom (excluded : List ℕ) : ℕ → List ParsedParagraph → Boundaries → List (ℕ × Event)
  | _, [], _ => []
  | index, paragraph::rest, b =>
    ((paragraphEvent excluded index paragraph b.clear).toList.map fun e => (index,e))++
      eventsFrom excluded (index+1) rest (scanBoundaries paragraph.text b)

def locatedEvents (document : ParsedDocument) (excluded : List ℕ) : List (ℕ × Event) :=
  eventsFrom excluded 0 document.paragraphs .start

def acceptedItems (document : ParsedDocument) (excluded : List ℕ) :
    List (ℕ × SpacedArticleSpan) :=
  Numbering.accept Prod.fst ((locatedEvents document excluded).map Prod.snd)

def detectSpacedArticleSpans (document : ParsedDocument) (excluded : List ℕ) :
    List SpacedArticleSpan :=
  (acceptedItems document excluded).map Prod.snd

variable {excluded : List ℕ} {index : ℕ} {paragraph : ParsedParagraph} {document : ParsedDocument}

theorem barrier_event (clear : Bool) (h : isSpacedBarrier excluded index paragraph.text = true) :
    paragraphEvent excluded index paragraph clear = some .barrier := by
  simp [paragraphEvent,h]

theorem anchor_event {index number : ℕ} {clear : Bool}
    (h : paragraphEvent excluded index paragraph clear = some (.anchor number)) :
    index ∉ excluded ∧ ordinaryArticleNumber paragraph.text = some number := by
  unfold paragraphEvent at h
  simp only at h
  split at h
  · cases h
  · rename_i hbarrier
    split at h
    · split at h <;> cases h
    · obtain ⟨n,hn,heq⟩ := Option.map_eq_some_iff.mp h
      cases heq
      refine ⟨fun hexcluded => hbarrier ?_,hn⟩
      simp [isSpacedBarrier,hexcluded]

theorem candidate_event {clear : Bool} {item : ℕ × SpacedArticleSpan}
    (h : paragraphEvent excluded index paragraph clear = some (.candidate item)) :
    item.2.paragraphIndex = index ∧ item.2.markerStart ≤ item.2.markerEnd ∧
    item.2.markerEnd ≤ paragraph.text.length ∧
    item.2.originalMarker = slice paragraph.text item.2.markerStart item.2.markerEnd ∧
    markerNumber (item.2.originalMarker.filter fun c => !isPlainHorizontal c) = some item.1 := by
  unfold paragraphEvent at h
  simp only at h
  split at h
  · cases h
  split at h
  · rename_i m hm
    split at h
    · cases h
    · rename_i number hnumber
      cases h
      have hwithin := match_within hm
      exact ⟨rfl,startOf_le_stopOf hwithin .marker,stopOf_le hwithin .marker,
        textOf_eq_slice m .marker paragraph.text,hnumber⟩
  · obtain ⟨n,-,heq⟩ := Option.map_eq_some_iff.mp h
    cases heq

theorem eventsFrom_spec (excluded : List ℕ) (index : ℕ) (paragraphs : List ParsedParagraph)
    (b : Boundaries) : ∀ located ∈ eventsFrom excluded index paragraphs b,
      ∃ k paragraph clear, located.1 = index+k ∧ paragraphs[k]? = some paragraph ∧
        paragraphEvent excluded (index+k) paragraph clear = some located.2 := by
  induction paragraphs generalizing index b with
  | nil => simp [eventsFrom]
  | cons paragraph paragraphs ih =>
    intro located hmem
    rcases List.mem_append.mp hmem with h | h
    · obtain ⟨e,he,rfl⟩ := List.mem_map.mp h
      exact ⟨0,paragraph,b.clear,rfl,rfl,Option.mem_toList.mp he⟩
    · obtain ⟨k,p,clear,hindex,hk,hevent⟩ := ih _ _ located h
      refine ⟨k+1,p,clear,by omega,hk,?_⟩
      rwa [show index+(k+1) = index+1+k by omega]

theorem eventsFrom_pairwise (excluded : List ℕ) (index : ℕ) (paragraphs : List ParsedParagraph)
    (b : Boundaries) :
    (eventsFrom excluded index paragraphs b).Pairwise fun x y => x.1 < y.1 := by
  induction paragraphs generalizing index b with
  | nil => exact List.Pairwise.nil
  | cons paragraph paragraphs ih =>
    refine List.pairwise_append.mpr ⟨?_,ih _ _,?_⟩
    · cases paragraphEvent excluded index paragraph b.clear <;> simp
    · intro x hx y hy
      obtain ⟨e,-,rfl⟩ := List.mem_map.mp hx
      obtain ⟨k,-,-,hindex,-⟩ := eventsFrom_spec excluded (index+1) paragraphs _ y hy
      change index < y.1
      omega

theorem eventsFrom_complete (excluded : List ℕ) (index : ℕ) (paragraphs : List ParsedParagraph)
    (b : Boundaries) {k : ℕ} (hk : paragraphs[k]? = some paragraph) :
    ∃ clear, ∀ e, paragraphEvent excluded (index+k) paragraph clear = some e →
      (index+k,e) ∈ eventsFrom excluded index paragraphs b := by
  induction paragraphs generalizing index b k with
  | nil => simp at hk
  | cons first paragraphs ih =>
    cases k with
    | zero =>
      obtain rfl : first = paragraph := by simpa using hk
      refine ⟨b.clear,fun e he => List.mem_append_left _ (List.mem_map.mpr ⟨e,?_,rfl⟩)⟩
      exact Option.mem_toList.mpr he
    | succ k =>
      obtain ⟨clear,hclear⟩ := ih (index+1) (scanBoundaries first.text b) (by simpa using hk)
      refine ⟨clear,fun e he => List.mem_append_right _ ?_⟩
      rw [show index+(k+1) = index+1+k by omega] at he ⊢
      exact hclear e he

def Unnumbered (paragraph : ParsedParagraph) : Prop :=
  match? spacedMarker paragraph.text = none ∧ ordinaryArticleNumber paragraph.text = none

theorem no_event {clear : Bool} (h : paragraphEvent excluded index paragraph clear = none) :
    Unnumbered paragraph := by
  unfold paragraphEvent at h
  simp only at h
  split at h
  · cases h
  split at h
  · split at h <;> cases h
  · rename_i hmarker
    exact ⟨hmarker,Option.map_eq_none_iff.mp h⟩

/-- Two ordinary articles stand around the run. No barrier stands between them,
and every paragraph there outside the run opens with no article number. -/
def Enclosed (document : ParsedDocument) (excluded : List ℕ)
    (r : Numbering.Run (ℕ × SpacedArticleSpan)) : Prop :=
  ∃ left right, Standalone document excluded left r.left ∧
    Standalone document excluded right r.right ∧
    (∀ item ∈ r.items, left < item.2.paragraphIndex ∧ item.2.paragraphIndex < right) ∧
    ∀ i paragraph, document.paragraphs[i]? = some paragraph → left < i → i < right →
      isSpacedBarrier excluded i paragraph.text = false ∧
      ((∃ item ∈ r.items, item.2.paragraphIndex = i) ∨ Unnumbered paragraph)

theorem located_spec (document : ParsedDocument) (excluded : List ℕ) :
    ∀ located ∈ locatedEvents document excluded, ∃ paragraph clear,
      document.paragraphs[located.1]? = some paragraph ∧
      paragraphEvent excluded located.1 paragraph clear = some located.2 := by
  intro located hmem
  obtain ⟨k,paragraph,clear,hindex,hk,hevent⟩ := eventsFrom_spec _ _ _ _ located hmem
  rw [Nat.zero_add] at hindex hevent
  exact ⟨paragraph,clear,hindex ▸ hk,hindex ▸ hevent⟩

theorem anchor_standalone {index number : ℕ}
    (h : (index,.anchor number) ∈ locatedEvents document excluded) :
    Standalone document excluded index number := by
  obtain ⟨paragraph,clear,hparagraph,hevent⟩ := located_spec document excluded _ h
  have hanchor := anchor_event hevent
  exact ⟨paragraph,hparagraph,hanchor.1,hanchor.2⟩

theorem candidate_located {item : ℕ × SpacedArticleSpan}
    (h : (index,.candidate item) ∈ locatedEvents document excluded) :
    item.2.paragraphIndex = index := by
  obtain ⟨paragraph,clear,-,hevent⟩ := located_spec document excluded _ h
  exact (candidate_event hevent).1

theorem run_enclosed {r : Numbering.Run (ℕ × SpacedArticleSpan)} {left right : ℕ}
    (h : r.Enclosed (locatedEvents document excluded) left right) :
    Enclosed document excluded r := by
  have hsorted : (locatedEvents document excluded).Pairwise fun x y => x.1 < y.1 :=
    eventsFrom_pairwise excluded 0 document.paragraphs .start
  have hanchors := Numbering.enclosed_anchors h
  refine ⟨left,right,anchor_standalone hanchors.1,anchor_standalone hanchors.2,?_,?_⟩
  · intro item hitem
    obtain ⟨k,hk,hlk,hkr⟩ := Numbering.enclosed_items h hsorted item hitem
    rw [candidate_located hk]
    exact ⟨hlk,hkr⟩
  · intro i paragraph hparagraph hli hir
    have hbetween : ∀ e, (i,e) ∈ locatedEvents document excluded →
        ∃ item ∈ r.items, e = .candidate item := fun e he =>
      Numbering.enclosed_between h (hsorted.imp Nat.le_of_lt) he hli hir
    obtain ⟨clear,hclear⟩ := eventsFrom_complete excluded 0 document.paragraphs .start hparagraph
    rw [Nat.zero_add] at hclear
    refine ⟨?_,?_⟩
    · by_contra hne
      have hbarrier : isSpacedBarrier excluded i paragraph.text = true := by simpa using hne
      have hevent := barrier_event clear hbarrier
      obtain ⟨item,-,hitem⟩ := hbetween _ (hclear _ hevent)
      cases hitem
    · cases hevent : paragraphEvent excluded i paragraph clear with
      | none => exact .inr (no_event hevent)
      | some e =>
        have hmem := hclear e hevent
        obtain ⟨item,hitem,rfl⟩ := hbetween e hmem
        exact .inl ⟨item,hitem,candidate_located hmem⟩

theorem accepted_runs (document : ParsedDocument) (excluded : List ℕ) :
    ∃ runs : List (Numbering.Run (ℕ × SpacedArticleSpan)),
      acceptedItems document excluded = runs.flatMap Numbering.Run.items ∧
      ∀ r ∈ runs, r.Exact Prod.fst ∧ Enclosed document excluded r := by
  obtain ⟨runs,haccepted,hruns⟩ :=
    Numbering.accept_runs Prod.fst (locatedEvents document excluded)
  refine ⟨runs,haccepted,fun r hr => ⟨(hruns r hr).1,?_⟩⟩
  obtain ⟨i,j,henclosed⟩ := (hruns r hr).2
  exact run_enclosed henclosed

end LawyerAgent.SpacedArticle
