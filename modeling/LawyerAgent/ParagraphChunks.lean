import LawyerAgent.ChunkReplayRuns

/-!
# Chunks and paragraphs

The paragraphs of an article stand one after the other in its text. A child
chunk is cut from one of them, and what it records is the place of its text.
-/

set_option autoImplicit false

namespace LawyerAgent.ParagraphChunks
open Common PythonText ChunkStructure
open ChunkWindows DerivedGraphs ChunkPersistence
open ChunkReplayRuns
open LegalArticleHeading (Text articleHeading)
open Regex (slice match?)

def paragraphText (exactText : Bool) (paragraph : Text) : Text :=
  if exactText then paragraph else strip paragraph

/-- The place of the first paragraph, behind the leading blanks unless the text is exact. -/
def leading (exactText : Bool) (fullText : Text) : ℕ :=
  if exactText then 0 else fullText.length-(lstrip fullText).length

/-- The range lies in one of the texts that stand one after the other from `offset` on. -/
def InText (offset : ℕ) (texts : List Text) (start stop : ℕ) : Prop :=
  ∃ before text after, texts = before++text::after ∧ offset+before.flatten.length ≤ start ∧
    stop ≤ offset+before.flatten.length+text.length

variable {fullText : Text} {offset : ℕ} {texts : List Text}

/-- A nonempty unit with the text of its place, inside one paragraph. -/
structure UnitIn (fullText : Text) (offset : ℕ) (texts : List Text) (u : ChunkUnit) : Prop where
  nonempty : u.text ≠ []
  text : u.text = slice fullText u.parentStart (u.parentStart+u.text.length)
  within : InText offset texts u.parentStart (u.parentStart+u.text.length)

theorem exactUnits_in {before rest : List Text} (htexts : texts = before++rest)
    (h : fullText.drop before.flatten.length = rest.flatten) :
    ∀ u ∈ exactUnits before.flatten.length rest, UnitIn fullText 0 texts u := by
  induction rest generalizing before with
  | nil => simp [exactUnits]
  | cons paragraph rest ih =>
    rw [List.flatten_cons] at h
    have hnext : (before++[paragraph]).flatten.length =
        before.flatten.length+paragraph.length := by simp
    have hrest := @ih (before++[paragraph]) (by rw [htexts,List.append_assoc]; rfl)
      (by rw [hnext]; exact drop_word h)
    rw [hnext] at hrest
    rw [exactUnits]
    split_ifs with hempty
    · rw [hempty,List.length_nil,Nat.add_zero] at hrest
      exact hrest
    · intro u hu
      rcases List.mem_cons.mp hu with rfl | hu
      · refine ⟨hempty,slice_word h,before,paragraph,rest,htexts,?_,?_⟩
        · simp
        · simp
      · exact hrest u hu

theorem withoutHeading_drop (paragraph : Text) (start : ℕ)
    (h : (withoutHeading paragraph start).1 ≠ []) :
    ∃ n, withoutHeading paragraph start = (paragraph.drop n,start+n) ∧ n ≤ paragraph.length := by
  unfold withoutHeading at h ⊢
  cases hmatch : match? articleHeading paragraph with
  | none => exact ⟨0,rfl,Nat.zero_le _⟩
  | some heading =>
    rw [hmatch] at h
    dsimp only at h ⊢
    have hsuffix : lstrip (paragraph.drop heading.stop) =
        (paragraph.drop heading.stop).drop ((paragraph.drop heading.stop).length-
          (lstrip (paragraph.drop heading.stop)).length) :=
      List.suffix_iff_eq_drop.mp (List.dropWhile_suffix _)
    refine ⟨heading.stop+((paragraph.drop heading.stop).length-
      (lstrip (paragraph.drop heading.stop)).length),?_,?_⟩
    · rw [← List.drop_drop,← hsuffix,Nat.add_assoc]
    · have hlong : heading.stop < paragraph.length := by
        by_contra hshort
        rw [List.drop_eq_nil_of_le (Nat.not_lt.mp hshort)] at h
        exact h rfl
      have hlength := List.length_drop (i := heading.stop) (l := paragraph)
      omega

theorem unit_in {before rest : List Text} {paragraph tail : Text} {start : ℕ}
    (preserveHeading first : Bool) (htexts : texts = before++paragraph::rest)
    (hstart : start = offset+before.flatten.length) (h : fullText.drop start = paragraph++tail)
    {text : Text} {unitStart : ℕ}
    (hunit : (if (first && !preserveHeading) = true then withoutHeading paragraph start
      else (paragraph,start)) = (text,unitStart)) (hne : text ≠ []) :
    UnitIn fullText offset texts ⟨classify text,text,unitStart⟩ := by
  have hcut : ∃ n, text = paragraph.drop n ∧ unitStart = start+n ∧ n ≤ paragraph.length := by
    split at hunit
    · have hsome : (withoutHeading paragraph start).1 ≠ [] := by
        rw [hunit]
        exact hne
      obtain ⟨n,hdrop,hn⟩ := withoutHeading_drop paragraph start hsome
      rw [hdrop] at hunit
      cases hunit
      exact ⟨n,rfl,rfl,hn⟩
    · cases hunit
      exact ⟨0,rfl,rfl,Nat.zero_le _⟩
  obtain ⟨n,rfl,rfl,hn⟩ := hcut
  have hdrop : fullText.drop (start+n) = paragraph.drop n++tail := by
    rw [← List.drop_drop,h,List.drop_append_of_le_length hn]
  refine ⟨hne,slice_word hdrop,before,paragraph,rest,htexts,?_,?_⟩
  · change offset+before.flatten.length ≤ start+n
    omega
  · change start+n+(paragraph.drop n).length ≤ offset+before.flatten.length+paragraph.length
    rw [List.length_drop]
    omega

theorem foundUnits_in {before rest : List Text} {cursor : ℕ} {blanks tail : Text}
    (preserveHeading first : Bool) (htexts : texts = before++rest)
    (hvisible : ∀ p ∈ rest, ∃ c word, p = c::word ∧ isSpace c = false)
    (hblanks : ∀ c ∈ blanks, isSpace c = true)
    (h : fullText.drop cursor = blanks++(rest.flatten++tail))
    (hcursor : cursor+blanks.length = offset+before.flatten.length) :
    ∃ units, foundUnits fullText preserveHeading first cursor rest = some units ∧
      ∀ u ∈ units, UnitIn fullText offset texts u := by
  induction rest generalizing before cursor blanks first with
  | nil => exact ⟨[],rfl,by simp⟩
  | cons paragraph rest ih =>
    obtain ⟨c,word,rfl,hc⟩ := hvisible paragraph List.mem_cons_self
    rw [List.flatten_cons,List.append_assoc] at h
    have hfind := find_behind hc hblanks h
    have hword := drop_word h
    have hrest := drop_word hword
    have hnone : ∀ d ∈ ([] : Text), isSpace d = true := by simp
    have hnext : ∃ units, foundUnits fullText preserveHeading false
        (cursor+blanks.length+(c::word).length) rest = some units ∧
          ∀ u ∈ units, UnitIn fullText offset texts u := by
      apply @ih (before++[c::word]) _ _ false (by rw [htexts,List.append_assoc]; rfl)
        (fun p hp => hvisible p (List.mem_cons_of_mem _ hp)) hnone hrest
      rw [List.flatten_append,List.length_append,List.flatten_singleton,List.length_nil,hcursor]
      omega
    obtain ⟨units,hunits,hin⟩ := hnext
    rw [foundUnits,hfind]
    dsimp only
    generalize hunit : (if (first && !preserveHeading) = true then
      withoutHeading (c::word) (cursor+blanks.length) else (c::word,cursor+blanks.length)) = unit
    obtain ⟨text,unitStart⟩ := unit
    simp only [hunits,Option.map_some,Option.some_inj,exists_eq_left']
    split_ifs with hempty
    · exact hin
    · intro u hu
      rcases List.mem_cons.mp hu with rfl | hu
      · exact unit_in preserveHeading first htexts hcursor hword hunit hempty
      · exact hin u hu

theorem strip_places (text : Text) : ∃ before after, text = before++(strip text++after) ∧
    before.length = leading false text ∧ (∀ c ∈ before, isSpace c = true) ∧
      ∀ c ∈ after, isSpace c = true := by
  refine ⟨text.takeWhile isSpace,(text.dropWhile isSpace).rtakeWhile isSpace,?_,?_,?_,?_⟩
  · rw [strip,List.rdropWhile_append_rtakeWhile,List.takeWhile_append_dropWhile]
  · have hlength :=
      congrArg List.length (List.takeWhile_append_dropWhile (p := isSpace) (l := text))
    rw [List.length_append] at hlength
    unfold leading lstrip
    simp only [Bool.false_eq_true,if_false]
    omega
  · exact fun c hc => List.mem_takeWhile_imp hc
  · exact fun c hc => List.mem_rtakeWhile_imp hc

/-- The paragraphs make up the text, from `offset` on and but for blanks around them. -/
def Placed (fullText : Text) (offset : ℕ) (texts : List Text) : Prop :=
  ∃ before after, fullText = before++(texts.flatten++after) ∧ before.length = offset ∧
    (∀ c ∈ before, isSpace c = true) ∧ ∀ c ∈ after, isSpace c = true

/-- The offset and the paragraphs under the profile of a derivation. -/
def offsetOf (d : Derivation) (p : ProvisionSource) : ℕ :=
  leading (exactTextChunks d.parserVersion) p.fullText

def textsOf (d : Derivation) (a : ArticleSource) : List Text :=
  a.paragraphs.map (paragraphText (exactTextChunks d.parserVersion))

variable {d : Derivation} {p : ProvisionSource} {a : ArticleSource}

theorem unitsOf_in (h : unitsOf d p a ≠ []) : Placed p.fullText (offsetOf d p) (textsOf d a) ∧
    ∀ u ∈ unitsOf d p a, UnitIn p.fullText (offsetOf d p) (textsOf d a) u := by
  unfold unitsOf unitsForArticle at h ⊢
  unfold offsetOf textsOf
  dsimp only at h ⊢
  split_ifs at h ⊢ with hshort hexact hmissing hmissing
  · exact absurd rfl h
  · exact absurd rfl h
  · obtain ⟨-,hflatten⟩ := not_or.mp hmissing
    have htexts : a.paragraphs.map (paragraphText true) = a.paragraphs := List.map_id' _
    have hflat : p.fullText = a.paragraphs.flatten := (not_not.mp hflatten).symm
    rw [hexact,htexts]
    refine ⟨⟨[],[],?_,rfl,by simp,by simp⟩,?_⟩
    · rw [List.nil_append,List.append_nil]
      exact hflat
    · exact @exactUnits_in _ _ [] _ rfl hflat
  · exact absurd rfl h
  · rw [Bool.not_eq_true] at hexact
    simp only [not_or,not_not] at hmissing
    obtain ⟨-,hblank,hflatten⟩ := hmissing
    obtain ⟨before,after,hsplit,hlength,hbefore,hafter⟩ := strip_places p.fullText
    have htexts : a.paragraphs.map (paragraphText false) = a.paragraphs.map strip := rfl
    have hdrop : p.fullText.drop 0 = before++((a.paragraphs.map strip).flatten++after) := by
      rw [hflatten]
      exact hsplit
    have hvisible : ∀ q ∈ a.paragraphs.map strip, ∃ c rest, q = c::rest ∧ isSpace c = false := by
      intro q hq
      obtain ⟨paragraph,-,rfl⟩ := List.mem_map.mp hq
      exact strip_head fun hnil => hblank (hnil ▸ hq)
    rw [hexact,htexts]
    refine ⟨⟨before,after,hdrop,hlength,hbefore,hafter⟩,?_⟩
    have hlead : 0+before.length = leading false p.fullText+([] : List Text).flatten.length := by
      simpa using hlength
    obtain ⟨units,hunits,hin⟩ := foundUnits_in (exactPositions d.parserVersion) true
      rfl hvisible hbefore hdrop hlead
    rw [hunits]
    exact hin

theorem UnitIn.stop_le {u : ChunkUnit} (h : UnitIn fullText offset texts u) :
    u.parentStart+u.text.length ≤ fullText.length := by
  have hlength := congrArg List.length h.text
  have hpos := List.length_pos_iff.mpr h.nonempty
  rw [Regex.slice_length] at hlength
  omega

/-- A piece has the text of its span and lies in one paragraph. -/
structure PieceIn (fullText : Text) (offset : ℕ) (texts : List Text) (content : Text)
    (span : ℕ × ℕ) : Prop where
  ordered : span.1 ≤ span.2 ∧ span.2 ≤ fullText.length
  text : content = slice fullText span.1 span.2
  within : InText offset texts span.1 span.2

theorem unitPieces_in (sizes : Sizes) {u : ChunkUnit} (h : UnitIn fullText offset texts u) :
    ∀ piece ∈ unitPieces sizes u, PieceIn fullText offset texts piece.2.1 piece.2.2 := by
  intro piece hpiece
  obtain ⟨w,hw,rfl⟩ := List.mem_map.mp hpiece
  obtain ⟨hle,hlength,htext⟩ := (windowPieces_windowed sizes u.text).slices w hw
  obtain ⟨before,paragraph,after,htexts,hlow,hhigh⟩ := h.within
  have hstop := h.stop_le
  refine ⟨⟨?_,?_⟩,?_,before,paragraph,after,htexts,?_,?_⟩
  · exact Nat.add_le_add_left hle _
  · change u.parentStart+w.stop ≤ fullText.length
    omega
  · change w.text = slice fullText (u.parentStart+w.start) (u.parentStart+w.stop)
    rw [htext]
    conv_lhs => rw [h.text]
    exact slice_within hlength
  · change offset+before.flatten.length ≤ u.parentStart+w.start
    omega
  · change u.parentStart+w.stop ≤ offset+before.flatten.length+paragraph.length
    omega

theorem articlePieces_nil (h : unitsOf d p a = []) : articlePieces d p a = [] := by
  unfold articlePieces
  rw [h]
  rfl

theorem articlePieces_in (h : articlePieces d p a ≠ []) :
    Placed p.fullText (offsetOf d p) (textsOf d a) ∧
      ∀ piece ∈ articlePieces d p a,
        PieceIn p.fullText (offsetOf d p) (textsOf d a) piece.2.1 piece.2.2 := by
  obtain ⟨hplaced,hunits⟩ := unitsOf_in fun hnil => h (articlePieces_nil hnil)
  refine ⟨hplaced,?_⟩
  intro piece hpiece
  obtain ⟨u,hu,hwindow⟩ := List.mem_flatMap.mp hpiece
  exact unitPieces_in d.sizes (hunits u hu) piece hwindow

theorem unitPieces_some (sizes : Sizes) (u : ChunkUnit) : unitPieces sizes u ≠ [] := by
  obtain ⟨w,rest,hfirst,-⟩ := (windowPieces_windowed sizes u.text).first
  unfold unitPieces
  rw [hfirst]
  exact List.cons_ne_nil _ _

theorem articlePieces_some (h : unitsOf d p a ≠ []) : articlePieces d p a ≠ [] := by
  obtain ⟨u,rest,hunits⟩ := List.exists_cons_of_ne_nil h
  have hpieces : articlePieces d p a = (unitsOf d p a).flatMap (unitPieces d.sizes) := rfl
  rw [hpieces,hunits,List.flatMap_cons]
  exact List.append_ne_nil_of_left_ne_nil (unitPieces_some d.sizes u) _

def Covered (sha256 : List UInt8 → Digest) (children : List (LocatedLegalChunk sha256)) (i : ℕ) :
    Prop := ∃ c ∈ children, c.span.1 ≤ i ∧ i < c.span.2

/-- One parent with the whole text and the children that are cut from its paragraphs. -/
structure ProvisionChunks {sha256 : List UInt8 → Digest} (d : Derivation) (pair : ArticlePair)
    (g : LocatedLegalChunk sha256 × List (LocatedLegalChunk sha256)) : Prop where
  root : g.1.chunk.value.parentChunkId = none
  whole : g.1.chunk.value.content = pair.1.fullText ∧ g.1.span = (0,pair.1.fullText.length)
  under : ∀ c ∈ g.2, c.chunk.value.parentChunkId = some g.1.chunk.value.id
  owned : ∀ c ∈ g.1::g.2, c.chunk.value.provisionId = pair.1.id
  recorded : ∀ c ∈ g.1::g.2,
    c.chunk.value.content = slice pair.1.fullText c.span.1 c.span.2 ∧
      c.chunk.value.parentRelativeCharStart = position d c.span.1 ∧
      c.chunk.value.parentRelativeCharEnd = position d c.span.2
  placed : g.2 ≠ [] → Placed pair.1.fullText (offsetOf d pair.1) (textsOf d pair.2)
  within : ∀ c ∈ g.2, InText (offsetOf d pair.1) (textsOf d pair.2) c.span.1 c.span.2
  short : pair.1.fullText.length ≤ d.sizes.maxLeaf → g.2 = []
  visible : exactPositions d.parserVersion = true → g.2 ≠ [] →
    ∀ i c, pair.1.fullText[i]? = some c → isSpace c = false → Covered sha256 g.2 i
  exact : exactTextChunks d.parserVersion = true → d.sizes.maxLeaf < pair.1.fullText.length →
    g.2 ≠ [] ∧ ∀ i < pair.1.fullText.length, Covered sha256 g.2 i

variable {sha256 : List UInt8 → Digest} {pair : ArticlePair}
  {g : LocatedLegalChunk sha256 × List (LocatedLegalChunk sha256)}

theorem group_child (h : IsGroup d pair g) {c : LocatedLegalChunk sha256} (hc : c ∈ g.2) :
    ∃ piece ∈ articlePieces d pair.1 pair.2,
      IsPiece sha256 d pair.1.id (some g.1.chunk.value.id) piece c :=
  forall₂_mem_right h.children hc

theorem group_nil_iff (h : IsGroup d pair g) :
    g.2 = [] ↔ articlePieces d pair.1 pair.2 = [] := by
  rw [← List.length_eq_zero_iff,← List.length_eq_zero_iff,h.children.length_eq]

theorem group_covered (h : IsGroup d pair g) {low high : ℕ}
    (hchildren : Children pair.1.fullText low high (articlePieces d pair.1 pair.2)) {i : ℕ}
    (hlow : low ≤ i) (hhigh : i < high) : Covered sha256 g.2 i := by
  obtain ⟨piece,hpiece,hstart,hstop⟩ := hchildren.tiles.covers i hlow hhigh
  obtain ⟨c,hc,-,hspan⟩ := forall₂_mem_right h.children.flip hpiece
  refine ⟨c,hc,?_⟩
  rw [hspan]
  exact ⟨hstart,hstop⟩

theorem exactPieces_children (h : exactTextChunks d.parserVersion = true)
    (hunits : unitsOf d p a ≠ []) :
    Children p.fullText 0 p.fullText.length (articlePieces d p a) := by
  have hpieces : articlePieces d p a = (unitsOf d p a).flatMap (unitPieces d.sizes) := rfl
  rw [hpieces]
  unfold unitsOf unitsForArticle at hunits ⊢
  rw [h] at hunits ⊢
  dsimp only at hunits ⊢
  simp only [if_true] at hunits ⊢
  split_ifs at hunits ⊢ with hshort hmissing
  · exact absurd rfl hunits
  · exact absurd rfl hunits
  · have hflat : p.fullText = a.paragraphs.flatten := (not_not.mp (not_or.mp hmissing).2).symm
    have hcontiguous := @exactUnits_contiguous _ 0 a.paragraphs hflat
    rw [Nat.zero_add,← hflat] at hcontiguous
    exact units_children hcontiguous

theorem short_pieces (h : p.fullText.length ≤ d.sizes.maxLeaf) : articlePieces d p a = [] := by
  apply articlePieces_nil
  unfold unitsOf unitsForArticle
  exact if_pos h

theorem group_chunks (h : IsGroup d pair g) : ProvisionChunks d pair g := by
  obtain ⟨⟨id,hparent⟩,hspan⟩ := h.parent
  have hsome : g.2 ≠ [] → articlePieces d pair.1 pair.2 ≠ [] := fun hne hnil =>
    hne ((group_nil_iff h).mpr hnil)
  have hin : ∀ c ∈ g.2, PieceIn pair.1.fullText (offsetOf d pair.1) (textsOf d pair.2)
      c.chunk.value.content c.span := by
    intro c hc
    obtain ⟨piece,hpiece,⟨id,hfields⟩,hplace⟩ := group_child h hc
    rw [hfields,hplace]
    exact (articlePieces_in (List.ne_nil_of_mem hpiece)).2 piece hpiece
  constructor
  · rw [hparent]
    rfl
  · rw [hparent]
    exact ⟨rfl,hspan⟩
  · intro c hc
    obtain ⟨piece,-,⟨id,hfields⟩,-⟩ := group_child h hc
    rw [hfields]
    rfl
  · intro c hc
    rcases List.mem_cons.mp hc with rfl | hc
    · rw [hparent]
      rfl
    · obtain ⟨piece,-,⟨id,hfields⟩,-⟩ := group_child h hc
      rw [hfields]
      rfl
  · intro c hc
    rcases List.mem_cons.mp hc with rfl | hc
    · rw [hspan,hparent]
      exact ⟨by simp [chunkFields,parentPiece,slice],rfl,rfl⟩
    · refine ⟨(hin c hc).text,?_⟩
      obtain ⟨piece,-,⟨id,hfields⟩,hplace⟩ := group_child h hc
      rw [hplace,hfields]
      exact ⟨rfl,rfl⟩
  · exact fun hne => (articlePieces_in (hsome hne)).1
  · exact fun c hc => (hin c hc).within
  · exact fun hshort => (group_nil_iff h).mpr (short_pieces hshort)
  · intro hpositions hne i c hget hc
    rcases articlePieces_children d pair.1 pair.2 hpositions with hnil | ⟨low,high,hchildren,-,
      hblank⟩
    · exact absurd hnil (hsome hne)
    · have hinside : ¬(i < low ∨ high ≤ i) := by
        intro houtside
        rw [hblank i c hget houtside] at hc
        cases hc
      exact group_covered h hchildren (by omega) (by omega)
  · intro hexact hlong
    have hunits : unitsOf d pair.1 pair.2 ≠ [] := fun hnil => h.units ⟨hexact,hlong,hnil⟩
    refine ⟨fun hnil => articlePieces_some hunits ((group_nil_iff h).mp hnil),?_⟩
    intro i hi
    exact group_covered h (exactPieces_children hexact hunits) (Nat.zero_le i) hi

theorem roots_provisions {pairs : List ArticlePair}
    {groups : List (LocatedLegalChunk sha256 × List (LocatedLegalChunk sha256))}
    (h : List.Forall₂ (ProvisionChunks d) pairs groups) :
    (groups.flatMap fun g => g.1::g.2).filter (fun c => c.chunk.value.parentChunkId.isNone) =
      groups.map Prod.fst := by
  induction h with
  | nil => rfl
  | @cons pair g pairs groups hg _ ih =>
    have hchildren : g.2.filter (fun c => c.chunk.value.parentChunkId.isNone) = [] := by
      apply List.filter_eq_nil_iff.mpr
      intro c hc
      simp [hg.under c hc]
    rw [List.flatMap_cons,List.filter_append,List.filter_cons_of_pos (by simp [hg.root]),hchildren,
      ih,List.map_cons]
    rfl

/-- A derivation that succeeds gives every provision its chunks. -/
theorem derived_chunks (c : DeriveCall) (newId : ℕ → UUID7)
    (located : List (LocatedLegalChunk sha256))
    (h : deriveHierarchicalChunksWithLocations c newId = .ok located) :
    ∃ sizes pairs groups, validateSettings c.settings = .ok sizes ∧
      pairs.Perm (c.provisions.zip c.articles) ∧ pairs.length = c.provisions.length ∧
      located = groups.flatMap (fun g => g.1::g.2) ∧
      located.filter (fun l => l.chunk.value.parentChunkId.isNone) = groups.map Prod.fst ∧
      List.Forall₂ (ProvisionChunks (callDerivation c sizes)) pairs groups := by
  obtain ⟨sizes,hcall,hderived⟩ := derive_ok.mp h
  obtain ⟨hsettings,-,hlength⟩ := validateCall_ok hcall
  obtain ⟨groups,hlocated,hgroups,-⟩ := deriveFrom_ok hderived
  have hchunks : List.Forall₂ (ProvisionChunks (callDerivation c sizes)) (callPairs c) groups :=
    hgroups.imp fun _ _ hgroup => group_chunks hgroup
  have hperm : (callPairs c).Perm (c.provisions.zip c.articles) := List.perm_insertionSort _ _
  refine ⟨sizes,callPairs c,groups,hsettings,hperm,?_,hlocated,?_,hchunks⟩
  · rw [hperm.length_eq,List.length_zip,hlength,Nat.min_self]
  · rw [hlocated]
    exact roots_provisions hchunks

/-- A derivation of two paragraphs under an exact profile. -/
theorem derived_chunks_sample : ∃ located : List (LocatedLegalChunk sampleSha256),
    deriveHierarchicalChunksWithLocations (repeatedCall "corpus-docx-v5/hierarchical-v2") sampleId =
      .ok located ∧ ∃ sizes pairs groups, validateSettings ⟨4,4,1⟩ = .ok sizes ∧
        located = groups.flatMap (fun g => g.1::g.2) ∧
        List.Forall₂ (ProvisionChunks (callDerivation
          (repeatedCall "corpus-docx-v5/hierarchical-v2") sizes)) pairs groups := by
  obtain ⟨located,hlocated,-⟩ := repeated_derived "corpus-docx-v5/hierarchical-v2"
    (by decide)
  obtain ⟨sizes,pairs,groups,hsizes,-,-,hgroups,-,hchunks⟩ := derived_chunks _ _ located hlocated
  exact ⟨located,hlocated,sizes,pairs,groups,hsizes,hgroups,hchunks⟩

end LawyerAgent.ParagraphChunks
