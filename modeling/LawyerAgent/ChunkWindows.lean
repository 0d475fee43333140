import LawyerAgent.ChunkStructure
import LawyerAgent.LegalParserOffsets
import LawyerAgent.Spans.Tiles

/-!
# Windows and units tile an article

The windows of a unit tile it, and under exact positions the units of an
article tile its text up to blanks at both ends. So the children of an article
have different places and leave no visible character out.
-/

set_option autoImplicit false

namespace LawyerAgent.ChunkWindows
open Common PythonText LegalCorpus ChunkStructure
open LegalArticleHeading (Text)
open Regex (slice slice_length slice_drop)
open Spans (Tiles tiles_append tiles_cons tiles_nil tiles_shift tiles_single)

variable {sizes : Sizes} {text : Text} {start : ℕ}

theorem rfind_lt (text : Text) (marker : Char) (low stop : ℕ) :
    rfind text marker low stop < stop := by
  unfold rfind
  cases hlast : ((List.range' low (stop-low)).filter fun i => text[i]? == some marker).getLast? with
  | none =>
    simp only [Option.map_none,Option.getD_none]
    omega
  | some i =>
    have hmem := (List.mem_filter.mp (List.mem_of_getLast? hlast)).1
    obtain ⟨hlow,hhigh⟩ := List.mem_range'_1.mp hmem
    simp only [Option.map_some,Option.getD_some,Int.ofNat_eq_natCast]
    omega

theorem foldl_max_lt {values : List ℤ} {limit start : ℤ} (hstart : start < limit)
    (h : ∀ v ∈ values, v < limit) : values.foldl max start < limit := by
  induction values generalizing start with
  | nil => exact hstart
  | cons v values ih =>
    exact ih (max_lt hstart (h v List.mem_cons_self)) fun w hw => h w (List.mem_cons_of_mem _ hw)

theorem boundary_lt (text : Text) (low stop : ℕ) :
    (sentenceEnds.map fun marker => rfind text marker low stop).foldl max (-1) < (stop : ℤ) := by
  apply foldl_max_lt (by omega)
  intro v hv
  obtain ⟨marker,-,rfl⟩ := List.mem_map.mp hv
  exact rfind_lt text marker low stop

theorem windowEnd_bounds (sizes : Sizes) (h : start < text.length) :
    start < windowEnd sizes text start ∧
    windowEnd sizes text start ≤ text.length ∧
    (windowEnd sizes text start < text.length →
      start+(sizes.window-sizes.overlap) ≤ windowEnd sizes text start) := by
  have hoverlap := sizes.overlaps
  unfold windowEnd
  simp only []
  split_ifs with hstop hboundary
  · have hlt :=
      boundary_lt text (max (start+1) (min (start+sizes.window) text.length-sizes.overlap))
      (min (start+sizes.window) text.length)
    generalize (sentenceEnds.map fun marker => rfind text marker
      (max (start+1) (min (start+sizes.window) text.length-sizes.overlap))
      (min (start+sizes.window) text.length)).foldl max (-1) = boundary at hlt hboundary ⊢
    omega
  · omega
  · omega

theorem nextStart_le (h : start < text.length) (hstop : windowEnd sizes text start < text.length) :
    nextStart sizes text start ≤ windowEnd sizes text start := by
  have hbounds := (windowEnd_bounds sizes h).2.2 hstop
  unfold nextStart
  omega

theorem windowsFrom_tiles (h : start ≤ text.length) :
    Tiles Piece.start Piece.stop start text.length (windowsFrom sizes text start) := by
  induction start using windowsFrom.induct sizes text with
  | case1 start hstart ih =>
    obtain ⟨hlow,hhigh,-⟩ := windowEnd_bounds sizes hstart
    rw [windowsFrom,if_pos hstart]
    by_cases hend : text.length ≤ windowEnd sizes text start
    · have hlast : windowEnd sizes text start = text.length := by omega
      rw [if_pos hend,hlast]
      exact tiles_single rfl rfl hstart
    · have hnext := nextStart_le hstart (Nat.lt_of_not_le hend)
      rw [if_neg hend]
      exact tiles_cons rfl (lt_nextStart sizes text start) hnext hhigh (ih (by omega))
  | case2 start hstart =>
    rw [windowsFrom,if_neg hstart]
    have hlast : start = text.length := by omega
    rw [hlast]
    exact tiles_nil _

theorem windowsFrom_slices :
    ∀ p ∈ windowsFrom sizes text start, p.text = slice text p.start p.stop := by
  induction start using windowsFrom.induct sizes text with
  | case1 start hstart ih =>
    rw [windowsFrom,if_pos hstart]
    intro p hp
    rcases List.mem_cons.mp hp with rfl | hp
    · rfl
    · split at hp
      · cases hp
      · exact ih p hp
  | case2 start hstart =>
    rw [windowsFrom,if_neg hstart]
    simp

theorem windowPieces_tiles (sizes : Sizes) (h : text ≠ []) :
    Tiles Piece.start Piece.stop 0 text.length (windowPieces sizes text) := by
  unfold windowPieces
  split
  · exact tiles_single rfl rfl (List.length_pos_iff.mpr h)
  · exact windowsFrom_tiles (Nat.zero_le _)

theorem windowPieces_slices :
    ∀ p ∈ windowPieces sizes text, p.text = slice text p.start p.stop := by
  unfold windowPieces
  split
  · intro p hp
    rw [List.mem_singleton.mp hp]
    simp [slice]
  · exact windowsFrom_slices

/-- A window starts behind the start of the one before it and no later than its
end, of which it repeats at most the overlap. -/
def Follows (sizes : Sizes) (p q : Piece) : Prop :=
  p.start < q.start ∧ q.start ≤ p.stop ∧ p.stop ≤ q.start+sizes.overlap

theorem windowEnd_le (sizes : Sizes) (text : Text) (start : ℕ) :
    windowEnd sizes text start ≤ start+sizes.window := by
  unfold windowEnd
  simp only []
  split_ifs with hstop hboundary
  · have hlt :=
      boundary_lt text (max (start+1) (min (start+sizes.window) text.length-sizes.overlap))
      (min (start+sizes.window) text.length)
    omega
  · omega
  · omega

theorem windowsFrom_head (h : start < text.length) : ∃ rest, windowsFrom sizes text start =
    ⟨slice text start (windowEnd sizes text start),start,windowEnd sizes text start⟩::rest := by
  rw [windowsFrom,if_pos h]
  exact ⟨_,rfl⟩

theorem windowsFrom_last (h : start < text.length) : ∃ before last,
    windowsFrom sizes text start = before++[last] ∧ last.stop = text.length := by
  induction start using windowsFrom.induct sizes text with
  | case1 start hstart ih =>
    obtain ⟨-,hhigh,-⟩ := windowEnd_bounds sizes hstart
    rw [windowsFrom,if_pos hstart]
    by_cases hend : text.length ≤ windowEnd sizes text start
    · rw [if_pos hend]
      exact ⟨[],_,rfl,Nat.le_antisymm hhigh hend⟩
    · have hnext := nextStart_le hstart (Nat.lt_of_not_le hend)
      obtain ⟨before,last,hrest,hlast⟩ := ih (by omega)
      rw [if_neg hend,hrest]
      exact ⟨_::before,last,rfl,hlast⟩
  | case2 start hstart => exact absurd h hstart

theorem windowsFrom_follows : (windowsFrom sizes text start).IsChain (Follows sizes) := by
  induction start using windowsFrom.induct sizes text with
  | case1 start hstart ih =>
    rw [windowsFrom,if_pos hstart]
    by_cases hend : text.length ≤ windowEnd sizes text start
    · rw [if_pos hend]
      exact List.isChain_singleton _
    · have hstop := Nat.lt_of_not_le hend
      have hnext := nextStart_le hstart hstop
      obtain ⟨rest,hrest⟩ := @windowsFrom_head sizes _ _ (hnext.trans_lt hstop)
      rw [if_neg hend]
      rw [hrest] at ih ⊢
      apply List.isChain_cons_cons.mpr
      refine ⟨⟨lt_nextStart sizes text start,hnext,?_⟩,ih⟩
      have hback : windowEnd sizes text start-sizes.overlap ≤ nextStart sizes text start :=
        le_max_right _ _
      change windowEnd sizes text start ≤ nextStart sizes text start+sizes.overlap
      omega
  | case2 start hstart =>
    rw [windowsFrom,if_neg hstart]
    exact List.isChain_nil

theorem windowsFrom_short : ∀ p ∈ windowsFrom sizes text start,
    p.start ≤ p.stop ∧ p.stop ≤ text.length ∧ p.stop ≤ p.start+sizes.window := by
  induction start using windowsFrom.induct sizes text with
  | case1 start hstart ih =>
    obtain ⟨hlow,hhigh,-⟩ := windowEnd_bounds sizes hstart
    have hwindow := windowEnd_le sizes text start
    rw [windowsFrom,if_pos hstart]
    intro p hp
    rcases List.mem_cons.mp hp with rfl | hp
    · exact ⟨hlow.le,hhigh,hwindow⟩
    · split at hp
      · cases hp
      · exact ih p hp
  | case2 start hstart =>
    rw [windowsFrom,if_neg hstart]
    simp

/-- The pieces of a text: a leaf that is not too long is kept whole, a longer
one is cut into windows. -/
structure Windowed (sizes : Sizes) (text : Text) (pieces : List Piece) : Prop where
  first : ∃ p rest, pieces = p::rest ∧ p.start = 0
  last : ∃ before p, pieces = before++[p] ∧ p.stop = text.length
  slices : ∀ p ∈ pieces, p.start ≤ p.stop ∧ p.stop ≤ text.length ∧
    p.text = slice text p.start p.stop
  kept : text.length ≤ sizes.maxLeaf → pieces = [⟨text,0,text.length⟩]
  short : sizes.maxLeaf < text.length → ∀ p ∈ pieces, p.text.length ≤ sizes.window
  follows : pieces.IsChain (Follows sizes)

theorem windowPieces_windowed (sizes : Sizes) (text : Text) :
    Windowed sizes text (windowPieces sizes text) := by
  by_cases hshort : text.length ≤ sizes.maxLeaf
  · have hpieces : windowPieces sizes text = [⟨text,0,text.length⟩] := if_pos hshort
    refine ⟨⟨_,_,hpieces,rfl⟩,⟨[],_,hpieces,rfl⟩,?_,fun _ => hpieces,fun hlong => ?_,?_⟩
    · rw [hpieces]
      intro p hp
      rw [List.mem_singleton.mp hp]
      simp [slice]
    · omega
    · rw [hpieces]
      exact List.isChain_singleton _
  · have hpieces : windowPieces sizes text = windowsFrom sizes text 0 := if_neg hshort
    have hstart : 0 < text.length := by omega
    obtain ⟨rest,hfirst⟩ := @windowsFrom_head sizes _ _ hstart
    obtain ⟨before,last,hlast,hstop⟩ := @windowsFrom_last sizes _ _ hstart
    rw [hpieces]
    refine ⟨⟨_,rest,hfirst,rfl⟩,⟨before,last,hlast,hstop⟩,?_,fun h => absurd h hshort,?_,
      windowsFrom_follows⟩
    · intro p hp
      obtain ⟨hle,hlength,-⟩ := windowsFrom_short p hp
      exact ⟨hle,hlength,windowsFrom_slices p hp⟩
    · intro _ p hp
      obtain ⟨hle,hlength,hwindow⟩ := windowsFrom_short p hp
      rw [windowsFrom_slices p hp,slice_length]
      omega

theorem validateSettings_ok {settings : Settings} {sizes : Sizes}
    (h : validateSettings settings = .ok sizes) :
    (sizes.maxLeaf : ℤ) = settings.maxLeafChars ∧ (sizes.window : ℤ) = settings.windowChars ∧
      (sizes.overlap : ℤ) = settings.overlapChars := by
  unfold validateSettings at h
  split at h
  · cases h
  · next hchecks =>
    cases h
    have hall : ∀ c ∈ settingsChecks settings, c.1 = true := fun c hc => firstError_none hchecks hc
    simp only [settingsChecks,List.forall_mem_cons,decide_eq_true_eq] at hall
    simp only
    omega

theorem pieces_windowed (text : Text) {settings : Settings} {sizes : Sizes}
    (h : validateSettings settings = .ok sizes) :
    (sizes.maxLeaf : ℤ) = settings.maxLeafChars ∧ (sizes.window : ℤ) = settings.windowChars ∧
      (sizes.overlap : ℤ) = settings.overlapChars ∧
      Windowed sizes text (windowPieces sizes text) := by
  obtain ⟨hleaf,hwindow,hoverlap⟩ := validateSettings_ok h
  exact ⟨hleaf,hwindow,hoverlap,windowPieces_windowed sizes text⟩

theorem pieces_windowed_sample : ∃ sizes, validateSettings ⟨5,4,1⟩ = .ok sizes ∧
    Windowed sizes ['甲','。','乙','丙','丁','。'] (windowPieces sizes ['甲','。','乙','丙','丁','。']) :=
  ⟨_,rfl,(@pieces_windowed ['甲','。','乙','丙','丁','。'] ⟨5,4,1⟩ _ rfl).2.2.2⟩

/-- A leaf between the two limits is one piece, which is longer than a window. -/
theorem leaf_beyond_window : ∃ sizes, validateSettings ⟨5,4,1⟩ = .ok sizes ∧
    ∃ p ∈ windowPieces sizes ['甲','乙','丙','丁','。'], sizes.window < p.text.length :=
  ⟨_,rfl,⟨['甲','乙','丙','丁','。'],0,5⟩,List.mem_singleton_self _,by decide⟩

/-- Units of the text, each where its predecessor stops, from `a` to `b`. -/
def Contiguous (fullText : Text) : ℕ → ℕ → List ChunkUnit → Prop
  | a, b, [] => a = b
  | a, b, u::us => u.parentStart = a ∧ u.text ≠ [] ∧
    u.text = slice fullText a (a+u.text.length) ∧ Contiguous fullText (a+u.text.length) b us

variable {fullText : Text} {a b : ℕ} {units : List ChunkUnit}

theorem contiguous_le (h : Contiguous fullText a b units) : a ≤ b := by
  induction units generalizing a with
  | nil => exact Nat.le_of_eq h
  | cons u us ih =>
    have hrest := ih h.2.2.2
    omega

theorem slice_word {cursor : ℕ} {word rest : Text} (h : fullText.drop cursor = word++rest) :
    word = slice fullText cursor (cursor+word.length) := by
  rw [slice,List.drop_take,h,Nat.add_sub_cancel_left,List.take_left]

theorem drop_word {cursor : ℕ} {word rest : Text} (h : fullText.drop cursor = word++rest) :
    fullText.drop (cursor+word.length) = rest := by
  rw [← List.drop_drop,h,List.drop_left]

theorem exactUnits_contiguous {cursor : ℕ} {paragraphs : List Text}
    (h : fullText.drop cursor = paragraphs.flatten) :
    Contiguous fullText cursor (cursor+paragraphs.flatten.length)
      (exactUnits cursor paragraphs) := by
  induction paragraphs generalizing cursor with
  | nil => exact (Nat.add_zero cursor).symm
  | cons paragraph rest ih =>
    rw [List.flatten_cons] at h
    by_cases hempty : paragraph = []
    · subst hempty
      rw [exactUnits,if_pos rfl]
      exact ih h
    · rw [exactUnits,if_neg hempty,List.flatten_cons,List.length_append,← Nat.add_assoc]
      exact ⟨rfl,hempty,slice_word h,ih (drop_word h)⟩

/-- A word is found behind blanks when it does not start with one. -/
theorem find_behind {cursor : ℕ} {c : Char} {blanks word rest : Text} (hc : isSpace c = false)
    (hblanks : ∀ c ∈ blanks, isSpace c = true)
    (h : fullText.drop cursor = blanks++(c::word++rest)) :
    find fullText (c::word) cursor = some (cursor+blanks.length) := by
  have hlength : fullText.length-cursor = blanks.length+((c::word).length+rest.length) := by
    rw [← List.length_drop,h,List.length_append,List.length_append]
  rw [List.length_cons] at hlength
  apply List.find?_range'_eq_some.mpr
  refine ⟨?_,List.mem_range'_1.mpr ⟨by omega,by omega⟩,fun j hlow hhigh => ?_⟩
  · rw [drop_word h,List.isPrefixOf_iff_prefix]
    exact List.prefix_append _ _
  · obtain ⟨n,rfl⟩ := Nat.exists_eq_add_of_le hlow
    have hn : n < blanks.length := by omega
    have hdrop : fullText.drop (cursor+n) = blanks[n]::(blanks.drop (n+1)++(c::word++rest)) := by
      rw [← List.drop_drop,h,List.drop_append_of_le_length (by omega),List.drop_eq_getElem_cons hn,
        List.cons_append]
    have hne : c ≠ blanks[n] := by
      intro hsame
      rw [hsame,hblanks _ (List.getElem_mem hn)] at hc
      cases hc
    rw [hdrop,List.isPrefixOf,beq_false_of_ne hne]
    rfl

theorem foundUnits_contiguous {paragraphs : List Text} {cursor : ℕ} {blanks tail : Text}
    (first : Bool) (hparagraphs : ∀ p ∈ paragraphs, ∃ c rest, p = c::rest ∧ isSpace c = false)
    (hblanks : ∀ c ∈ blanks, isSpace c = true)
    (h : fullText.drop cursor = blanks++(paragraphs.flatten++tail)) :
    ∃ units, foundUnits fullText true first cursor paragraphs = some units ∧
      Contiguous fullText (cursor+blanks.length)
        (cursor+blanks.length+paragraphs.flatten.length) units := by
  induction paragraphs generalizing cursor blanks first with
  | nil => exact ⟨[],rfl,(Nat.add_zero _).symm⟩
  | cons paragraph rest ih =>
    obtain ⟨c,word,rfl,hc⟩ := hparagraphs paragraph List.mem_cons_self
    rw [List.flatten_cons,List.append_assoc] at h
    have hfind := find_behind hc hblanks h
    have hword := drop_word h
    have hrest := drop_word hword
    have hnone : ∀ d ∈ ([] : Text), isSpace d = true := by simp
    have hnext : ∃ units, foundUnits fullText true false (cursor+blanks.length+(c::word).length)
        rest = some units ∧ Contiguous fullText (cursor+blanks.length+(c::word).length)
          (cursor+blanks.length+(c::word).length+rest.flatten.length) units :=
      ih false (fun p hp => hparagraphs p (List.mem_cons_of_mem _ hp)) hnone hrest
    obtain ⟨units,hunits,hcontiguous⟩ := hnext
    refine ⟨⟨classify (c::word),c::word,cursor+blanks.length⟩::units,?_,?_⟩
    · rw [foundUnits,hfind]
      simp only [Bool.not_true,Bool.and_false,Bool.false_eq_true,if_false,hunits,Option.map_some,
        List.cons_ne_nil]
    · rw [List.flatten_cons,List.length_append,← Nat.add_assoc]
      exact ⟨rfl,List.cons_ne_nil _ _,slice_word hword,hcontiguous⟩

/-- The windows of units: kind, text and span. -/
def unitPieces (sizes : Sizes) (u : ChunkUnit) : List (ChunkType × Text × (ℕ × ℕ)) :=
  (windowPieces sizes u.text).map fun piece =>
    (u.kind,piece.text,(u.parentStart+piece.start,u.parentStart+piece.stop))

def pieceStart (p : ChunkType × Text × (ℕ × ℕ)) : ℕ := p.2.2.1

def pieceStop (p : ChunkType × Text × (ℕ × ℕ)) : ℕ := p.2.2.2

/-- Pieces with the text of their spans, which tile the article from `a` to `b`. -/
structure Children (fullText : Text) (a b : ℕ) (pieces : List (ChunkType × Text × (ℕ × ℕ))) :
    Prop where
  tiles : Tiles pieceStart pieceStop a b pieces
  slices : ∀ p ∈ pieces, p.2.1 = slice fullText (pieceStart p) (pieceStop p)

theorem slice_within {n m start stop : ℕ} (h : stop ≤ m) :
    slice (slice fullText n (n+m)) start stop = slice fullText (n+start) (n+stop) := by
  have hcut : slice fullText n (n+m) = (fullText.drop n).take m := by
    rw [slice,List.drop_take,Nat.add_sub_cancel_left]
  rw [slice_drop,hcut,slice,slice,List.take_take,Nat.min_eq_left h]

theorem unitPieces_children (sizes : Sizes) {u : ChunkUnit} (hstart : u.parentStart = a)
    (hne : u.text ≠ [])
    (htext : u.text = slice fullText a (a+u.text.length)) :
    Children fullText a (a+u.text.length) (unitPieces sizes u) := by
  have htiles := windowPieces_tiles sizes hne
  constructor
  · exact tiles_shift (n := a) (fun p => by rw [← hstart]; rfl) (fun p => by
      rw [← hstart]; rfl) htiles
  · intro q hq
    obtain ⟨p,hp,rfl⟩ := List.mem_map.mp hq
    have hstop := (htiles.inside p hp).2.2
    change p.text = slice fullText (u.parentStart+p.start) (u.parentStart+p.stop)
    rw [hstart,windowPieces_slices p hp]
    conv_lhs => rw [htext]
    exact slice_within hstop

theorem units_children (h : Contiguous fullText a b units) :
    Children fullText a b (units.flatMap (unitPieces sizes)) := by
  induction units generalizing a with
  | nil =>
    cases h
    exact ⟨tiles_nil _,by simp⟩
  | cons u us ih =>
    obtain ⟨hstart,hne,htext,hrest⟩ := h
    have hfirst := unitPieces_children sizes hstart hne htext
    have hnext := ih hrest
    rw [List.flatMap_cons]
    refine ⟨tiles_append (by omega) (contiguous_le hrest) hfirst.tiles hnext.tiles,?_⟩
    intro p hp
    rcases List.mem_append.mp hp with hp | hp
    · exact hfirst.slices p hp
    · exact hnext.slices p hp

/-- Outside the range there are only blanks. -/
def BlankOutside (fullText : Text) (a b : ℕ) : Prop :=
  ∀ i c, fullText[i]? = some c → i < a ∨ b ≤ i → isSpace c = true

theorem blankOutside_split {before body after : Text} (hbefore : ∀ c ∈ before, isSpace c = true)
    (hafter : ∀ c ∈ after, isSpace c = true) :
    BlankOutside (before++(body++after)) before.length (before.length+body.length) := by
  intro i c hget houtside
  rcases houtside with hlow | hhigh
  · rw [List.getElem?_append_left hlow] at hget
    exact hbefore c (List.mem_of_getElem? hget)
  · rw [List.getElem?_append_right (by omega),List.getElem?_append_right (by omega)] at hget
    exact hafter c (List.mem_of_getElem? hget)

/-- Under exact positions an article has no children, or children that tile
its text up to blanks at both ends. -/
theorem articlePieces_children (d : Derivation) (p : ProvisionSource) (article : ArticleSource)
    (h : exactPositions d.parserVersion = true) : articlePieces d p article = [] ∨
      ∃ a b, Children p.fullText a b (articlePieces d p article) ∧ b ≤ p.fullText.length ∧
        BlankOutside p.fullText a b := by
  have hpieces : articlePieces d p article = (unitsOf d p article).flatMap (unitPieces d.sizes) :=
    rfl
  rw [hpieces,unitsOf,unitsForArticle,h]
  dsimp only
  split_ifs with hshort hexact hmissing hmissing
  · exact Or.inl rfl
  · exact Or.inl rfl
  · right
    obtain ⟨-,hflatten⟩ := not_or.mp hmissing
    have htext : p.fullText.drop 0 = article.paragraphs.flatten := (not_not.mp hflatten).symm
    have hcontiguous := exactUnits_contiguous htext
    refine ⟨_,_,units_children hcontiguous,?_,?_⟩
    · rw [not_not.mp hflatten,Nat.zero_add]
    · intro i c hget houtside
      have hlength := (List.getElem?_eq_some_iff.mp hget).1
      rw [not_not.mp hflatten] at houtside
      omega
  · exact Or.inl rfl
  · right
    simp only [not_or,not_not] at hmissing
    obtain ⟨-,hblank,hflatten⟩ := hmissing
    obtain ⟨before,after,hsplit,hbefore,hafter⟩ := strip_split p.fullText
    have hdrop : p.fullText.drop 0 = before++((article.paragraphs.map strip).flatten++after) := by
      rw [hflatten]
      exact hsplit
    have hvisible : ∀ q ∈ article.paragraphs.map strip, ∃ c rest, q = c::rest ∧ isSpace c =
      false := by
      intro q hq
      obtain ⟨paragraph,-,rfl⟩ := List.mem_map.mp hq
      exact strip_head fun hnil => hblank (hnil ▸ hq)
    obtain ⟨units,hunits,hcontiguous⟩ :=
      foundUnits_contiguous true hvisible hbefore hdrop
    simp only [hunits,Option.getD_some]
    refine ⟨_,_,units_children hcontiguous,?_,?_⟩
    · have hlength := congrArg List.length hsplit
      rw [List.length_append,List.length_append] at hlength
      rw [hflatten]
      omega
    · have hends : BlankOutside (before++(strip p.fullText++after)) before.length
          (before.length+(strip p.fullText).length) := blankOutside_split hbefore hafter
      rw [← hsplit] at hends
      rw [hflatten,Nat.zero_add]
      exact hends

end LawyerAgent.ChunkWindows
