import LawyerAgent.DerivedGraphs
import Mathlib.Data.List.Flatten

/-!
# Persisting derived chunks

The chunks of an import are stored with the provisions they are cut from. A
piece is no longer than its provision, so every row of the graph fits its
table, and the rows of the version are the derived chunks in some order.
-/

set_option autoImplicit false

namespace LawyerAgent.ChunkPersistence
open Relational Common PythonText LegalCorpus
open ChunkStructure ChunkWindows ChunkReplay
open ChunkGraphs DerivedGraphs
open LegalArticleHeading (Text)
open CanonicalJson (encode encode_length)
open Regex (slice match?)

variable {sha256 : List UInt8 → Digest} {printable : Char → Bool} {newId : ℕ → UUID7}

def callPairs (c : DeriveCall) : List ArticlePair :=
  (c.provisions.zip c.articles).insertionSort earlierPair

def callDerivation (c : DeriveCall) (sizes : Sizes) : Derivation :=
  ⟨c.versionId,c.parserVersion,sizes⟩

theorem derive_ok {c : DeriveCall} {located : List (LocatedLegalChunk sha256)} :
    deriveHierarchicalChunksWithLocations c newId = .ok located ↔ ∃ sizes,
      validateCall c = .ok sizes ∧
        deriveFrom (callDerivation c sizes) newId 0 (callPairs c) = .ok located := by
  simp only [deriveHierarchicalChunksWithLocations,Outcomes.bind_ok]
  rfl

theorem validateCall_ok {c : DeriveCall} {sizes : Sizes} (h : validateCall c = .ok sizes) :
    validateSettings c.settings = .ok sizes ∧ c.provisions ≠ [] ∧
      c.provisions.length = c.articles.length := by
  unfold validateCall at h
  cases hsettings : validateSettings c.settings with
  | error message =>
    rw [hsettings] at h
    cases h
  | ok found =>
    rw [hsettings] at h
    simp only at h
    split_ifs at h with hnone _ hdiffer
    cases h
    exact ⟨rfl,hnone,not_not.mp hdiffer⟩

theorem derived_graph {c : DeriveCall} {sizes : Sizes} {located : List (LocatedLegalChunk sha256)}
    (h : deriveFrom (callDerivation c sizes) newId 0 (callPairs c) = .ok located) :
    idsOf (located.map LocatedLegalChunk.chunk) = (List.range located.length).map newId ∧
      ((idsOf (located.map LocatedLegalChunk.chunk)).Nodup →
        TwoLevel (located.map LocatedLegalChunk.chunk) ∧
          outline (located.map LocatedLegalChunk.chunk) =
            (callPairs c).map (articleOutline sha256 (callDerivation c sizes))) := by
  obtain ⟨groups,rfl,hgroups,hids⟩ := deriveFrom_ok h
  constructor
  · rw [idsOf,List.map_map,List.range_eq_range',← hids]
    rfl
  · rw [← flat_chunkGroups]
    intro hnodup
    have hgrouped := derived_grouped hgroups
    exact ⟨twoLevel_flat hgrouped hnodup,(outline_flat hgrouped hnodup).trans
      (derived_outlines hgroups)⟩

theorem derived_nodup {n : ℕ} (h : ∀ i < n, ∀ j < n, newId i = newId j → i = j) :
    ((List.range n).map newId).Nodup := by
  apply List.Nodup.map_on _ List.nodup_range
  intro i hi j hj
  exact h i (List.mem_range.mp hi) j (List.mem_range.mp hj)

theorem slice_sublist (text : Text) (start stop : ℕ) : (slice text start stop).Sublist text :=
  (List.drop_sublist _ _).trans (List.take_sublist _ _)

theorem lstrip_sublist (text : Text) : (lstrip text).Sublist text := List.dropWhile_sublist _

theorem find_sublist {text sub : Text} {start place : ℕ} (h : find text sub start = some place) :
    sub.Sublist text := by
  unfold find at h
  have hprefix : sub.isPrefixOf (text.drop place) = true := (List.find?_eq_some_iff_append.mp h).1
  exact (List.isPrefixOf_iff_prefix.mp hprefix).sublist.trans (List.drop_sublist _ _)

theorem exactUnits_mem {cursor : ℕ} {paragraphs : List Text} :
    ∀ u ∈ exactUnits cursor paragraphs, u.text ∈ paragraphs := by
  induction paragraphs generalizing cursor with
  | nil => simp [exactUnits]
  | cons paragraph rest ih =>
    intro u hu
    rw [exactUnits] at hu
    split_ifs at hu
    · exact List.mem_cons_of_mem _ (ih u hu)
    · rcases List.mem_cons.mp hu with rfl | hu
      · exact List.mem_cons_self
      · exact List.mem_cons_of_mem _ (ih u hu)

theorem withoutHeading_sublist (paragraph : Text) (start : ℕ) :
    (withoutHeading paragraph start).1.Sublist paragraph := by
  unfold withoutHeading
  cases match? LegalArticleHeading.articleHeading paragraph with
  | none => exact List.Sublist.refl _
  | some heading => exact (lstrip_sublist _).trans (List.drop_sublist _ _)

theorem foundUnits_sublist {fullText : Text} {preserve first : Bool} {cursor : ℕ}
    {paragraphs : List Text} {units : List ChunkUnit}
    (h : foundUnits fullText preserve first cursor paragraphs = some units) :
    ∀ u ∈ units, u.text.Sublist fullText := by
  induction paragraphs generalizing first cursor units with
  | nil =>
    cases h
    simp
  | cons paragraph rest ih =>
    rw [foundUnits] at h
    cases hplace : find fullText paragraph cursor with
    | none =>
      rw [hplace] at h
      cases h
    | some start =>
      simp only [hplace] at h
      have hfirst : (if (first && !preserve) = true then withoutHeading paragraph start
          else (paragraph,start)).1.Sublist fullText := by
        split_ifs
        · exact (withoutHeading_sublist _ _).trans (find_sublist hplace)
        · exact find_sublist hplace
      generalize (if (first && !preserve) = true then withoutHeading paragraph start
          else (paragraph,start)) = unit at h hfirst
      obtain ⟨later,hlater,rfl⟩ := Option.map_eq_some_iff.mp h
      intro u hu
      split_ifs at hu
      · exact ih hlater u hu
      · rcases List.mem_cons.mp hu with rfl | hu
        · exact hfirst
        · exact ih hlater u hu

variable {a : ArticleSource} {d : Derivation} {p : ProvisionSource}
  {chunks pending : List (LegalChunk sha256)} {versionId : UUID7}
  {layers : List (List (LegalChunk sha256))}

theorem unitsOf_sublist :
    ∀ u ∈ unitsOf d p a, u.text.Sublist p.fullText := by
  intro u hu
  unfold unitsOf unitsForArticle at hu
  dsimp only at hu
  split_ifs at hu with _ _ hmissing
  all_goals try exact absurd hu List.not_mem_nil
  · rw [← not_not.mp (not_or.mp hmissing).2]
    exact List.sublist_flatten_of_mem (exactUnits_mem u hu)
  · cases hfound : foundUnits p.fullText (exactPositions d.parserVersion) true 0
      (a.paragraphs.map strip) with
    | none =>
      rw [hfound] at hu
      cases hu
    | some units =>
      rw [hfound] at hu
      exact foundUnits_sublist hfound u hu

theorem windowPieces_sublist {sizes : Sizes} {text : Text} :
    ∀ p ∈ windowPieces sizes text, p.text.Sublist text := by
  intro p hp
  rw [windowPieces_slices p hp]
  exact slice_sublist _ _ _

theorem articlePieces_sublist :
    ∀ piece ∈ articlePieces d p a, piece.2.1.Sublist p.fullText := by
  intro piece hpiece
  obtain ⟨u,hu,hwindow⟩ := List.mem_flatMap.mp hpiece
  obtain ⟨window,hmem,rfl⟩ := List.mem_map.mp hwindow
  exact (windowPieces_sublist window hmem).trans (unitsOf_sublist u hu)

theorem encode_sublist {text whole : Text} (h : text.Sublist whole) :
    (encode text).length ≤ (encode whole).length := (h.flatMap String.utf8EncodeChar).length_le

theorem checkChunkIds_ok {seen : List UUID7} (h : checkChunkIds versionId seen chunks = .ok ()) :
    (∀ c ∈ chunks, c.value.versionId = versionId) ∧ (idsOf chunks).Nodup ∧
      ∀ id ∈ idsOf chunks, id ∉ seen := by
  induction chunks generalizing seen with
  | nil => exact ⟨by simp,List.nodup_nil,by simp [idsOf]⟩
  | cons c cs ih =>
    rw [checkChunkIds] at h
    split_ifs at h with hversion hseen
    obtain ⟨hversions,hnodup,hfresh⟩ := ih h
    refine ⟨?_,?_,?_⟩
    · intro x hx
      rcases List.mem_cons.mp hx with rfl | hx
      · exact not_not.mp hversion
      · exact hversions x hx
    · rw [idsOf,List.map_cons,List.nodup_cons]
      exact ⟨fun hmem => hfresh _ hmem List.mem_cons_self,hnodup⟩
    · intro id hid
      rcases List.mem_cons.mp hid with rfl | hid
      · exact hseen
      · exact fun hmem => hfresh id hid (List.mem_cons_of_mem _ hmem)

theorem layersFrom_perm {inserted : List UUID7} (h : layersFrom inserted pending = .ok layers) :
    layers.flatten.Perm pending := by
  induction inserted, pending using layersFrom.induct generalizing layers with
  | case1 inserted =>
    rw [layersFrom,if_pos rfl] at h
    cases h
    exact List.Perm.refl _
  | case2 inserted pending hne hlayer =>
    rw [layersFrom,if_neg hne,if_pos hlayer] at h
    cases h
  | case3 inserted pending hne hlayer ih =>
    rw [layersFrom,if_neg hne,if_neg hlayer] at h
    cases hrest : layersFrom (inserted++(nextLayer inserted pending).map fun c => c.value.id)
        (laterLayers inserted pending) with
    | error e =>
      rw [hrest] at h
      cases h
    | ok rest =>
      rw [hrest] at h
      cases h
      rw [List.flatten_cons]
      exact ((ih hrest).append_left _).trans (List.filter_append_perm _ pending)

theorem insertLayers_rows {s t : Corpus sha256} {u : Unit} (h : insertLayers layers s = .ok (u,t)) :
    t.chunks.rows.Perm (layers.flatten++s.chunks.rows) ∧ t.provisions = s.provisions := by
  induction layers generalizing s with
  | nil =>
    obtain ⟨-,rfl⟩ := pure_ok.mp h
    exact ⟨List.Perm.refl _,rfl⟩
  | cons layer layers ih =>
    simp only [insertLayers,bind_ok,zoom_ok,insertRows_ok] at h
    obtain ⟨_,_,⟨chunks,hrows,rfl⟩,h⟩ := h
    obtain ⟨hperm,hprovisions⟩ := ih h
    refine ⟨hperm.trans ?_,hprovisions⟩
    change (layers.flatten++chunks.rows).Perm _
    rw [hrows,List.flatten_cons,List.append_assoc]
    exact List.perm_append_comm_assoc _ _ _

/-- What a replacement leaves in the table of the chunks. -/
structure Replacement (versionId : UUID7) (chunks : List (LegalChunk sha256))
    (s t : Corpus sha256) :
    Prop where
  rows : t.chunks.rows.Perm (chunks++s.chunks.rows.filter fun c =>
    !(c.value.versionId == versionId))
  provisions : t.provisions = s.provisions
  ids : (idsOf chunks).Nodup
  version : ∀ c ∈ chunks, c.value.versionId = versionId
  owned : ∀ c ∈ chunks, ∃ q ∈ s.provisions, q.value.id = c.value.provisionId

theorem replaceChunks_rows {s t : Corpus sha256} {u : Unit}
    (h : replaceChunksForVersion versionId chunks s = .ok (u,t)) :
    Replacement versionId chunks s t := by
  simp only [replaceChunksForVersion,validateAndLayerChunks,bind_ok,read_ok,require_ok,ofExcept_ok,
    zoom_ok,deleteRows_ok,Outcomes.bind_ok] at h
  obtain ⟨_,_,⟨-,rfl⟩,_,_,⟨-,rfl⟩,layers,_,⟨⟨_,hids,_,-,hlayers⟩,rfl⟩,_,_,⟨rfl,rfl⟩,_,
    _,⟨howned,rfl⟩,
    _,_,⟨deleted,⟨-,hdeleted⟩,rfl⟩,h⟩ := h
  obtain ⟨hversions,hnodup,-⟩ := checkChunkIds_ok hids
  obtain ⟨hrows,hprovisions⟩ := insertLayers_rows h
  have hprovisions : t.provisions = s.provisions := hprovisions
  refine ⟨?_,hprovisions,hnodup,hversions,?_⟩
  · have hkept : t.chunks.rows.Perm (layers.flatten++deleted.rows) := hrows
    rw [hdeleted] at hkept
    exact hkept.trans ((layersFrom_perm hlayers).append_right _)
  · intro c hc
    obtain ⟨q,hq,hsame⟩ := List.any_eq_true.mp (List.all_eq_true.mp howned c hc)
    simp only [Bool.and_eq_true,beq_iff_eq] at hsame
    exact ⟨q,hq,hsame.2⟩

theorem chunkKey_stored {t : Corpus sha256} {c : LegalChunk sha256}
    (h : ∃ q ∈ t.provisions, q.value.id = c.value.provisionId) : (chunkKey t c).isSome = true := by
  obtain ⟨q,hq,hid⟩ := h
  rw [chunkKey,Option.isSome_map]
  exact List.find?_isSome.mpr ⟨q,hq,beq_iff_eq.mpr hid⟩

theorem chunksForVersion_rows {t : Corpus sha256}
    (h : ∀ c ∈ t.chunks, c.value.versionId = versionId → ∃ q ∈ t.provisions, q.value.id =
      c.value.provisionId) :
    (t.chunks.rows.filter fun c => c.value.versionId == versionId).Perm
      (chunksForVersion t versionId) := by
  have hsame : (selectRows (fun c => c.value.versionId == versionId && (chunkKey t c).isSome)
      t.chunks) = t.chunks.rows.filter fun c => c.value.versionId == versionId := by
    apply List.filter_congr
    intro c hc
    cases hversion : c.value.versionId == versionId with
    | false => rfl
    | true => rw [chunkKey_stored (h c hc (beq_iff_eq.mp hversion))]; rfl
  rw [← hsame]
  exact (List.perm_insertionSort _ _).symm

theorem replacement_selected {s t : Corpus sha256} (h : Replacement versionId chunks s t) :
    (t.chunks.rows.filter fun c => c.value.versionId == versionId).Perm chunks := by
  have hfilter := h.rows.filter fun c => c.value.versionId == versionId
  have hnew : (chunks.filter fun c => c.value.versionId == versionId) = chunks :=
    List.filter_eq_self.mpr fun c hc => beq_iff_eq.mpr (h.version c hc)
  have hold : ((s.chunks.rows.filter fun c => !(c.value.versionId == versionId)).filter fun c =>
      c.value.versionId == versionId) = [] := by
    apply List.filter_eq_nil_iff.mpr
    intro c hc hversion
    obtain ⟨-,hother⟩ := List.mem_filter.mp hc
    rw [hversion] at hother
    cases hother
  rw [List.filter_append,hnew,hold,List.append_nil] at hfilter
  exact hfilter

/-- After a replacement the chunks of the version are the ones that were given,
in some order. -/
theorem replaceChunks_chunks {s t : Corpus sha256} {u : Unit}
    (h : replaceChunksForVersion versionId chunks s = .ok (u,t)) :
    chunks.Perm (chunksForVersion t versionId) ∧ (idsOf chunks).Nodup := by
  have hreplaced := replaceChunks_rows h
  have hselected := replacement_selected hreplaced
  refine ⟨hselected.symm.trans (chunksForVersion_rows fun c hc hversion => ?_),hreplaced.ids⟩
  rw [hreplaced.provisions]
  exact hreplaced.owned c (hselected.mem_iff.mp (List.mem_filter.mpr ⟨hc,beq_iff_eq.mpr hversion⟩))

/-- What the columns of a row need to know about the provision it is cut from. -/
structure CutFrom (d : Derivation) (p : ProvisionSource) (c : LegalChunk sha256) : Prop where
  version : c.value.versionId = d.versionId
  provision : c.value.provisionId = p.id
  text : c.value.content.Sublist p.fullText
  parser : c.value.parserVersion = some (stripString d.parserVersion)
  stop : ∀ n ∈ c.value.parentRelativeCharEnd, n ≤ p.fullText.length

theorem isPiece_cut {parent : Option UUID7} {piece : ChildPiece} {c : LocatedLegalChunk sha256}
    (h : IsPiece sha256 d p.id parent piece c) (htext : piece.2.1.Sublist p.fullText)
    (hstop : exactPositions d.parserVersion = true → piece.2.2.2 ≤ p.fullText.length) :
    CutFrom d p c.chunk := by
  obtain ⟨⟨id,hfields⟩,-⟩ := h
  constructor
  · rw [hfields]
    rfl
  · rw [hfields]
    rfl
  · rw [hfields]
    exact htext
  · rw [hfields]
    rfl
  · intro n hn
    rw [hfields] at hn
    simp only [chunkFields,position] at hn
    split_ifs at hn with hexact
    · cases hn
      exact hstop hexact
    · cases hn

theorem pieces_stop (h : exactPositions d.parserVersion = true) :
    ∀ piece ∈ articlePieces d p a, piece.2.2.2 ≤ p.fullText.length := by
  intro piece hpiece
  rcases articlePieces_children d p a h with hnone | ⟨low,high,hchildren,hhigh,-⟩
  · rw [hnone] at hpiece
    cases hpiece
  · exact (hchildren.tiles.inside piece hpiece).2.2.trans hhigh

theorem derived_cut {n : ℕ} {pairs : List ArticlePair} {located : List (LocatedLegalChunk sha256)}
    (h : deriveFrom d newId n pairs = .ok located) :
    ∀ c ∈ located.map LocatedLegalChunk.chunk, ∃ pair ∈ pairs, CutFrom d pair.1 c := by
  obtain ⟨groups,rfl,hgroups,-⟩ := deriveFrom_ok h
  intro c hc
  obtain ⟨x,hx,rfl⟩ := List.mem_map.mp hc
  obtain ⟨g,hg,hmem⟩ := List.mem_flatMap.mp hx
  obtain ⟨pair,hpair,hgroup⟩ := forall₂_mem_right hgroups hg
  refine ⟨pair,hpair,?_⟩
  rcases List.mem_cons.mp hmem with rfl | hmem
  · exact isPiece_cut hgroup.parent (List.Sublist.refl _) fun _ => le_refl _
  · obtain ⟨piece,hpiece,hchild⟩ := forall₂_mem_right hgroup.children hmem
    exact isPiece_cut hchild (articlePieces_sublist piece hpiece) fun hexact =>
      pieces_stop hexact piece hpiece

/-- The version of the chunks and the provisions they are cut from are stored. -/
structure Sourced (c : DeriveCall) (s : Corpus sha256) : Prop where
  version : ∃ v ∈ s.versions, v.value.id = c.versionId
  provisions : ∀ p ∈ c.provisions, ∃ q ∈ s.provisions, q.value.versionId = c.versionId ∧
    q.value.id = p.id ∧ q.value.fullText = p.fullText
  parser : (stripString c.parserVersion).length ≤ 64

/-- The first `n` drawn identifiers differ from each other and from those of
the chunks of other versions. -/
structure Fresh (newId : ℕ → UUID7) (n : ℕ) (versionId : UUID7) (s : Corpus sha256) : Prop where
  distinct : ∀ i < n, ∀ j < n, newId i = newId j → i = j
  unused : ∀ i < n, ∀ r ∈ s.chunks, r.value.versionId ≠ versionId → r.value.id ≠ newId i

theorem cut_fits {c : LegalChunk sha256} (h : CutFrom d p c)
    (htext : (encode p.fullText).length ≤ textMax)
    (hparser : (stripString d.parserVersion).length ≤ 64) :
    (legalChunks sha256).check c = true := by
  have hcontent := (encode_sublist h.text).trans htext
  have hstop : ∀ n ∈ c.value.parentRelativeCharEnd, n ≤ integerMax := by
    intro n hn
    have hlength := (h.stop n hn).trans ((encode_length p.fullText).trans htext)
    exact hlength.trans (by decide)
  simp only [legalChunks,Bool.and_eq_true,decide_eq_true_eq,h.parser,Option.all_some]
  refine ⟨⟨hcontent,hparser⟩,?_⟩
  cases hend : c.value.parentRelativeCharEnd with
  | none => rfl
  | some n => exact decide_eq_true (hstop n hend)

theorem mem_callPairs {c : DeriveCall} {pair : ArticlePair} (h : pair ∈ callPairs c) :
    pair.1 ∈ c.provisions :=
  (List.of_mem_zip ((List.perm_insertionSort earlierPair _).mem_iff.mp h)).1

variable {c : DeriveCall} {sizes : Sizes} {located : List (LocatedLegalChunk sha256)}
  {s : Corpus sha256}

theorem derived_fits (hsource : Sourced c s)
    (h : deriveFrom (callDerivation c sizes) newId 0 (callPairs c) = .ok located) :
    ∀ x ∈ located.map LocatedLegalChunk.chunk, (legalChunks sha256).check x = true := by
  intro x hx
  obtain ⟨pair,hpair,hcut⟩ := derived_cut h x hx
  obtain ⟨q,hq,-,-,htext⟩ := hsource.provisions pair.1 (mem_callPairs hpair)
  have hcolumns := checked hq
  simp only [legalProvisions,Bool.and_eq_true,decide_eq_true_eq,htext] at hcolumns
  exact cut_fits hcut hcolumns.1.2 hsource.parser

theorem derived_legal (hsource : Sourced c s) (hfresh : Fresh newId located.length c.versionId s)
    (h : deriveFrom (callDerivation c sizes) newId 0 (callPairs c) = .ok located) :
    Legal (legalChunks sha256) (located.map LocatedLegalChunk.chunk++
      s.chunks.rows.filter fun r => !(r.value.versionId == c.versionId)) := by
  have hkept := delete_legal s.chunks fun r => r.value.versionId == c.versionId
  have hids := (derived_graph h).1
  have hnodup : (idsOf (located.map LocatedLegalChunk.chunk)).Nodup := by
    rw [hids]
    exact derived_nodup hfresh.distinct
  constructor
  · intro x hx
    rcases List.mem_append.mp hx with hx | hx
    · exact derived_fits hsource h x hx
    · exact hkept.1 x hx
  · rw [List.pairwise_append]
    refine ⟨?_,hkept.2,?_⟩
    · rw [idsOf,List.Nodup,List.pairwise_map] at hnodup
      exact hnodup.imp fun {x y} hxy => ⟨hxy,rfl,rfl⟩
    · intro x hx y hy
      obtain ⟨hmem,hother⟩ := List.mem_filter.mp hy
      have hversion : y.value.versionId ≠ c.versionId := by
        intro hsame
        rw [hsame,BEq.rfl] at hother
        cases hother
      have hid : x.value.id ∈ (List.range located.length).map newId := by
        rw [← hids]
        exact List.mem_map_of_mem hx
      obtain ⟨i,hi,hsame⟩ := List.mem_map.mp hid
      have hne := hfresh.unused i (List.mem_range.mp hi) y hmem hversion
      exact ⟨fun hxy => hne (hxy.symm.trans hsame.symm),rfl,rfl⟩

theorem checkChunkIds_succeeds {seen : List UUID7}
    (hversion : ∀ x ∈ chunks, x.value.versionId = versionId) (hnodup : (idsOf chunks).Nodup)
    (hseen : ∀ id ∈ idsOf chunks, id ∉ seen) :
    checkChunkIds versionId seen chunks = .ok () := by
  induction chunks generalizing seen with
  | nil => rfl
  | cons x xs ih =>
    obtain ⟨hhead,htail⟩ := List.nodup_cons.mp hnodup
    have hin : x.value.id ∉ seen := hseen _ List.mem_cons_self
    rw [checkChunkIds,if_neg (not_not.mpr (hversion x List.mem_cons_self)),if_neg hin]
    apply ih (fun y hy => hversion y (List.mem_cons_of_mem _ hy)) htail
    intro id hid hmem
    rcases List.mem_cons.mp hmem with rfl | hmem
    · exact hhead hid
    · exact hseen id (List.mem_cons_of_mem _ hid) hmem

theorem checkChunkParents_succeeds {chunks part : List (LegalChunk sha256)} (h : TwoLevel chunks)
    (hpart : ∀ x ∈ part, x ∈ chunks) : checkChunkParents chunks part = .ok () := by
  induction part with
  | nil => rfl
  | cons x xs ih =>
    have hrest := ih fun y hy => hpart y (List.mem_cons_of_mem _ hy)
    rw [checkChunkParents]
    cases hparent : x.value.parentChunkId with
    | none => exact hrest
    | some id =>
      obtain ⟨r,hr,rfl,-,hprovision⟩ := h.parents x (hpart x List.mem_cons_self) id hparent
      simp only [chunkById_mem h.ids (mem_rootsOf.mp hr).1]
      rw [if_neg (not_not.mpr hprovision)]
      exact hrest

theorem layersFrom_ready {inserted : List UUID7} (h : ∀ x ∈ pending, layerReady inserted x = true) :
    ∃ layers, layersFrom inserted pending = .ok layers := by
  by_cases hnone : pending = []
  · rw [layersFrom,if_pos hnone]
    exact ⟨_,rfl⟩
  · have hnext : nextLayer inserted pending = pending := List.filter_eq_self.mpr h
    have hlater : laterLayers inserted pending = [] := by
      apply List.filter_eq_nil_iff.mpr
      intro x hx
      rw [h x hx]
      exact Bool.false_ne_true
    rw [layersFrom,if_neg hnone,hnext,if_neg hnone,hlater,layersFrom,if_pos rfl]
    exact ⟨_,rfl⟩

theorem layersFrom_succeeds (h : TwoLevel chunks) :
    ∃ layers, layersFrom [] chunks = .ok layers := by
  have hready : ∀ r ∈ rootsOf chunks, r ∈ nextLayer [] chunks := by
    intro r hr
    obtain ⟨hmem,hroot⟩ := mem_rootsOf.mp hr
    refine List.mem_filter.mpr ⟨hmem,?_⟩
    rw [layerReady,hroot]
    rfl
  have hchildren : ∀ x ∈ laterLayers [] chunks,
      layerReady ([]++(nextLayer [] chunks).map fun x => x.value.id) x = true := by
    intro x hx
    rw [layerReady]
    cases hparent : x.value.parentChunkId with
    | none => rfl
    | some id =>
      obtain ⟨r,hr,rfl,-⟩ := h.parents x (List.mem_filter.mp hx).1 id hparent
      exact decide_eq_true (List.mem_map_of_mem (f := fun x => x.value.id) (hready r hr))
  by_cases hnone : chunks = []
  · rw [layersFrom,if_pos hnone]
    exact ⟨_,rfl⟩
  · have hnext : nextLayer [] chunks ≠ [] := by
      obtain ⟨x,hx⟩ := List.exists_mem_of_ne_nil _ hnone
      cases hparent : x.value.parentChunkId with
      | none => exact List.ne_nil_of_mem (hready x (mem_rootsOf.mpr ⟨hx,hparent⟩))
      | some id =>
        obtain ⟨r,hr,-⟩ := h.parents x hx id hparent
        exact List.ne_nil_of_mem (hready r hr)
    obtain ⟨layers,hlayers⟩ := layersFrom_ready hchildren
    rw [layersFrom,if_neg hnone,if_neg hnext,hlayers]
    exact ⟨_,rfl⟩

theorem legal_perm {rows others : List (LegalChunk sha256)} (hperm : rows.Perm others)
    (h : Legal (legalChunks sha256) rows) : Legal (legalChunks sha256) others := by
  refine ⟨fun r hr => h.1 r (hperm.mem_iff.mpr hr),?_⟩
  exact (hperm.pairwise_iff apart_symm).mp h.2

theorem insertLayers_succeeds (layers : List (List (LegalChunk sha256))) (s : Corpus sha256)
    (h : Legal (legalChunks sha256) (layers.flatten++s.chunks.rows)) :
    ∃ t, insertLayers layers s = .ok ((),t) := by
  induction layers generalizing s with
  | nil => exact ⟨s,rfl⟩
  | cons layer layers ih =>
    have hperm : (List.flatten (layer::layers)++s.chunks.rows).Perm
        (layers.flatten++(layer++s.chunks.rows)) := by
      rw [List.flatten_cons,List.append_assoc]
      exact List.perm_append_comm_assoc _ _ _
    have hall := legal_perm hperm h
    have hlayer : Legal (legalChunks sha256) (layer++s.chunks.rows) :=
      ⟨fun r hr => hall.1 r (List.mem_append_right _ hr),(List.pairwise_append.mp hall.2).2.1⟩
    obtain ⟨t,ht⟩ := ih (chunksOf.set ⟨_,hlayer⟩ s) hall
    refine ⟨t,?_⟩
    simp only [insertLayers,bind_ok,zoom_ok,insertRows_ok]
    exact ⟨(),_,⟨⟨_,hlayer⟩,rfl,rfl⟩,ht⟩

theorem replaceChunks_succeeds (hsource : Sourced c s)
    (hfresh : Fresh newId located.length c.versionId s)
    (h : deriveFrom (callDerivation c sizes) newId 0 (callPairs c) = .ok located) :
    ∃ t, replaceChunksForVersion c.versionId (located.map LocatedLegalChunk.chunk) s =
      .ok ((),t) := by
  have hids := (derived_graph h).1
  have hnodup : (idsOf (located.map LocatedLegalChunk.chunk)).Nodup := by
    rw [hids]
    exact derived_nodup hfresh.distinct
  have hlevels := ((derived_graph h).2 hnodup).1
  have hcut := derived_cut h
  generalize hchunks : located.map LocatedLegalChunk.chunk = chunks at *
  have hversion : ∀ x ∈ chunks, x.value.versionId = c.versionId := by
    intro x hx
    obtain ⟨_,-,hx⟩ := hcut x hx
    exact hx.version
  have howned : (chunks.all fun x => s.provisions.rows.any fun p =>
      p.value.versionId == c.versionId && p.value.id == x.value.provisionId) = true := by
    apply List.all_eq_true.mpr
    intro x hx
    obtain ⟨pair,hpair,hx⟩ := hcut x hx
    obtain ⟨q,hq,hqversion,hqid,-⟩ := hsource.provisions pair.1 (mem_callPairs hpair)
    apply List.any_eq_true.mpr
    refine ⟨q,hq,?_⟩
    rw [hqversion,hqid,hx.provision,BEq.rfl,BEq.rfl]
    rfl
  have htarget : (selectRow (fun v => v.value.id == c.versionId) s.versions).isSome = true := by
    obtain ⟨v,hv,hid⟩ := hsource.version
    exact List.find?_isSome.mpr ⟨v,hv,beq_iff_eq.mpr hid⟩
  obtain ⟨layers,hlayers⟩ := layersFrom_succeeds hlevels
  have hlegal := derived_legal hsource hfresh h
  rw [hchunks] at hlegal
  obtain ⟨t,ht⟩ := insertLayers_succeeds layers
    (chunksOf.set ⟨_,delete_legal s.chunks fun r => r.value.versionId == c.versionId⟩ s)
    (legal_perm ((layersFrom_perm hlayers).symm.append_right _) hlegal)
  refine ⟨t,?_⟩
  simp only [replaceChunksForVersion,validateAndLayerChunks,bind_ok,read_ok,require_ok,ofExcept_ok,
    zoom_ok,deleteRows_ok,Outcomes.bind_ok]
  exact ⟨_,_,⟨rfl,rfl⟩,(),_,⟨htarget,rfl⟩,layers,_,
    ⟨⟨(),checkChunkIds_succeeds hversion hnodup (fun _ _ => List.not_mem_nil),(),
      checkChunkParents_succeeds hlevels fun _ hx => hx,hlayers⟩,rfl⟩,
    _,_,⟨rfl,rfl⟩,(),_,⟨howned,rfl⟩,_,_,⟨_,⟨rfl,rfl⟩,rfl⟩,ht⟩

end LawyerAgent.ChunkPersistence
