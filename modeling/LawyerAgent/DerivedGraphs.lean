import LawyerAgent.ChunkGraphs
import LawyerAgent.ChunkWindows

/-!
# The graph of a derivation

A derivation makes one root for each article and the children of its pieces.
What the chunks say does not depend on the identifiers that are drawn.
-/

set_option autoImplicit false

namespace LawyerAgent.DerivedGraphs
open Relational Common PythonText LegalCorpus
open ChunkStructure ChunkReplay
open ChunkGraphs
open LegalArticleHeading (Text)

variable {sha256 : List UInt8 → Digest} {d : Derivation} {newId : ℕ → UUID7}

abbrev ArticlePair : Type := ProvisionSource × ArticleSource

abbrev ChildPiece : Type := ChunkType × Text × (ℕ × ℕ)

/-- A chunk of a piece of an article, under the given parent. -/
def IsPiece (sha256 : List UInt8 → Digest) (d : Derivation) (provisionId : UUID7)
    (parent : Option UUID7) (piece : ChildPiece) (c : LocatedLegalChunk sha256) : Prop :=
  (∃ id, c.chunk.value = chunkFields sha256 d id provisionId parent piece.1 piece.2.1 piece.2.2) ∧
    c.span = piece.2.2

def parentPiece (p : ProvisionSource) : ChildPiece := (.provision,p.fullText,(0,p.fullText.length))

/-- A root and its children, as one article gives them. -/
structure IsGroup (d : Derivation) (pair : ArticlePair)
    (g : LocatedLegalChunk sha256 × List (LocatedLegalChunk sha256)) : Prop where
  parent : IsPiece sha256 d pair.1.id none (parentPiece pair.1) g.1
  children : List.Forall₂ (IsPiece sha256 d pair.1.id (some g.1.chunk.value.id))
    (articlePieces d pair.1 pair.2) g.2
  units : ¬unitsMissing d pair.1 pair.2

variable {c : LocatedLegalChunk sha256} {located : List (LocatedLegalChunk sha256)} {n : ℕ}
  {pairs : List ArticlePair}

theorem newChunk_ok {fields : LegalChunkFields} {span : ℕ × ℕ} (h : newChunk fields span = .ok c) :
    c.chunk.value = fields ∧ c.span = span := by
  unfold newChunk at h
  cases hpost : postInit (legalChunkChecks sha256) fields with
  | error message =>
    rw [hpost] at h
    cases h
  | ok chunk =>
    rw [hpost] at h
    cases h
    exact ⟨postInit_ok hpost,rfl⟩

theorem newChildren_ok {provisionId parentId : UUID7} {pieces : List ChildPiece}
    (h : newChildren d newId provisionId parentId n pieces = .ok located) :
    List.Forall₂ (IsPiece sha256 d provisionId (some parentId)) pieces located ∧
      located.map (fun c => c.chunk.value.id) = (List.range' n located.length).map newId := by
  induction pieces generalizing n located with
  | nil =>
    cases h
    exact ⟨.nil,rfl⟩
  | cons piece pieces ih =>
    obtain ⟨kind,content,span⟩ := piece
    simp only [newChildren,Outcomes.bind_ok] at h
    obtain ⟨child,hchild,children,hchildren,hout⟩ := h
    cases hout
    obtain ⟨hfields,hspan⟩ := newChunk_ok hchild
    obtain ⟨hpieces,hids⟩ := ih hchildren
    refine ⟨.cons ⟨⟨_,hfields⟩,hspan⟩ hpieces,?_⟩
    rw [List.map_cons,hids,hfields,List.length_cons,List.range'_succ,List.map_cons]
    rfl

theorem articleChunks_ok {p : ProvisionSource} {a : ArticleSource}
    (h : articleChunks d newId n p a = .ok located) :
    ∃ g, located = g.1::g.2 ∧ IsGroup d (p,a) g ∧
      located.map (fun c => c.chunk.value.id) = (List.range' n located.length).map newId := by
  simp only [articleChunks,Outcomes.bind_ok] at h
  obtain ⟨parent,hparent,h⟩ := h
  obtain ⟨hfields,hspan⟩ := newChunk_ok hparent
  split at h
  · cases h
  · next hunits =>
    simp only [Outcomes.bind_ok] at h
    obtain ⟨children,hchildren,hout⟩ := h
    cases hout
    obtain ⟨hpieces,hids⟩ := newChildren_ok hchildren
    have hid : newId n = parent.chunk.value.id := by
      rw [hfields]
      rfl
    refine ⟨(parent,children),rfl,⟨⟨⟨_,hfields⟩,hspan⟩,?_,hunits⟩,?_⟩
    · rw [hid] at hpieces
      exact hpieces
    · rw [List.map_cons,hids,List.length_cons,List.range'_succ,List.map_cons,hid]

theorem deriveFrom_ok (h : deriveFrom d newId n pairs = .ok located) :
    ∃ groups, located = groups.flatMap (fun g => g.1::g.2) ∧ List.Forall₂ (IsGroup d) pairs groups ∧
      located.map (fun c => c.chunk.value.id) = (List.range' n located.length).map newId := by
  induction pairs generalizing n located with
  | nil =>
    cases h
    exact ⟨[],rfl,.nil,rfl⟩
  | cons pair pairs ih =>
    obtain ⟨p,a⟩ := pair
    simp only [deriveFrom,Outcomes.bind_ok] at h
    obtain ⟨chunks,hchunks,rest,hrest,hout⟩ := h
    cases hout
    obtain ⟨g,rfl,hgroup,hids⟩ := articleChunks_ok hchunks
    obtain ⟨groups,rfl,hgroups,hidsRest⟩ := ih hrest
    refine ⟨g::groups,rfl,.cons hgroup hgroups,?_⟩
    rw [List.map_append,hids,hidsRest,List.length_append,← List.range'_append_1,List.map_append]

/-- Whether a chunk can be made does not depend on its identifiers. -/
theorem newChunk_again {id provisionId : UUID7} {parent : Option UUID7} (piece : ChildPiece)
    (h : newChunk (chunkFields sha256 d id provisionId parent piece.1 piece.2.1 piece.2.2)
      piece.2.2 = .ok c)
    (id' : UUID7) (parent' : Option UUID7) : ∃ c' : LocatedLegalChunk sha256,
    newChunk (chunkFields sha256 d id' provisionId parent' piece.1 piece.2.1 piece.2.2) piece.2.2 =
      .ok c' := by
  have hvalid := c.chunk.valid
  rw [(newChunk_ok h).1] at hvalid
  have hsame : firstError (legalChunkChecks sha256
      (chunkFields sha256 d id' provisionId parent' piece.1 piece.2.1 piece.2.2)) = none := hvalid
  refine ⟨⟨⟨_,hsame⟩,piece.2.2⟩,?_⟩
  have hpost := postInit_value (⟨_,hsame⟩ : Checked (legalChunkChecks sha256))
  unfold newChunk
  rw [hpost]

theorem newChildren_again {provisionId parentId : UUID7} {pieces : List ChildPiece}
    (h : newChildren d newId provisionId parentId n pieces = .ok located) (newId' : ℕ → UUID7)
    (parentId' : UUID7) (m : ℕ) : ∃ located' : List (LocatedLegalChunk sha256),
      newChildren d newId' provisionId parentId' m pieces = .ok located' ∧
        located'.length = located.length := by
  induction pieces generalizing n m located with
  | nil =>
    cases h
    exact ⟨[],rfl,rfl⟩
  | cons piece pieces ih =>
    obtain ⟨kind,content,span⟩ := piece
    simp only [newChildren,Outcomes.bind_ok] at h
    obtain ⟨child,hchild,children,hchildren,hout⟩ := h
    cases hout
    obtain ⟨child',hchild'⟩ := newChunk_again (kind,content,span) hchild (newId' m)
      (some parentId')
    obtain ⟨children',hchildren',hlength⟩ := ih hchildren (m+1)
    refine ⟨child'::children',?_,by rw [List.length_cons,List.length_cons,hlength]⟩
    simp only [newChildren,Outcomes.bind_ok]
    exact ⟨child',hchild',children',hchildren',rfl⟩

theorem articleChunks_again {p : ProvisionSource} {a : ArticleSource}
    (h : articleChunks d newId n p a = .ok located) (newId' : ℕ → UUID7) (m : ℕ) :
    ∃ located' : List (LocatedLegalChunk sha256),
      articleChunks d newId' m p a = .ok located' ∧ located'.length = located.length := by
  simp only [articleChunks,Outcomes.bind_ok] at h ⊢
  obtain ⟨parent,hparent,h⟩ := h
  obtain ⟨parent',hparent'⟩ := newChunk_again (parentPiece p) hparent (newId' m) none
  split at h
  · cases h
  · next hunits =>
    simp only [Outcomes.bind_ok] at h
    obtain ⟨children,hchildren,hout⟩ := h
    cases hout
    obtain ⟨children',hchildren',hlength⟩ := newChildren_again hchildren newId' (newId' m) (m+1)
    refine ⟨parent'::children',⟨parent',hparent',?_⟩,
      by rw [List.length_cons,List.length_cons,hlength]⟩
    rw [if_neg hunits]
    simp only [Outcomes.bind_ok]
    exact ⟨children',hchildren',rfl⟩

theorem deriveFrom_again (h : deriveFrom d newId n pairs = .ok located) (newId' : ℕ → UUID7) (m :
      ℕ) :
    ∃ located' : List (LocatedLegalChunk sha256),
      deriveFrom d newId' m pairs = .ok located' ∧ located'.length = located.length := by
  induction pairs generalizing n m located with
  | nil =>
    cases h
    exact ⟨[],rfl,rfl⟩
  | cons pair pairs ih =>
    obtain ⟨p,a⟩ := pair
    simp only [deriveFrom,Outcomes.bind_ok] at h ⊢
    obtain ⟨chunks,hchunks,rest,hrest,hout⟩ := h
    cases hout
    obtain ⟨chunks',hchunks',hlength⟩ := articleChunks_again hchunks newId' m
    obtain ⟨rest',hrest',hlengthRest⟩ := ih hrest (m+chunks'.length)
    refine ⟨chunks'++rest',⟨chunks',hchunks',rest',hrest',rfl⟩,?_⟩
    rw [List.length_append,List.length_append,hlength,hlengthRest]

abbrev ChunkGroup (sha256 : List UInt8 → Digest) : Type :=
  LegalChunk sha256 × List (LegalChunk sha256)

def flat (groups : List (ChunkGroup sha256)) : List (LegalChunk sha256) :=
  groups.flatMap fun g => g.1::g.2

/-- Roots, each with its children. -/
def Grouped (groups : List (ChunkGroup sha256)) : Prop := ∀ g ∈ groups,
  g.1.value.parentChunkId = none ∧ ∀ c ∈ g.2, c.value.parentChunkId = some g.1.value.id ∧
    g.1.value.versionId = c.value.versionId ∧ g.1.value.provisionId = c.value.provisionId

variable {groups : List (ChunkGroup sha256)}

theorem grouped_cons {g : ChunkGroup sha256} (h : Grouped (g::groups)) : Grouped groups :=
  fun k hk => h k (List.mem_cons_of_mem _ hk)

theorem flat_cons (g : ChunkGroup sha256) (groups : List (ChunkGroup sha256)) :
    flat (g::groups) = g.1::(g.2++flat groups) := rfl

theorem rootsOf_flat (h : Grouped groups) : rootsOf (flat groups) = groups.map Prod.fst := by
  induction groups with
  | nil => rfl
  | cons g groups ih =>
    obtain ⟨hroot,hchildren⟩ := h g List.mem_cons_self
    have hnone : g.2.filter (fun c => c.value.parentChunkId == none) = [] :=
      List.filter_eq_nil_iff.mpr fun c hc hparent => by
        rw [(hchildren c hc).1] at hparent
        cases hparent
    have hfirst : (g.1.value.parentChunkId == none) = true := beq_iff_eq.mpr hroot
    have hrest : (flat groups).filter (fun c => c.value.parentChunkId == none) =
        groups.map Prod.fst := ih (grouped_cons h)
    rw [flat_cons,rootsOf,List.filter_cons,if_pos hfirst,List.filter_append,hnone,hrest]
    rfl

theorem parent_elsewhere (h : Grouped groups) {id : UUID7}
    (hid : id ∉ groups.map fun g => g.1.value.id)
    {c : LegalChunk sha256} (hc : c ∈ flat groups) : c.value.parentChunkId ≠ some id := by
  obtain ⟨g,hg,hmem⟩ := List.mem_flatMap.mp hc
  obtain ⟨hroot,hchildren⟩ := h g hg
  rcases List.mem_cons.mp hmem with rfl | hmem
  · rw [hroot]
    exact (Option.some_ne_none id).symm
  · rw [(hchildren c hmem).1]
    intro hparent
    exact hid (Option.some_inj.mp hparent ▸ List.mem_map_of_mem (f := fun g => g.1.value.id) hg)

theorem childrenOf_flat (h : Grouped groups) (hids : (groups.map fun g => g.1.value.id).Nodup)
    {g : ChunkGroup sha256} (hg : g ∈ groups) : childrenOf (flat groups) g.1.value.id = g.2 := by
  induction groups with
  | nil => cases hg
  | cons k groups ih =>
    obtain ⟨hroot,hchildren⟩ := h k List.mem_cons_self
    obtain ⟨hfresh,hids⟩ := List.nodup_cons.mp hids
    have hnotRoot : ¬(k.1.value.parentChunkId == some g.1.value.id) = true := by
      rw [hroot]
      exact Bool.false_ne_true
    rw [flat_cons,childrenOf,List.filter_cons,if_neg hnotRoot,List.filter_append]
    rcases List.mem_cons.mp hg with rfl | hg
    · have hall : g.2.filter (fun c => c.value.parentChunkId == some g.1.value.id) = g.2 :=
        List.filter_eq_self.mpr fun c hc => beq_iff_eq.mpr (hchildren c hc).1
      have hnone : (flat groups).filter (fun c => c.value.parentChunkId == some g.1.value.id) =
        [] :=
        List.filter_eq_nil_iff.mpr fun c hc hparent =>
          parent_elsewhere (grouped_cons h) hfresh hc (beq_iff_eq.mp hparent)
      rw [hall,hnone,List.append_nil]
    · have hnone : k.2.filter (fun c => c.value.parentChunkId == some g.1.value.id) = [] :=
        List.filter_eq_nil_iff.mpr fun c hc hparent => by
          rw [(hchildren c hc).1] at hparent
          exact hfresh (List.mem_map.mpr ⟨g,hg,(Option.some_inj.mp (beq_iff_eq.mp hparent)).symm⟩)
      rw [hnone,List.nil_append]
      exact ih (grouped_cons h) hids hg

theorem rootIds_nodup (hids : (idsOf (flat groups)).Nodup) :
    (groups.map fun g => g.1.value.id).Nodup := by
  apply List.Nodup.sublist _ hids
  clear hids
  induction groups with
  | nil => exact List.Sublist.slnil
  | cons g groups ih =>
    rw [flat_cons,idsOf,List.map_cons,List.map_cons,List.map_append]
    exact (ih.trans (List.sublist_append_right _ _)).cons_cons _

theorem outline_flat (h : Grouped groups) (hids : (idsOf (flat groups)).Nodup) :
    outline (flat groups) = groups.map fun g => (semanticOf g.1,g.2.map semanticOf) := by
  rw [outline,rootsOf_flat h,List.map_map]
  apply List.map_congr_left
  intro g hg
  have hchildren := childrenOf_flat h (rootIds_nodup hids) hg
  simp only [Function.comp,hchildren]

theorem twoLevel_flat (h : Grouped groups) (hids : (idsOf (flat groups)).Nodup) :
    TwoLevel (flat groups) := by
  refine ⟨hids,fun c hc id hparent => ?_⟩
  obtain ⟨g,hg,hmem⟩ := List.mem_flatMap.mp hc
  obtain ⟨hroot,hchildren⟩ := h g hg
  rcases List.mem_cons.mp hmem with rfl | hmem
  · rw [hroot] at hparent
    cases hparent
  · obtain ⟨hcparent,hsame⟩ := hchildren c hmem
    rw [hcparent] at hparent
    cases hparent
    refine ⟨g.1,?_,rfl,hsame⟩
    rw [rootsOf_flat h]
    exact List.mem_map_of_mem hg

def pieceSemantic (sha256 : List UInt8 → Digest) (d : Derivation) (provisionId : UUID7)
    (piece : ChildPiece) : ChunkSemantic where
  versionId := d.versionId
  provisionId := provisionId
  chunkType := piece.1.value
  quality := ChunkQuality.ok.value
  content := piece.2.1
  contentHash := contentSha256 sha256 piece.2.1
  parserVersion := some (stripString d.parserVersion)
  charStart := position d piece.2.2.1
  charEnd := position d piece.2.2.2

def articleOutline (sha256 : List UInt8 → Digest) (d : Derivation) (pair : ArticlePair) :
    ChunkSemantic × List ChunkSemantic :=
  (pieceSemantic sha256 d pair.1.id (parentPiece pair.1),
    (articlePieces d pair.1 pair.2).map (pieceSemantic sha256 d pair.1.id))

theorem isPiece_semantic {provisionId : UUID7} {parent : Option UUID7} {piece : ChildPiece}
    (h : IsPiece sha256 d provisionId parent piece c) :
    semanticOf c.chunk = pieceSemantic sha256 d provisionId piece ∧
      c.chunk.value.parentChunkId = parent ∧ c.chunk.value.versionId = d.versionId ∧
      c.chunk.value.provisionId = provisionId := by
  obtain ⟨⟨id,hfields⟩,-⟩ := h
  rw [semanticOf,hfields]
  exact ⟨rfl,rfl,rfl,rfl⟩

def chunkGroups (groups : List (LocatedLegalChunk sha256 × List (LocatedLegalChunk sha256))) :
    List (ChunkGroup sha256) := groups.map fun g => (g.1.chunk,g.2.map LocatedLegalChunk.chunk)

theorem flat_chunkGroups
    (groups : List (LocatedLegalChunk sha256 × List (LocatedLegalChunk sha256))) :
    flat (chunkGroups groups) = (groups.flatMap fun g => g.1::g.2).map LocatedLegalChunk.chunk := by
  rw [flat,chunkGroups,List.flatMap_map,List.map_flatMap]
  rfl

theorem isGroup_outline {pair : ArticlePair}
    {g : LocatedLegalChunk sha256 × List (LocatedLegalChunk sha256)} (h : IsGroup d pair g) :
    (semanticOf g.1.chunk,(g.2.map LocatedLegalChunk.chunk).map semanticOf) =
      articleOutline sha256 d pair := by
  have hchildren : (g.2.map LocatedLegalChunk.chunk).map semanticOf =
      (articlePieces d pair.1 pair.2).map (pieceSemantic sha256 d pair.1.id) := by
    rw [List.map_map,← List.forall₂_eq_eq_eq,List.forall₂_map_left_iff,List.forall₂_map_right_iff]
    exact h.children.flip.imp fun _ _ hpiece => (isPiece_semantic hpiece).1
  rw [articleOutline,hchildren,(isPiece_semantic h.parent).1]

theorem forall₂_mem_right {α β : Type} {R : α → β → Prop} {xs : List α} {ys : List β}
    (h : List.Forall₂ R xs ys) {y : β} (hy : y ∈ ys) : ∃ x ∈ xs, R x y := by
  induction h with
  | nil => cases hy
  | @cons a b as bs hab _ ih =>
    rcases List.mem_cons.mp hy with rfl | hy
    · exact ⟨a,List.mem_cons_self,hab⟩
    · obtain ⟨x,hx,hxy⟩ := ih hy
      exact ⟨x,List.mem_cons_of_mem _ hx,hxy⟩

theorem derived_grouped {groups : List (LocatedLegalChunk sha256 × List (LocatedLegalChunk sha256))}
    (h : List.Forall₂ (IsGroup d) pairs groups) : Grouped (chunkGroups groups) := by
  intro k hk
  obtain ⟨g,hg,rfl⟩ := List.mem_map.mp hk
  obtain ⟨pair,-,hgroup⟩ := forall₂_mem_right h hg
  obtain ⟨-,hroot,hversion,hprovision⟩ := isPiece_semantic hgroup.parent
  refine ⟨hroot,fun c hc => ?_⟩
  obtain ⟨child,hchild,rfl⟩ := List.mem_map.mp hc
  obtain ⟨piece,-,hpiece⟩ := forall₂_mem_right hgroup.children hchild
  obtain ⟨-,hparent,hchildVersion,hchildProvision⟩ := isPiece_semantic hpiece
  exact ⟨hparent,hversion.trans hchildVersion.symm,hprovision.trans hchildProvision.symm⟩

theorem derived_outlines
    {groups : List (LocatedLegalChunk sha256 × List (LocatedLegalChunk sha256))}
    (h : List.Forall₂ (IsGroup d) pairs groups) :
    (chunkGroups groups).map (fun g => (semanticOf g.1,g.2.map semanticOf)) =
      pairs.map (articleOutline sha256 d) := by
  induction h with
  | nil => rfl
  | cons hgroup _ ih =>
    rw [List.map_cons,← isGroup_outline hgroup,← ih]
    rfl

end LawyerAgent.DerivedGraphs
