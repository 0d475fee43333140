import LawyerAgent.ChunkPersistence
import LawyerAgent.CorpusImportReplay
import LawyerAgent.ReleaseQuality

/-!
# What an import leaves for the audit

The provisions that an import derives and the chunks that are derived from them
pass every check of the audit but two: a provision of another level than the
release expects, and a chunk without a visible character or with a parser
version that was stripped.
-/

set_option autoImplicit false

namespace LawyerAgent.ReleaseQualityAgreement
open Common PythonText LegalVersions
open LegalCorpus CorpusImport CorpusImportReplay
open ChunkStructure ChunkWindows ChunkReplay
open ChunkGraphs DerivedGraphs
open ReleaseQuality
open LegalArticleHeading (Text)
open Regex (slice)

variable {sha256 : List UInt8 → Digest}

theorem mem_blockerIf {found : Bool} {blocker b : String} :
    b ∈ blockerIf found blocker ↔ found = true ∧ b = blocker := by
  unfold blockerIf
  cases found <;> simp

theorem blockerIf_false (blocker : String) : blockerIf false blocker = [] := rfl

/-- Provisions as an import derives them from the place `cursor` on. -/
def DerivedFrom (sha256 : List UInt8 → Digest) (versionId : UUID7) (parserVersion : String)
    (newId : ℕ → UUID7) (cursor n : ℕ) (drafts : List LegalProvisionDraft)
    (ps : List (Provision sha256)) : Prop :=
  ps.map Checked.value = deriveProvisions sha256 versionId parserVersion newId cursor n drafts

variable {versionId : UUID7} {parserVersion : String} {newId : ℕ → UUID7} {cursor n : ℕ}
variable {drafts : List LegalProvisionDraft} {ps : List (Provision sha256)}

theorem derivedFrom_cons {d : LegalProvisionDraft}
    (h : DerivedFrom sha256 versionId parserVersion newId cursor n (d::drafts) ps) :
    ∃ p rest, ps = p::rest ∧ p.value.versionId = versionId ∧ p.value.level = d.level ∧
      p.value.charStart = cursor ∧ p.value.charEnd = cursor+p.value.fullText.length ∧
      DerivedFrom sha256 versionId parserVersion newId p.value.charEnd (n+1) drafts rest := by
  cases ps with
  | nil => cases h
  | cons p rest =>
    obtain ⟨hp,hrest⟩ := List.cons.inj h
    refine ⟨p,rest,rfl,?_,?_,?_,?_,?_⟩
    · rw [hp]
    · rw [hp]
    · rw [hp]
    · rw [hp]
    · rw [DerivedFrom,hrest,hp]

theorem visible_length {text : Text} (h : hasText text = true) : 0 < text.length := by
  cases text with
  | nil => cases h
  | cons c text => exact Nat.succ_pos _

theorem provision_visible (p : Provision sha256) : hasText p.value.fullText = true :=
  firstError_none p.valid (c := (hasText p.value.fullText,"provision full text must be non-empty text"))
    (by simp [provisionChecks])

theorem provision_hash (p : Provision sha256) :
    (p.value.contentHash == contentSha256 sha256 p.value.fullText) = true :=
  firstError_none p.valid (c := (p.value.contentHash == contentSha256 sha256 p.value.fullText,
    "provision content hash mismatch")) (by simp [provisionChecks])

theorem derivedFrom_starts
    (h : DerivedFrom sha256 versionId parserVersion newId cursor n drafts ps) :
    (∀ p ∈ ps, cursor ≤ p.value.charStart) ∧
      ps.Pairwise fun p q => p.value.charStart < q.value.charStart := by
  induction drafts generalizing cursor n ps with
  | nil =>
    rw [List.map_eq_nil_iff.mp h]
    exact ⟨by simp,List.Pairwise.nil⟩
  | cons d drafts ih =>
    obtain ⟨p,rest,rfl,-,-,hstart,hstop,hrest⟩ := derivedFrom_cons h
    obtain ⟨hlater,hpairs⟩ := ih hrest
    have hlength := visible_length (provision_visible p)
    refine ⟨?_,List.pairwise_cons.mpr ⟨fun q hq => ?_,hpairs⟩⟩
    · intro q hq
      rcases List.mem_cons.mp hq with rfl | hq
      · exact le_of_eq hstart.symm
      · have hnext := hlater q hq
        omega
    · have hnext := hlater q hq
      omega

theorem derivedFrom_ordered
    (h : DerivedFrom sha256 versionId parserVersion newId cursor n drafts ps) :
    ps.insertionSort earlierProvision = ps :=
  ((derivedFrom_starts h).2.imp fun {_ _} hlt => Or.inl hlt).insertionSort_eq

def levelFlaw (selection : ReleaseSelection) (p : Provision sha256) : List String :=
  blockerIf (p.value.level != expectedLevel selection.contentMode) "provision_invalid"

variable {p : Provision sha256} {selection : ReleaseSelection} {c : LegalChunk sha256}
  {pair : ArticlePair} {piece : ChildPiece} {x : LocatedLegalChunk sha256} {parent : Option UUID7}
  {configuration : ReleaseConfiguration}

theorem provisionFlaw_level (h : p.value.versionId = selection.versionId) :
    provisionFlaw selection p = (p.value.level != expectedLevel selection.contentMode) := by
  have hhash : (p.value.contentHash != contentSha256 sha256 p.value.fullText) = false := by
    rw [bne,provision_hash p]
    rfl
  have hversion : (p.value.versionId != selection.versionId) = false := by
    rw [bne,h,BEq.rfl]
    rfl
  rw [provisionFlaw,int_isUUID7,hversion,provision_visible p,hhash]
  simp only [Bool.not_true,Bool.false_or,Bool.or_false]

theorem provisionLoop_derived
    (h : DerivedFrom sha256 selection.versionId parserVersion newId cursor n drafts ps) :
    provisionLoop selection cursor ps = ps.flatMap (levelFlaw selection) := by
  induction drafts generalizing cursor n ps with
  | nil =>
    rw [List.map_eq_nil_iff.mp h]
    rfl
  | cons d drafts ih =>
    obtain ⟨p,rest,rfl,hversion,-,hstart,hstop,hrest⟩ := derivedFrom_cons h
    have hbounds : (p.value.charStart != cursor ||
        p.value.charEnd != p.value.charStart+p.value.fullText.length) = false := by
      rw [hstop,hstart,bne_self_eq_false,bne_self_eq_false]
      rfl
    rw [provisionLoop,provisionFlaw_level hversion,hbounds,blockerIf_false,List.nil_append,ih hrest,
      List.flatMap_cons]
    rfl

theorem expectedHash_derived {v : LegalVersion}
    (hparser : v.value.parserVersion = some parserVersion)
    (hhash : v.value.contentHash = some (contentHash sha256 parserVersion drafts))
    (h : DerivedFrom sha256 versionId parserVersion newId cursor n drafts ps) :
    v.value.contentHash = some (expectedHash v ps) := by
  have hdrafts : ps.map draftOf = drafts.map (keptDraft parserVersion) := by
    rw [← derived_drafts sha256 versionId parserVersion newId cursor n drafts,← h,List.map_map]
    rfl
  have htexts : ps.map (fun p => p.value.fullText) =
      (drafts.map (keptDraft parserVersion)).map LegalProvisionDraft.fullText := by
    rw [← hdrafts,List.map_map]
    rfl
  rw [hhash,expectedHash,hparser]
  cases hexact : exactText parserVersion with
  | true =>
    have hkept : keptDraft parserVersion = id := by
      funext d
      simp [keptDraft,provisionText,hexact]
    rw [Option.filter_some_pos hexact,hdrafts,hkept,List.map_id]
  | false =>
    have hkept : LegalProvisionDraft.fullText ∘ keptDraft parserVersion = fun d =>
      strip d.fullText := by
      funext d
      simp [keptDraft,provisionText,hexact]
    have hnone : (some parserVersion).filter exactText = none := by
      rw [Option.filter_some,if_neg (by simp [hexact])]
    rw [hnone,htexts,List.map_map,hkept,contentHash,legacy_input hexact]
    rfl

theorem provisionBlockers_derived {v : LegalVersion} {qualityFlags : Option (List String)}
    (hparser : v.value.parserVersion = some parserVersion)
    (hhash : v.value.contentHash = some (contentHash sha256 parserVersion drafts))
    (h : DerivedFrom sha256 selection.versionId parserVersion newId 0 n drafts ps) {b : String}
    (hb : b ∈ provisionBlockers selection v ps qualityFlags) :
    b ∈ ["provisions_missing","provision_duplicate","content_mode_mismatch",
      "non_article_structure_invalid","article_sequence_invalid"] ∨
    b = "provision_invalid" ∧ ∃ p ∈ ps, p.value.level ≠ expectedLevel selection.contentMode := by
  unfold provisionBlockers at hb
  split at hb
  · exact Or.inl (List.mem_cons.mpr (Or.inl (List.mem_singleton.mp hb)))
  · simp only [derivedFrom_ordered h,← expectedHash_derived hparser hhash h,bne_self_eq_false,
      blockerIf_false,List.append_nil,provisionLoop_derived h,List.mem_append,mem_blockerIf,
      List.mem_flatMap,levelFlaw] at hb
    rcases hb with ⟨-,rfl⟩ | ⟨-,rfl⟩ | ⟨-,rfl⟩ | ⟨p,hp,hlevel,rfl⟩ | ⟨-,rfl⟩
    · exact Or.inl (by simp)
    · exact Or.inl (by simp)
    · exact Or.inl (by simp)
    · exact Or.inr ⟨rfl,p,hp,bne_iff_ne.mp hlevel⟩
    · exact Or.inl (by simp)

section Graph

variable {chunks : List (LegalChunk sha256)}

theorem checkIndexIds_ok {seen : List UUID7} (hnodup : (idsOf chunks).Nodup)
    (hseen : ∀ id ∈ idsOf chunks, id ∉ seen) (hquality : ∀ c ∈ chunks, c.value.quality = .ok) :
    checkIndexIds seen chunks = .ok () := by
  induction chunks generalizing seen with
  | nil => rfl
  | cons c cs ih =>
    obtain ⟨hhead,htail⟩ := List.nodup_cons.mp hnodup
    have hfailed : c.value.quality ≠ .failed := by
      rw [hquality c List.mem_cons_self]
      decide
    rw [checkIndexIds,if_neg (hseen _ List.mem_cons_self),if_neg hfailed]
    apply ih htail _ fun d hd => hquality d (List.mem_cons_of_mem _ hd)
    intro id hid hmem
    rcases List.mem_cons.mp hmem with rfl | hmem
    · exact hhead hid
    · exact hseen id (List.mem_cons_of_mem _ hid) hmem

theorem checkIndexParents_ok {part : List (LegalChunk sha256)} (h : TwoLevel chunks)
    (hpart : ∀ c ∈ part, c ∈ chunks) : checkIndexParents chunks part = .ok () := by
  induction part with
  | nil => rfl
  | cons c cs ih =>
    have hrest := ih fun d hd => hpart d (List.mem_cons_of_mem _ hd)
    have hone : checkIndexParent chunks c = .ok () := by
      unfold checkIndexParent
      cases hparent : c.value.parentChunkId with
      | none => rfl
      | some id =>
        obtain ⟨r,hr,rfl,hversion,hprovision⟩ := h.parents c (hpart c List.mem_cons_self) id hparent
        obtain ⟨hmem,hroot⟩ := mem_rootsOf.mp hr
        have hself : r.value.id ≠ c.value.id := by
          intro hsame
          rw [eq_of_id h.ids hmem (hpart c List.mem_cons_self) hsame,hparent] at hroot
          cases hroot
        simp only [if_neg hself,chunkById_mem h.ids hmem,if_neg (not_not.mpr hversion),
          if_neg (not_not.mpr hprovision)]
    rw [checkIndexParents,hone]
    exact hrest

theorem climb_two (validated : List UUID7) (h : TwoLevel chunks) (hc : c ∈ chunks) (fuel : ℕ) :
    ∃ path, climb chunks validated (fuel+2) [] (some c.value.id) = .ok path := by
  rw [climb]
  by_cases hin : c.value.id ∈ validated
  · rw [if_pos hin]
    exact ⟨_,rfl⟩
  · rw [if_neg hin,if_neg List.not_mem_nil,chunkById_mem h.ids hc,Option.bind_some]
    cases hparent : c.value.parentChunkId with
    | none =>
      rw [climb]
      exact ⟨_,rfl⟩
    | some id =>
      obtain ⟨r,hr,rfl,-⟩ := h.parents c hc id hparent
      obtain ⟨hmem,hroot⟩ := mem_rootsOf.mp hr
      rw [climb]
      by_cases hvalid : r.value.id ∈ validated
      · rw [if_pos hvalid]
        exact ⟨_,rfl⟩
      · have hpath : r.value.id ∉ []++[c.value.id] := by
          intro hsame
          rw [eq_of_id h.ids hmem hc (List.mem_singleton.mp hsame),hparent] at hroot
          cases hroot
        rw [if_neg hvalid,if_neg hpath,chunkById_mem h.ids hmem,Option.bind_some,hroot,climb]
        exact ⟨_,rfl⟩

theorem rejectCycles_ok {part : List (LegalChunk sha256)} {validated : List UUID7}
    (h : TwoLevel chunks) (hpart : ∀ c ∈ part, c ∈ chunks) :
    rejectCycles chunks validated part = .ok () := by
  induction part generalizing validated with
  | nil => rfl
  | cons c cs ih =>
    have hc := hpart c List.mem_cons_self
    obtain ⟨n,hn⟩ := Nat.exists_eq_succ_of_ne_zero (List.length_pos_of_mem hc).ne'
    obtain ⟨path,hpath⟩ := climb_two validated h hc n
    rw [rejectCycles,hn,hpath]
    exact ih fun d hd => hpart d (List.mem_cons_of_mem _ hd)

def leavesOf (chunks : List (LegalChunk sha256)) : List (LegalChunk sha256) :=
  chunks.filter fun c => decide (some c.value.id ∉ chunks.map fun d => d.value.parentChunkId)

theorem selectIndexLeaves_ok (h : TwoLevel chunks)
    (hquality : ∀ c ∈ chunks, c.value.quality = .ok) :
    selectIndexLeaves chunks = .ok (leavesOf chunks) := by
  rw [selectIndexLeaves,checkIndexIds_ok h.ids (fun _ _ => List.not_mem_nil) hquality]
  change (checkIndexParents chunks chunks >>= _) = _
  rw [checkIndexParents_ok h fun _ hc => hc]
  change (rejectCycles chunks [] chunks >>= _) = _
  rw [rejectCycles_ok h fun _ hc => hc]
  rfl

theorem mem_leavesOf :
    c ∈ leavesOf chunks ↔ c ∈ chunks ∧ childrenOf chunks c.value.id = [] := by
  rw [leavesOf,List.mem_filter,decide_eq_true_iff]
  refine and_congr_right fun _ => ?_
  constructor
  · intro h
    apply List.eq_nil_iff_forall_not_mem.mpr
    intro d hd
    obtain ⟨hmem,hparent⟩ := mem_childrenOf.mp hd
    exact h (List.mem_map.mpr ⟨d,hmem,hparent⟩)
  · intro h hmem
    obtain ⟨d,hd,hparent⟩ := List.mem_map.mp hmem
    have hchild : d ∈ childrenOf chunks c.value.id := mem_childrenOf.mpr ⟨hd,hparent⟩
    rw [h] at hchild
    cases hchild

end Graph

def sourceOf (p : Provision sha256) : ProvisionSource :=
  ⟨p.value.id,p.value.fullText,p.value.charStart⟩

abbrev LocatedGroup (sha256 : List UInt8 → Digest) : Type :=
  LocatedLegalChunk sha256 × List (LocatedLegalChunk sha256)

/-- Chunks that are stored for provisions are those of a derivation with exact
positions, in some order. -/
structure Hierarchy (d : Derivation) (ps : List (Provision sha256)) (pairs : List ArticlePair)
    (groups : List (LocatedGroup sha256)) (chunks : List (LegalChunk sha256)) : Prop where
  exact : exactPositions d.parserVersion = true
  sources : pairs.map Prod.fst = ps.map sourceOf
  provisions : (ps.map fun p => p.value.id).Nodup
  derived : List.Forall₂ (IsGroup d) pairs groups
  stored : (flat (chunkGroups groups)).Perm chunks
  ids : (idsOf chunks).Nodup

/-- A chunk of a piece of an article, which is the text at its place. -/
structure PartOf (d : Derivation) (pair : ArticlePair) (parent : Option UUID7) (piece : ChildPiece)
    (c : LegalChunk sha256) : Prop where
  fields : ∃ id, c.value = chunkFields sha256 d id pair.1.id parent piece.1 piece.2.1 piece.2.2
  ordered : piece.2.2.1 ≤ piece.2.2.2
  inside : piece.2.2.2 ≤ pair.1.fullText.length
  text : piece.2.1 = slice pair.1.fullText piece.2.2.1 piece.2.2.2

section Stored

variable {d : Derivation} {pairs : List ArticlePair} {groups : List (LocatedGroup sha256)}
variable {chunks : List (LegalChunk sha256)}

theorem flat_ids (h : Hierarchy d ps pairs groups chunks) :
    (idsOf (flat (chunkGroups groups))).Nodup := by
  have hperm : (idsOf (flat (chunkGroups groups))).Perm (idsOf chunks) := h.stored.map _
  exact hperm.nodup_iff.mpr h.ids

theorem hierarchy_levels (h : Hierarchy d ps pairs groups chunks) : TwoLevel chunks :=
  twoLevel_perm (twoLevel_flat (derived_grouped h.derived) (flat_ids h)) h.stored

variable {g : LocatedGroup sha256}

theorem part_root (h : IsGroup d pair g) :
    PartOf d pair none (parentPiece pair.1) g.1.chunk where
  fields := h.parent.1
  ordered := Nat.zero_le _
  inside := le_refl _
  text := by simp [parentPiece,slice]

theorem part_child (hexact : exactPositions d.parserVersion = true)
    (hpiece : piece ∈ articlePieces d pair.1 pair.2)
    (hx : IsPiece sha256 d pair.1.id (some g.1.chunk.value.id) piece x) :
    PartOf d pair (some g.1.chunk.value.id) piece x.chunk := by
  rcases articlePieces_children d pair.1 pair.2 hexact with hnone | ⟨a,b,hchildren,hb,-⟩
  · rw [hnone] at hpiece
    cases hpiece
  · obtain ⟨-,hlt,hstop⟩ := hchildren.tiles.inside piece hpiece
    exact ⟨hx.1,le_of_lt hlt,hstop.trans hb,hchildren.slices piece hpiece⟩

theorem group_of (h : Hierarchy d ps pairs groups chunks) (hc : c ∈ chunks) :
    ∃ pair ∈ pairs, ∃ g ∈ groups, IsGroup d pair g ∧
      (c = g.1.chunk ∨ ∃ x ∈ g.2, x.chunk = c) := by
  obtain ⟨k,hk,hmem⟩ := List.mem_flatMap.mp (h.stored.mem_iff.mpr hc)
  obtain ⟨g,hg,rfl⟩ := List.mem_map.mp hk
  obtain ⟨pair,hpair,hgroup⟩ := forall₂_mem_right h.derived hg
  refine ⟨pair,hpair,g,hg,hgroup,?_⟩
  rcases List.mem_cons.mp hmem with rfl | hmem
  · exact Or.inl rfl
  · exact Or.inr (List.mem_map.mp hmem)

theorem root_stored (h : Hierarchy d ps pairs groups chunks) (hg : g ∈ groups) :
    g.1.chunk ∈ chunks :=
  h.stored.mem_iff.mp (List.mem_flatMap.mpr ⟨_,List.mem_map_of_mem hg,List.mem_cons_self⟩)

theorem child_stored (h : Hierarchy d ps pairs groups chunks) (hg : g ∈ groups) (hx : x ∈ g.2) :
    x.chunk ∈ chunks :=
  h.stored.mem_iff.mp (List.mem_flatMap.mpr ⟨_,List.mem_map_of_mem hg,
    List.mem_cons_of_mem _ (List.mem_map_of_mem hx)⟩)

theorem chunk_part (h : Hierarchy d ps pairs groups chunks) (hc : c ∈ chunks) :
    ∃ pair ∈ pairs, ∃ parent piece, PartOf d pair parent piece c := by
  obtain ⟨pair,hpair,g,-,hgroup,rfl | ⟨x,hx,rfl⟩⟩ := group_of h hc
  · exact ⟨pair,hpair,none,_,part_root hgroup⟩
  · obtain ⟨piece,hpiece,hchild⟩ := forall₂_mem_right hgroup.children hx
    exact ⟨pair,hpair,_,piece,part_child h.exact hpiece hchild⟩

theorem provisionById_source (h : Hierarchy d ps pairs groups chunks) (hpair : pair ∈ pairs) :
    ∃ p, provisionById ps pair.1.id = some p ∧ p ∈ ps ∧ sourceOf p = pair.1 := by
  have hmem : pair.1 ∈ ps.map sourceOf := by
    rw [← h.sources]
    exact List.mem_map_of_mem hpair
  obtain ⟨p,hp,hsource⟩ := List.mem_map.mp hmem
  refine ⟨p,?_,hp,hsource⟩
  rw [← hsource]
  unfold provisionById
  cases hfind : ps.find? fun q => q.value.id == (sourceOf p).id with
  | none =>
    have hnone := List.find?_eq_none.mp hfind p hp
    simp [sourceOf] at hnone
  | some q =>
    have hid : q.value.id = p.value.id :=
      beq_iff_eq.mp (List.find?_eq_some_iff_append.mp hfind).1
    rw [List.inj_on_of_nodup_map h.provisions (List.mem_of_find?_eq_some hfind) hp hid]

theorem part_place (hexact : exactPositions d.parserVersion = true)
    (h : PartOf d pair parent piece c) : placeOf c = some piece.2.2 := by
  obtain ⟨id,hfields⟩ := h.fields
  simp only [placeOf,hfields,chunkFields,position,hexact,if_true]

theorem part_content (h : PartOf d pair parent piece c) :
    c.value.content = slice pair.1.fullText piece.2.2.1 piece.2.2.2 := by
  obtain ⟨id,hfields⟩ := h.fields
  rw [hfields]
  exact h.text

theorem part_placed (h : PartOf d pair parent piece c) :
    placed pair.1.fullText c.value.content piece.2.2 = true := by
  rw [placed,part_content h,BEq.rfl,Bool.and_true]
  exact decide_eq_true h.inside

theorem positionBlockers_part (h : Hierarchy d ps pairs groups chunks) (hc : c ∈ chunks) :
    positionBlockers configuration ps c = [] := by
  obtain ⟨pair,hpair,parent,piece,hpart⟩ := chunk_part h hc
  obtain ⟨p,hfound,-,hsource⟩ := provisionById_source h hpair
  obtain ⟨id,hfields⟩ := hpart.fields
  have hprovision : c.value.provisionId = pair.1.id := by
    rw [hfields]
    rfl
  have htext : p.value.fullText = pair.1.fullText := congrArg ProvisionSource.fullText hsource
  rw [positionBlockers,part_place h.exact hpart]
  simp only [hprovision,hfound,Option.any_some,htext,part_placed hpart,Bool.not_true,
    blockerIf_false]

theorem contains_slice {text : Text} {start stop : ℕ} (horder : start ≤ stop)
    (hstop : stop ≤ text.length) : contains text (slice text start stop) = true := by
  apply List.find?_isSome.mpr
  refine ⟨start,?_,?_⟩
  · rw [List.mem_range'_1]
    omega
  · rw [slice,List.drop_take]
    exact List.isPrefixOf_iff_prefix.mpr (List.take_prefix _ _)

theorem parentBlockers_part (h : Hierarchy d ps pairs groups chunks) (hc : c ∈ chunks) :
    parentBlockers chunks c = [] := by
  obtain ⟨pair,hpair,g,hg,hgroup,rfl | ⟨x,hx,rfl⟩⟩ := group_of h hc
  · obtain ⟨id,hfields⟩ := (part_root hgroup).fields
    have hparent : g.1.chunk.value.parentChunkId = none := by
      rw [hfields]
      rfl
    rw [parentBlockers,hparent]
    rfl
  · obtain ⟨piece,hpiece,hchild⟩ := forall₂_mem_right hgroup.children hx
    have hpart := part_child h.exact hpiece hchild
    obtain ⟨id,hfields⟩ := hpart.fields
    have hparent : x.chunk.value.parentChunkId = some g.1.chunk.value.id := by
      rw [hfields]
      rfl
    have hroot : g.1.chunk.value.content = pair.1.fullText := by
      obtain ⟨_,hroot⟩ := (part_root hgroup).fields
      rw [hroot]
      rfl
    have hcontains : contains g.1.chunk.value.content x.chunk.value.content = true := by
      rw [hroot,part_content hpart]
      exact contains_slice hpart.ordered hpart.inside
    have houtside : outsideParent g.1.chunk x.chunk = false := by
      rw [outsideParent,part_place h.exact hpart,part_place h.exact (part_root hgroup)]
      have hlow := Nat.not_lt_zero piece.2.2.1
      have hhigh := Nat.not_lt_of_le hpart.inside
      simp only [parentPiece,hlow,hhigh,decide_false,Bool.or_false]
    rw [parentBlockers,hparent,Option.bind_some,chunkById_mem h.ids (root_stored h hg)]
    simp only [hcontains,houtside,Bool.not_true,blockerIf_false,List.append_nil]

def hiddenChunk (d : Derivation) (configuration : ReleaseConfiguration) (c : LegalChunk sha256) :
    Bool :=
  !hasText c.value.content || some (stripString d.parserVersion) != some configuration.parserVersion

theorem chunk_hash (c : LegalChunk sha256) :
    (c.value.contentHash == contentSha256 sha256 c.value.content) = true :=
  firstError_none c.valid (c := (c.value.contentHash == contentSha256 sha256 c.value.content,
    "chunk content hash mismatch")) (by simp [legalChunkChecks])

theorem chunkFlaw_hidden (h : Hierarchy d ps pairs groups chunks)
    (hversion : d.versionId = selection.versionId) (hc : c ∈ chunks) :
    chunkFlaw selection configuration ps c = hiddenChunk d configuration c := by
  obtain ⟨pair,hpair,parent,piece,hpart⟩ := chunk_part h hc
  obtain ⟨p,hfound,-,-⟩ := provisionById_source h hpair
  obtain ⟨id,hfields⟩ := hpart.fields
  have hprovision : c.value.provisionId = pair.1.id := by
    rw [hfields]
    rfl
  have hsame : (c.value.versionId != selection.versionId) = false := by
    rw [hfields,← hversion]
    exact bne_self_eq_false _
  have hhash : (c.value.contentHash != contentSha256 sha256 c.value.content) = false := by
    rw [bne,chunk_hash c]
    rfl
  have hparser : c.value.parserVersion = some (stripString d.parserVersion) := by
    rw [hfields]
    rfl
  rw [chunkFlaw,int_isUUID7,hsame,hprovision,hfound,hhash,hparser,hiddenChunk]
  simp only [Bool.not_true,Option.isNone_some,Bool.false_or,Bool.or_false]

theorem group_at (h : Hierarchy d ps pairs groups chunks) (hp : p ∈ ps) :
    ∃ pair g, pair.1 = sourceOf p ∧ g ∈ groups ∧ IsGroup d pair g := by
  have hmem : sourceOf p ∈ pairs.map Prod.fst := by
    rw [h.sources]
    exact List.mem_map_of_mem hp
  obtain ⟨pair,hpair,hsource⟩ := List.mem_map.mp hmem
  obtain ⟨g,hg,hgroup⟩ := forall₂_mem_right h.derived.flip hpair
  exact ⟨pair,g,hsource,hg,hgroup⟩

theorem root_provision (h : IsGroup d pair g) :
    g.1.chunk.value.provisionId = pair.1.id ∧ g.1.chunk.value.parentChunkId = none := by
  obtain ⟨id,hfields⟩ := (part_root h).fields
  rw [hfields]
  exact ⟨rfl,rfl⟩

theorem articleRoots_single (h : Hierarchy d ps pairs groups chunks) (hsource : pair.1 = sourceOf p)
    (hg : g ∈ groups) (hgroup : IsGroup d pair g) : articleRoots chunks p = [g.1.chunk] := by
  have hids : (groups.map fun g => g.1.chunk.value.provisionId) = ps.map fun p => p.value.id := by
    have hpairs : (groups.map fun g => g.1.chunk.value.provisionId) = pairs.map fun pair =>
      pair.1.id := by
      rw [← List.forall₂_eq_eq_eq,List.forall₂_map_left_iff,List.forall₂_map_right_iff]
      exact h.derived.flip.imp fun _ _ hgroup => (root_provision hgroup).1
    have hsources := congrArg (List.map ProvisionSource.id) h.sources
    rw [List.map_map,List.map_map] at hsources
    exact hpairs.trans hsources
  have hroots : ((rootsOf (flat (chunkGroups groups))).filter fun c =>
      c.value.provisionId == p.value.id).Perm (articleRoots chunks p) := by
    rw [rootsOf,List.filter_filter]
    exact h.stored.filter _
  rw [rootsOf_flat (derived_grouped h.derived),chunkGroups,List.map_map] at hroots
  have hmem : g.1.chunk ∈ articleRoots chunks p := by
    apply List.mem_filter.mpr
    obtain ⟨hprovision,hparent⟩ := root_provision hgroup
    refine ⟨root_stored h hg,?_⟩
    rw [hprovision,hparent,hsource,sourceOf,BEq.rfl,BEq.rfl]
    rfl
  have hnodup : ((groups.map (Prod.fst ∘ fun g => (g.1.chunk,g.2.map LocatedLegalChunk.chunk))).map
      fun c => c.value.provisionId).Nodup := by
    rw [List.map_map]
    have hprovisions := h.provisions
    rw [← hids] at hprovisions
    exact hprovisions
  have hone : ∀ c ∈ articleRoots chunks p, c = g.1.chunk := by
    intro c hc
    have hleft := List.mem_filter.mp (hroots.mem_iff.mpr hc)
    have hright := List.mem_filter.mp (hroots.mem_iff.mpr hmem)
    exact List.inj_on_of_nodup_map hnodup hleft.1 hright.1
      ((beq_iff_eq.mp hleft.2).trans (beq_iff_eq.mp hright.2).symm)
  have hdistinct : (articleRoots chunks p).Nodup :=
    (List.Nodup.of_map _ h.ids).filter _
  rcases hl : articleRoots chunks p with _ | ⟨root,_ | ⟨other,rest⟩⟩
  · rw [hl] at hmem
    cases hmem
  · rw [hone root (hl ▸ List.mem_singleton_self root)]
  · rw [hl] at hone hdistinct
    have hfirst := hone root List.mem_cons_self
    have hsecond := hone other (List.mem_cons_of_mem _ List.mem_cons_self)
    exact absurd (hfirst.trans hsecond.symm ▸ List.mem_cons_self) (List.nodup_cons.mp hdistinct).1

theorem leafPlace_part (hexact : exactPositions d.parserVersion = true)
    (h : PartOf d pair parent piece c) :
    leafPlace pair.1.fullText c = .covered piece.2.2.1 piece.2.2.2 := by
  rw [leafPlace,part_place hexact h]
  simp only [part_placed h,if_true]

def provisionLeaves (chunks : List (LegalChunk sha256)) (p : Provision sha256) :
    List (LegalChunk sha256) :=
  (leavesOf chunks).filter fun leaf => leaf.value.provisionId == p.value.id

theorem leaf_covered (h : Hierarchy d ps pairs groups chunks) (hp : p ∈ ps)
    (hc : c ∈ provisionLeaves chunks p) :
    ∃ start stop, leafPlace p.value.fullText c = .covered start stop := by
  obtain ⟨hleaf,hprovision⟩ := List.mem_filter.mp hc
  obtain ⟨pair,hpair,parent,piece,hpart⟩ := chunk_part h (mem_leavesOf.mp hleaf).1
  obtain ⟨q,-,hq,hsource⟩ := provisionById_source h hpair
  obtain ⟨id,hfields⟩ := hpart.fields
  have hid : q.value.id = p.value.id := by
    have hsame : c.value.provisionId = pair.1.id := by
      rw [hfields]
      rfl
    rw [← beq_iff_eq.mp hprovision,hsame,← hsource]
    rfl
  have htext : p.value.fullText = pair.1.fullText := by
    rw [← List.inj_on_of_nodup_map h.provisions hq hp hid,← hsource]
    rfl
  rw [htext]
  exact ⟨_,_,leafPlace_part h.exact hpart⟩

theorem child_leaf (h : Hierarchy d ps pairs groups chunks) (hg : g ∈ groups) (hx : x ∈ g.2)
    (hpart : PartOf d pair (some g.1.chunk.value.id) piece x.chunk) :
    x.chunk ∈ leavesOf chunks := by
  have hmem := child_stored h hg hx
  obtain ⟨id,hfields⟩ := hpart.fields
  have hparent : x.chunk.value.parentChunkId = some g.1.chunk.value.id := by
    rw [hfields]
    rfl
  exact mem_leavesOf.mpr ⟨hmem,childrenOf_child (hierarchy_levels h) hmem hparent⟩

theorem leaves_cover (h : Hierarchy d ps pairs groups chunks) (hp : p ∈ ps) {i : ℕ} {c : Char}
    (hget : p.value.fullText[i]? = some c) (hvisible : isSpace c = false) :
    ∃ leaf ∈ provisionLeaves chunks p, (leafPlace p.value.fullText leaf).covers i = true := by
  obtain ⟨pair,g,hsource,hg,hgroup⟩ := group_at h hp
  have htext : p.value.fullText = pair.1.fullText := by
    rw [hsource]
    rfl
  have hid : pair.1.id = p.value.id := by
    rw [hsource]
    rfl
  have hlength := (List.getElem?_eq_some_iff.mp hget).1
  rw [htext] at hget hlength ⊢
  rcases articlePieces_children d pair.1 pair.2 h.exact with hnone | ⟨a,b,hchildren,-,hblank⟩
  · have hempty : g.2 = [] := by
      have hpieces := hgroup.children
      rw [hnone] at hpieces
      exact List.forall₂_nil_left_iff.mp hpieces
    have hleaf : childrenOf chunks g.1.chunk.value.id = [] := by
      have hchildren := childrenOf_flat (derived_grouped h.derived) (rootIds_nodup (flat_ids h))
        (List.mem_map_of_mem (f := fun g : LocatedGroup sha256 =>
          (g.1.chunk,g.2.map LocatedLegalChunk.chunk)) hg)
      rw [hempty] at hchildren
      have hperm : (childrenOf (flat (chunkGroups groups)) g.1.chunk.value.id).Perm
          (childrenOf chunks g.1.chunk.value.id) := h.stored.filter _
      rw [hchildren] at hperm
      exact hperm.nil_eq.symm
    refine ⟨g.1.chunk,?_,?_⟩
    · apply List.mem_filter.mpr
      refine ⟨mem_leavesOf.mpr ⟨root_stored h hg,hleaf⟩,?_⟩
      rw [(root_provision hgroup).1,hid,BEq.rfl]
    · rw [leafPlace_part h.exact (part_root hgroup)]
      simp only [parentPiece,LeafPlace.covers,Nat.zero_le,decide_true,Bool.true_and]
      exact decide_eq_true hlength
  · have hin : a ≤ i ∧ i < b := by
      by_contra hout
      have hspace := hblank i c hget (by omega)
      rw [hvisible] at hspace
      cases hspace
    obtain ⟨piece,hpiece,hlow,hhigh⟩ := hchildren.tiles.covers i hin.1 hin.2
    obtain ⟨x,hx,hchild⟩ := forall₂_mem_right hgroup.children.flip hpiece
    have hpart := part_child h.exact hpiece hchild
    refine ⟨x.chunk,?_,?_⟩
    · apply List.mem_filter.mpr
      refine ⟨child_leaf h hg hx hpart,?_⟩
      obtain ⟨id,hfields⟩ := hpart.fields
      rw [hfields]
      exact beq_iff_eq.mpr hid
    · rw [leafPlace_part h.exact hpart]
      simp only [LeafPlace.covers,Bool.and_eq_true,decide_eq_true_eq]
      exact ⟨hlow,hhigh⟩

theorem hasGap_covered (h : Hierarchy d ps pairs groups chunks) (hp : p ∈ ps) :
    hasGap p.value.fullText ((provisionLeaves chunks p).map (leafPlace p.value.fullText)) =
      false := by
  apply List.any_eq_false.mpr
  rintro ⟨c,i⟩ hmem hgap
  simp only [Bool.and_eq_true,Bool.not_eq_true'] at hgap
  have hget : p.value.fullText[i]? = some c := List.mem_zipIdx_iff_getElem?.mp hmem
  obtain ⟨leaf,hleaf,hcovers⟩ := leaves_cover h hp hget hgap.1
  have hany : ((provisionLeaves chunks p).map (leafPlace p.value.fullText)).any
      (LeafPlace.covers i) = true := List.any_eq_true.mpr ⟨_,List.mem_map_of_mem hleaf,hcovers⟩
  rw [hany] at hgap
  cases hgap.2

theorem articleBlockers_none (h : Hierarchy d ps pairs groups chunks) (hp : p ∈ ps) :
    articleBlockers chunks (leavesOf chunks) p = [] := by
  obtain ⟨pair,g,hsource,hg,hgroup⟩ := group_at h hp
  have hroot : rootFlaw p (articleRoots chunks p) = false := by
    rw [articleRoots_single h hsource hg hgroup]
    obtain ⟨id,hfields⟩ := (part_root hgroup).fields
    have htext : pair.1.fullText = p.value.fullText := by
      rw [hsource]
      rfl
    simp only [rootFlaw,hfields,chunkFields,parentPiece,htext,bne_self_eq_false,Bool.or_false]
  have hplaces : ∀ place ∈ (provisionLeaves chunks p).map (leafPlace p.value.fullText),
      ∃ start stop, place = .covered start stop := by
    intro place hplace
    obtain ⟨leaf,hleaf,rfl⟩ := List.mem_map.mp hplace
    exact leaf_covered h hp hleaf
  have hinvalid : ((provisionLeaves chunks p).map (leafPlace p.value.fullText)).contains
      .invalid = false := by
    apply Bool.eq_false_iff.mpr
    intro hmem
    obtain ⟨_,_,hplace⟩ := hplaces _ (List.contains_iff_mem.mp hmem)
    cases hplace
  have houtside : ((provisionLeaves chunks p).map (leafPlace p.value.fullText)).contains
      .outside = false := by
    apply Bool.eq_false_iff.mpr
    intro hmem
    obtain ⟨_,_,hplace⟩ := hplaces _ (List.contains_iff_mem.mp hmem)
    cases hplace
  rw [articleBlockers,hroot,if_neg Bool.false_ne_true]
  change leafBlockers _ ((provisionLeaves chunks p).map (leafPlace p.value.fullText)) = []
  rw [leafBlockers,hinvalid,houtside,hasGap_covered h hp]
  rfl

theorem chunkBlockers_hidden (h : Hierarchy d ps pairs groups chunks)
    (configuration : ReleaseConfiguration) (hversion : d.versionId = selection.versionId)
    (hsome : chunks ≠ []) : chunkBlockers selection configuration ps chunks =
      chunks.flatMap fun c => blockerIf (hiddenChunk d configuration c) "chunk_invalid" := by
  have hquality : ∀ c ∈ chunks, c.value.quality = .ok := by
    intro c hc
    obtain ⟨pair,-,parent,piece,hpart⟩ := chunk_part h hc
    obtain ⟨id,hfields⟩ := hpart.fields
    rw [hfields]
    rfl
  have harticles : ps.flatMap (articleBlockers chunks (leavesOf chunks)) = [] := by
    apply List.flatMap_eq_nil_iff.mpr
    exact fun p hp => articleBlockers_none h hp
  have hchunks : (chunks.flatMap fun c =>
      blockerIf (chunkFlaw selection configuration ps c) "chunk_invalid"++
        (positionBlockers configuration ps c++parentBlockers chunks c)) =
      chunks.flatMap fun c => blockerIf (hiddenChunk d configuration c) "chunk_invalid" := by
    rw [List.flatMap_def,List.flatMap_def]
    congr 1
    apply List.map_congr_left
    intro c hc
    rw [chunkFlaw_hidden h hversion hc,positionBlockers_part h hc,parentBlockers_part h hc,
      List.append_nil,List.append_nil]
  rw [chunkBlockers,if_neg hsome,selectIndexLeaves_ok (hierarchy_levels h) hquality]
  simp only
  rw [hchunks,harticles,List.append_nil]

end Stored

end LawyerAgent.ReleaseQualityAgreement
