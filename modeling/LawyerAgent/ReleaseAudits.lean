import LawyerAgent.PreparedImports

/-!
# The audit of imported versions

After any run of imports, one more import that succeeds leaves a version whose
provisions and chunks the audit does not refuse, exactly when no window of an
over-long article is blank and the parser version has no blanks to strip.
-/

set_option autoImplicit false

namespace LawyerAgent.ReleaseAudits
open Relational Common PythonText LegalVersions
open LegalCorpus CorpusImport CorpusImportReplay
open ChunkStructure ChunkReplay ChunkGraphs
open DerivedGraphs ChunkPersistence ReleaseQuality
open ReleaseQualityAgreement PreparedImports
open LegalArticleHeading (Text)
open LegalStructureParser (ParsedArticle parse)

variable {sha256 : List UInt8 → Digest} {printable : Char → Bool}

def AllVisible (chunks : List (LegalChunk sha256)) : Prop :=
  ∀ c ∈ chunks, hasText c.value.content = true

def OutlineVisible (o : ChunkSemantic × List ChunkSemantic) : Prop :=
  hasText o.1.content = true ∧ ∀ s ∈ o.2, hasText s.content = true

def treeSemantic : ChunkTree → ChunkSemantic
  | .node semantic _ => semantic

def TreeVisible : ChunkTree → Prop
  | .node semantic children =>
    hasText semantic.content = true ∧ ∀ t ∈ children, hasText (treeSemantic t).content = true

theorem treeVisible_outline {o : ChunkSemantic × List ChunkSemantic} :
    TreeVisible (outlineTree printable o) ↔ OutlineVisible o := by
  refine and_congr_right fun _ => ?_
  have hmem : ∀ t, t ∈ sortTrees printable (o.2.map leafTree) ↔ t ∈ o.2.map leafTree := fun t =>
    (List.perm_insertionSort _ _).mem_iff
  constructor
  · intro h s hs
    exact h (leafTree s) ((hmem _).mpr (List.mem_map_of_mem hs))
  · intro h t ht
    obtain ⟨s,hs,rfl⟩ := List.mem_map.mp ((hmem _).mp ht)
    exact h s hs

variable {chunks : List (LegalChunk sha256)} {located : List (LocatedLegalChunk sha256)}
  {ps : List (Provision sha256)} {sizes : Sizes} {versionId : UUID7}
  {drafts : List LegalProvisionDraft} {configuration : ReleaseConfiguration}

theorem allVisible_outline (h : TwoLevel chunks) :
    AllVisible chunks ↔ ∀ o ∈ outline chunks, OutlineVisible o := by
  constructor
  · intro hall o ho
    obtain ⟨r,hr,rfl⟩ := List.mem_map.mp ho
    refine ⟨hall r (mem_rootsOf.mp hr).1,?_⟩
    intro s hs
    obtain ⟨c,hc,rfl⟩ := List.mem_map.mp hs
    exact hall c (mem_childrenOf.mp hc).1
  · intro hall c hc
    cases hparent : c.value.parentChunkId with
    | none => exact (hall _ (List.mem_map_of_mem (mem_rootsOf.mpr ⟨hc,hparent⟩))).1
    | some id =>
      obtain ⟨r,hr,rfl,-⟩ := h.parents c hc id hparent
      exact (hall _ (List.mem_map_of_mem hr)).2 _
        (List.mem_map_of_mem (mem_childrenOf.mpr ⟨hc,hparent⟩))

theorem matched_visible {expected actual : List (LegalChunk sha256)} (hexpected : TwoLevel expected)
    (hactual : TwoLevel actual) (h : assertChunkGraphMatches printable expected actual = .ok ()) :
    AllVisible expected ↔ AllVisible actual := by
  unfold assertChunkGraphMatches at h
  cases hleft : canonicalGraph printable expected with
  | error message =>
    rw [hleft] at h
    cases h
  | ok left =>
    cases hright : canonicalGraph printable actual with
    | error message =>
      rw [hleft,hright] at h
      cases h
    | ok right =>
      rw [hleft,hright] at h
      have hperm : left.Perm right := Outcomes.require_ok.mp h
      have htrees : ∀ {chunks : List (LegalChunk sha256)} {trees : List ChunkTree},
          TwoLevel chunks → canonicalGraph printable chunks = .ok trees →
            (AllVisible chunks ↔ ∀ t ∈ trees, TreeVisible t) := by
        intro chunks trees hlevels hgraph
        rw [allVisible_outline hlevels,((canonicalGraph_ok printable hlevels).mp hgraph).2,
          List.forall_mem_map]
        exact forall₂_congr fun o _ => treeVisible_outline.symm
      rw [htrees hexpected hleft,htrees hactual hright]
      exact forall_congr' fun t => imp_congr_left hperm.mem_iff

/-- The chunks of a derivation show text if and only if their articles and the
pieces of these do. -/
theorem derived_visible {d : Derivation} {newId : ℕ → UUID7} {n : ℕ} {pairs : List ArticlePair}
    (h : deriveFrom d newId n pairs = .ok located)
    (hroots : ∀ pair ∈ pairs, hasText pair.1.fullText = true) :
    AllVisible (located.map LocatedLegalChunk.chunk) ↔
      ∀ pair ∈ pairs, ∀ piece ∈ articlePieces d pair.1 pair.2, hasText piece.2.1 = true := by
  obtain ⟨groups,rfl,hgroups,-⟩ := deriveFrom_ok h
  constructor
  · intro hall pair hpair piece hpiece
    obtain ⟨g,hg,hgroup⟩ := forall₂_mem_right hgroups.flip hpair
    obtain ⟨x,hx,⟨⟨id,hfields⟩,-⟩⟩ := forall₂_mem_right hgroup.children.flip hpiece
    have hvisible := hall x.chunk (List.mem_map_of_mem
      (List.mem_flatMap.mpr ⟨g,hg,List.mem_cons_of_mem _ hx⟩))
    rw [hfields] at hvisible
    exact hvisible
  · intro hall c hc
    obtain ⟨x,hx,rfl⟩ := List.mem_map.mp hc
    obtain ⟨g,hg,hmem⟩ := List.mem_flatMap.mp hx
    obtain ⟨pair,hpair,hgroup⟩ := forall₂_mem_right hgroups hg
    rcases List.mem_cons.mp hmem with rfl | hmem
    · obtain ⟨⟨id,hfields⟩,-⟩ := hgroup.parent
      rw [hfields]
      exact hroots pair hpair
    · obtain ⟨piece,hpiece,⟨⟨id,hfields⟩,-⟩⟩ := forall₂_mem_right hgroup.children hmem
      rw [hfields]
      exact hall pair hpair piece hpiece

def windowTexts (sizes : Sizes) (parserVersion : String) (text : Text) (a : ArticleSource) :
    List Text :=
  (unitsForArticle text a sizes.maxLeaf (exactPositions parserVersion)
    (exactTextChunks parserVersion)).flatMap fun unit =>
      (windowPieces sizes unit.text).map Piece.text

def storedTexts (c : LegalImportCommand) : List Text :=
  c.provisions.map fun d => provisionText d.fullText c.parserVersion

def WindowsVisible (p : PreparedImport) : Prop :=
  ∀ sizes, validateSettings p.settings = .ok sizes →
    ∀ article ∈ (storedTexts p.call.command).zip p.articles,
      ∀ text ∈ windowTexts sizes (chunkParserVersion p) article.1 article.2, hasText text = true

theorem articlePieces_texts (d : Derivation) (p : ProvisionSource) (a : ArticleSource) :
    (articlePieces d p a).map (fun piece => piece.2.1) =
      windowTexts d.sizes d.parserVersion p.fullText a := by
  rw [articlePieces,windowTexts,List.map_flatMap]
  simp only [List.map_map]
  rfl

theorem callPairs_zip {p : PreparedImport}
    (hcall : validateCall (deriveCall p versionId ps) = .ok sizes)
    (horder : ps.Pairwise fun q r => q.value.charStart < r.value.charStart) :
    callPairs (deriveCall p versionId ps) = (ps.map sourceOf).zip p.articles ∧
      (callPairs (deriveCall p versionId ps)).map Prod.fst = ps.map sourceOf := by
  have hlength := (validateCall_ok hcall).2.2
  have hfirst : ((ps.map sourceOf).zip p.articles).map Prod.fst = ps.map sourceOf :=
    List.map_fst_zip (le_of_eq hlength)
  have hsorted : ((ps.map sourceOf).zip p.articles).Pairwise earlierPair := by
    have hstarts : (((ps.map sourceOf).zip p.articles).map Prod.fst).Pairwise
        fun q r => q.charStart < r.charStart := by
      rw [hfirst,List.pairwise_map]
      exact horder
    exact (List.pairwise_map.mp hstarts).imp fun {_ _} hlt => Or.inl hlt
  have hzip : callPairs (deriveCall p versionId ps) = (ps.map sourceOf).zip p.articles :=
    hsorted.insertionSort_eq
  exact ⟨hzip,by rw [hzip,hfirst]⟩

theorem pieces_visible {p : PreparedImport}
    (hcall : validateCall (deriveCall p versionId ps) = .ok sizes)
    (horder : ps.Pairwise fun q r => q.value.charStart < r.value.charStart)
    (htexts : ps.map (fun q => q.value.fullText) = storedTexts p.call.command) :
    (∀ pair ∈ callPairs (deriveCall p versionId ps), ∀ piece ∈ articlePieces
      (callDerivation (deriveCall p versionId ps) sizes) pair.1 pair.2, hasText piece.2.1 = true) ↔
        WindowsVisible p := by
  have hsettings := (validateCall_ok hcall).1
  have hpairs : (callPairs (deriveCall p versionId ps)).map
      (fun pair => (pair.1.fullText,pair.2)) = (storedTexts p.call.command).zip p.articles := by
    have htext : (ps.map sourceOf).map ProvisionSource.fullText = storedTexts p.call.command := by
      rw [← htexts,List.map_map]
      rfl
    rw [(callPairs_zip hcall horder).1,← htext]
    generalize ps.map sourceOf = sources
    rw [List.zip_map_left]
    rfl
  have hpieces : ∀ pair : ArticlePair, (∀ piece ∈ articlePieces
      (callDerivation (deriveCall p versionId ps) sizes) pair.1 pair.2, hasText piece.2.1 = true) ↔
      ∀ text ∈ windowTexts sizes (chunkParserVersion p) pair.1.fullText pair.2,
        hasText text = true := by
    intro pair
    have htext : windowTexts sizes (chunkParserVersion p) pair.1.fullText pair.2 = (articlePieces
      (callDerivation (deriveCall p versionId ps) sizes) pair.1 pair.2).map fun piece =>
        piece.2.1 :=
        (articlePieces_texts (callDerivation (deriveCall p versionId ps) sizes) pair.1 pair.2).symm
    rw [htext,List.forall_mem_map]
  constructor
  · intro hall sizes' hsizes article harticle
    have hsame : sizes' = sizes := Except.ok.inj (hsizes.symm.trans hsettings)
    rw [← hpairs] at harticle
    obtain ⟨pair,hpair,rfl⟩ := List.mem_map.mp harticle
    rw [hsame]
    exact (hpieces pair).mp (hall pair hpair)
  · intro hall pair hpair
    apply (hpieces pair).mpr
    refine hall sizes hsettings (pair.1.fullText,pair.2) ?_
    rw [← hpairs]
    exact List.mem_map_of_mem (f := fun pair : ArticlePair => (pair.1.fullText,pair.2)) hpair

variable {imports : Set PreparedImport} {p q : PreparedImport} {s t : Corpus sha256}
  {v : LegalVersion}

theorem library_chunks (hs : Library imports s) (versionId : UUID7) :
    (s.chunks.rows.filter fun c => c.value.versionId == versionId).Perm
      (chunksForVersion s versionId) :=
  chunksForVersion_rows fun c hc _ => hs.chunks c hc

theorem provisionsForVersion_ids (s : Corpus sha256) (versionId : UUID7) :
    ((provisionsForVersion s versionId).map fun p => p.value.id).Nodup := by
  have hrows : ((selectRows (fun p => p.value.versionId == versionId) s.provisions).map
      fun p => p.value.id).Nodup := by
    rw [List.Nodup,List.pairwise_map]
    exact (s.provisions.legal.2.filter _).imp fun {_ _} hapart => hapart.1
  exact ((List.perm_insertionSort _ _).map _).nodup_iff.mpr hrows

theorem exactPositions_suffix (parserVersion : String) :
    exactPositions (parserVersion++"/hierarchical-v2") = true := by
  rw [exactPositions,String.toList_append]
  exact List.isSuffixOf_iff_suffix.mpr (List.suffix_append _ _)

theorem stored_hierarchy (hs : Library imports s) (h : Stored q s v) :
    ∃ d pairs groups, Hierarchy d (provisionsForVersion s v.value.id) pairs groups
        (chunksForVersion s v.value.id) ∧
      d.versionId = v.value.id ∧ d.parserVersion = chunkParserVersion q ∧
      chunksForVersion s v.value.id ≠ [] := by
  obtain ⟨sizes,located,hcall,hderived,hids,hperm⟩ := h.chunks
  obtain ⟨groups,hflat,hgroups,-⟩ := deriveFrom_ok hderived
  have hzip := callPairs_zip hcall (derivedFrom_starts h.provisions).2
  have hstored := hperm.symm.trans (library_chunks hs v.value.id)
  have hchunks : flat (chunkGroups groups) = located.map LocatedLegalChunk.chunk := by
    rw [flat_chunkGroups,hflat]
  have hexact : exactPositions (chunkParserVersion q) = true := exactPositions_suffix _
  refine ⟨_,_,groups,⟨?_,hzip.2,?_,hgroups,?_,?_⟩,?_,?_,?_⟩
  · exact hexact
  · exact provisionsForVersion_ids s _
  · rw [hchunks]
    exact hstored
  · have hsame : (idsOf (located.map LocatedLegalChunk.chunk)).Perm
        (idsOf (chunksForVersion s v.value.id)) := hstored.map _
    exact hsame.nodup_iff.mp hids
  · rfl
  · rfl
  · have hsome := (validateCall_ok hcall).2.1
    intro hnone
    rw [hnone,← hchunks] at hstored
    have hempty : groups = [] := by
      cases groups with
      | nil => rfl
      | cons g groups => exact absurd hstored.eq_nil (List.cons_ne_nil _ _)
    rw [hempty] at hgroups
    have hpairs := List.forall₂_nil_right_iff.mp hgroups
    have hsources := hzip.2
    rw [hpairs] at hsources
    exact hsome hsources.symm

theorem stored_levels (hs : Library imports s) (h : Stored q s v) :
    TwoLevel (chunksForVersion s v.value.id) := by
  obtain ⟨d,pairs,groups,hhierarchy,-⟩ := stored_hierarchy hs h
  exact hierarchy_levels hhierarchy

/-- What the stored rows of a version say about the file of an import. -/
structure Facts (p : PreparedImport) (s : Corpus sha256) (v : LegalVersion) : Prop where
  parserVersion : v.value.parserVersion = some p.call.command.parserVersion
  levels : (provisionsForVersion s v.value.id).map (fun q => q.value.level) =
    p.call.command.provisions.map LegalProvisionDraft.level
  visible : AllVisible (chunksForVersion s v.value.id) ↔ WindowsVisible p

theorem derived_pieces (hcall : validateCall (deriveCall p versionId ps) = .ok sizes)
    (hderived : deriveFrom (callDerivation (deriveCall p versionId ps) sizes) p.chunkId 0
      (callPairs (deriveCall p versionId ps)) = .ok located)
    (horder : ps.Pairwise fun q r => q.value.charStart < r.value.charStart)
    (htexts : ps.map (fun q => q.value.fullText) = storedTexts p.call.command) :
    AllVisible (located.map LocatedLegalChunk.chunk) ↔ WindowsVisible p := by
  refine (derived_visible hderived ?_).trans (pieces_visible hcall horder htexts)
  intro pair hpair
  have hmem : pair.1 ∈ ps.map sourceOf := by
    rw [← (callPairs_zip hcall horder).2]
    exact List.mem_map_of_mem hpair
  obtain ⟨q,-,hsource⟩ := List.mem_map.mp hmem
  rw [← hsource]
  exact provision_visible q

theorem allVisible_perm {chunks others : List (LegalChunk sha256)} (h : chunks.Perm others) :
    AllVisible chunks ↔ AllVisible others := forall_congr' fun _ => imp_congr_left h.mem_iff

theorem expectedProvisions_texts {parserVersion : String} {cursor : ℕ} :
    (expectedProvisions sha256 parserVersion cursor drafts).map (fun o => (o.level,o.fullText)) =
      drafts.map fun d => (d.level.value,provisionText d.fullText parserVersion) := by
  induction drafts generalizing cursor with
  | nil => rfl
  | cons d drafts ih =>
    rw [expectedProvisions,List.map_cons,List.map_cons,ih]

theorem derivedFrom_texts {parserVersion : String} {newId : ℕ → UUID7} {cursor n : ℕ}
    (h : DerivedFrom sha256 versionId parserVersion newId cursor n drafts ps) :
    ps.map (fun q => (q.value.level,q.value.fullText)) =
      drafts.map fun d => (d.level,provisionText d.fullText parserVersion) := by
  have hdrafts := congrArg (List.map fun d => (d.level,d.fullText))
    (derived_drafts sha256 versionId parserVersion newId cursor n drafts)
  rw [← h,List.map_map,List.map_map,List.map_map] at hdrafts
  exact hdrafts

theorem facts_compared (hs : Library imports s) (h : Stored q s v)
    (hparser : v.value.parserVersion = some p.call.command.parserVersion)
    (hprovisions : assertProvisionsMatch p.call.command.provisions (provisionsForVersion s
      v.value.id) p.call.command.parserVersion = .ok ())
    (hcall : validateCall (deriveCall p v.value.id (provisionsForVersion s v.value.id)) = .ok sizes)
    (hderived : deriveFrom (callDerivation (deriveCall p v.value.id (provisionsForVersion s
      v.value.id)) sizes) p.chunkId 0 (callPairs (deriveCall p v.value.id (provisionsForVersion s
      v.value.id))) = .ok located)
    (hmatches : assertChunkGraphMatches printable (located.map LocatedLegalChunk.chunk)
      (chunksForVersion s v.value.id) = .ok ()) :
    Facts p s v := by
  have hsame := Outcomes.require_ok.mp hprovisions
  have hpairs := congrArg (List.map fun o => (o.level,o.fullText)) hsame
  rw [expectedProvisions_texts,List.map_map] at hpairs
  have htexts := congrArg (List.map Prod.snd) hpairs
  have hlevels := congrArg (List.map Prod.fst) hpairs
  rw [List.map_map,List.map_map] at htexts hlevels
  have hids : (idsOf (located.map LocatedLegalChunk.chunk)).Nodup := by
    unfold assertChunkGraphMatches at hmatches
    cases hgraph : canonicalGraph printable (located.map LocatedLegalChunk.chunk) with
    | error message =>
      rw [hgraph] at hmatches
      cases hmatches
    | ok trees =>
      simp only [canonicalGraph,Outcomes.bind_ok,Outcomes.require_ok] at hgraph
      obtain ⟨_,hnodup,-⟩ := hgraph
      exact hnodup
  constructor
  · exact hparser
  · have hvalues :
      (p.call.command.provisions.map LegalProvisionDraft.level).map ProvisionLevel.value =
        ((provisionsForVersion s v.value.id).map fun q => q.value.level).map
          ProvisionLevel.value := by
      rw [List.map_map,List.map_map]
      exact hlevels
    exact (List.map_injective_iff.mpr (fun _ _ => level_value_inj) hvalues).symm
  · have hvisible :=
      matched_visible ((derived_graph hderived).2 hids).1 (stored_levels hs h) hmatches
    rw [← hvisible]
    exact derived_pieces hcall hderived (derivedFrom_starts h.provisions).2 htexts.symm

theorem facts_written (hs : Library imports s) (h : Stored p s v) : Facts p s v := by
  obtain ⟨sizes,located,hcall,hderived,-,hperm⟩ := h.chunks
  have hpairs := derivedFrom_texts h.provisions
  have htexts := congrArg (List.map Prod.snd) hpairs
  have hlevels := congrArg (List.map Prod.fst) hpairs
  rw [List.map_map,List.map_map] at htexts hlevels
  constructor
  · obtain ⟨_,hversion⟩ := h.version
    rw [hversion]
    rfl
  · exact hlevels
  · rw [← allVisible_perm (hperm.symm.trans (library_chunks hs v.value.id))]
    exact derived_pieces hcall hderived (derivedFrom_starts h.provisions).2 htexts

theorem import_facts {r : CorpusFileImportResult} (hs : Library imports s) (hp : p ∈ imports)
    (h : importPrepared printable p s = .ok (r,t)) : Library imports t ∧
      ∃ v ∈ t.versions, v.value.id = r.imported.versionId ∧ Facts p t v := by
  have ht := library_kept printable hp hs h
  refine ⟨ht,?_⟩
  obtain ⟨u,himport,hcheck,sizes,located,hkept⟩ := importPrepared_ok printable h
  obtain ⟨hchunks,⟨hflag,v,hid,hcompared⟩ | ⟨hflag,hid,v,ps,hfresh⟩⟩ :=
    importVersion_outcome himport
  · obtain ⟨hsame,hmatches⟩ := hkept.compared hflag
    have hu : Library imports u := library_same hcompared.versions hcompared.provisions hchunks hs
    have hv : v ∈ u.versions := by
      rw [hcompared.versions]
      exact hcompared.version
    obtain ⟨q,-,hstored⟩ := hu.versions v hv
    rw [hflag,hid] at hcheck
    simp only [checkReplay,if_true,ofExcept_ok,and_true] at hcheck
    have hcall := hkept.call
    have hderived := hkept.derived
    rw [hid] at hcall hderived hmatches
    have hfacts :=
      facts_compared hu hstored hcompared.same.2.2.2.2.2.2.2.2.1 hcheck hcall hderived hmatches
    refine ⟨v,?_,hid.symm,hfacts.parserVersion,?_,?_⟩
    · rw [hkept.versions]
      exact hv
    · rw [provisionsForVersion,hkept.provisions]
      exact hfacts.levels
    · rw [← hfacts.visible]
      have hrows := library_chunks ht v.value.id
      rw [hsame] at hrows
      exact allVisible_perm (hrows.symm.trans (library_chunks hu v.value.id))
  · have hv : v ∈ t.versions := by
      rw [hkept.versions]
      exact (inserted_mem hfresh.versions).mpr (Or.inl rfl)
    have hcall := hkept.call
    have hderived := hkept.derived
    have hreplaced := hkept.written hflag
    rw [hid,fresh_provisions hs hfresh] at hcall hderived hreplaced
    have hnew : provisionsForVersion t p.call.versionId = ps := by
      rw [← fresh_provisions hs hfresh,provisionsForVersion,provisionsForVersion,hkept.provisions]
    have hvid := fresh_id hfresh
    have hstored : Stored p t v := by
      refine ⟨hfresh.version,?_,?_⟩
      · rw [hvid,hnew]
        exact hfresh.derived
      · rw [hvid,hnew]
        exact ⟨sizes,located,hcall,hderived,hreplaced.ids,replacement_selected hreplaced⟩
    exact ⟨v,hv,hvid.trans hid.symm,facts_written ht hstored⟩

/-- The blockers that the checks of provisions and chunks may not raise, apart
from the one for a provision of another level. -/
def refusals : List String :=
  ["provision_bounds_invalid","version_content_hash_mismatch","chunk_graph_invalid","chunk_invalid",
    "chunk_position_invalid","chunk_position_missing","chunk_position_outside_parent",
    "leaf_position_invalid","child_text_outside_parent","article_parent_invalid",
    "leaf_text_outside_article","leaf_coverage_gap","leaf_coverage_ambiguous"]

/-- The audit of an imported version refuses neither its provisions nor its chunks. -/
def Accepted (p : PreparedImport) (selection : ReleaseSelection) (blockers : List String) : Prop :=
  (∀ b ∈ refusals, b ∉ blockers) ∧
    ((∀ d ∈ p.call.command.provisions, d.level = expectedLevel selection.contentMode) →
      "provision_invalid" ∉ blockers)

theorem refusals_apart : ∀ b ∈ refusals, b ∉ ["provisions_missing","provision_duplicate",
    "content_mode_mismatch","non_article_structure_invalid","article_sequence_invalid"] := by decide

/-- A parser version that is recorded in the chunks as it is. -/
def Unpadded (p : PreparedImport) : Prop := stripString (chunkParserVersion p) =
  chunkParserVersion p

theorem hidden_none {d : Derivation} (hsome : chunks ≠ []) :
    "chunk_invalid" ∉ chunks.flatMap (fun c => blockerIf (hiddenChunk d configuration c)
      "chunk_invalid") ↔
      AllVisible chunks ∧ stripString d.parserVersion = configuration.parserVersion := by
  have hone : ∀ c : LegalChunk sha256, hiddenChunk d configuration c = false ↔
      hasText c.value.content = true ∧ stripString d.parserVersion =
        configuration.parserVersion := by
    intro c
    simp [hiddenChunk]
  have hnone : "chunk_invalid" ∉ chunks.flatMap
      (fun c => blockerIf (hiddenChunk d configuration c) "chunk_invalid") ↔
        ∀ c ∈ chunks, hiddenChunk d configuration c = false := by
    simp only [List.mem_flatMap,mem_blockerIf,and_true,not_exists,not_and,Bool.not_eq_true]
  rw [hnone]
  constructor
  · intro hall
    obtain ⟨c,hc⟩ := List.exists_mem_of_ne_nil _ hsome
    exact ⟨fun c hc => ((hone c).mp (hall c hc)).1,((hone c).mp (hall c hc)).2⟩
  · rintro ⟨hvisible,hparser⟩ c hc
    exact (hone c).mpr ⟨hvisible c hc,hparser⟩

theorem facts_audit (hs : Library imports s) (hv : v ∈ s.versions) (hfacts : Facts p s v)
    {selection : ReleaseSelection} (hselection : selection.versionId = v.value.id)
    (hconfiguration : configuration.parserVersion = chunkParserVersion p)
    (qualityFlags : Option (List String)) :
    Accepted p selection (auditBlockers selection configuration v qualityFlags s) ↔
      WindowsVisible p ∧ Unpadded p := by
  obtain ⟨q,-,hstored⟩ := hs.versions v hv
  obtain ⟨d,pairs,groups,hhierarchy,hversion,hparser,hsome⟩ := stored_hierarchy hs hstored
  have hqparser : v.value.parserVersion = some q.call.command.parserVersion := by
    obtain ⟨_,hfields⟩ := hstored.version
    rw [hfields]
    rfl
  have hqhash : v.value.contentHash =
      some (contentHash sha256 q.call.command.parserVersion q.call.command.provisions) := by
    obtain ⟨_,hfields⟩ := hstored.version
    rw [hfields]
    rfl
  have hsame : chunkParserVersion q = chunkParserVersion p := by
    have hboth := Option.some_inj.mp (hqparser.symm.trans hfacts.parserVersion)
    rw [chunkParserVersion,chunkParserVersion,hboth]
  have hderived := hstored.provisions
  rw [← hselection] at hderived hhierarchy hversion hsome
  have hchunks := chunkBlockers_hidden hhierarchy configuration hversion hsome
  have hprovisions : ∀ b ∈ provisionBlockers selection v
      (provisionsForVersion s selection.versionId) qualityFlags, _ := fun b hb =>
    provisionBlockers_derived hqparser hqhash hderived hb
  have hvisible : WindowsVisible p ∧ Unpadded p ↔ "chunk_invalid" ∉ chunkBlockers selection
      configuration (provisionsForVersion s selection.versionId)
      (chunksForVersion s selection.versionId) := by
    rw [hchunks,hidden_none hsome,← hfacts.visible,← hselection,hparser,hsame,hconfiguration]
    rfl
  rw [hvisible]
  unfold auditBlockers Accepted
  constructor
  · intro haccepted hmem
    exact haccepted.1 "chunk_invalid" (by decide) (List.mem_append_right _ hmem)
  · intro hnone
    constructor
    · intro b hb hmem
      rcases List.mem_append.mp hmem with hmem | hmem
      · rcases hprovisions b hmem with hother | ⟨rfl,-⟩
        · exact refusals_apart b hb hother
        · revert hb
          decide
      · rw [hchunks] at hmem hnone
        obtain ⟨c,hc,hone⟩ := List.mem_flatMap.mp hmem
        rw [(mem_blockerIf.mp hone).2] at hmem
        exact hnone hmem
    · intro hlevels hmem
      rcases List.mem_append.mp hmem with hmem | hmem
      · rcases hprovisions _ hmem with hother | ⟨-,p',hp',hlevel⟩
        · revert hother
          decide
        · have hin : p'.value.level ∈ p.call.command.provisions.map LegalProvisionDraft.level := by
            rw [← hfacts.levels,← hselection]
            exact List.mem_map_of_mem hp'
          obtain ⟨draft,hdraft,hdraftLevel⟩ := List.mem_map.mp hin
          exact hlevel (hdraftLevel ▸ hlevels draft hdraft)
      · rw [hchunks] at hmem
        obtain ⟨c,hc,hone⟩ := List.mem_flatMap.mp hmem
        have hother := (mem_blockerIf.mp hone).2
        revert hother
        decide

/-- After any run of imports, a successful import leaves a version that the
audit accepts if and only if no window is blank and the parser version has no
blanks to strip. -/
theorem imports_accepted (printable : Char → Bool) (ops : List PreparedImport) (p : PreparedImport)
    {r : CorpusFileImportResult} {t : Corpus sha256} (h : importPrepared printable p
      (run (step printable) ops (emptyCorpus sha256)) = .ok (r,t)) :
    ∃ v ∈ t.versions, v.value.id = r.imported.versionId ∧
      ∀ (selection : ReleaseSelection) (configuration : ReleaseConfiguration)
        (qualityFlags : Option (List String)), selection.versionId = v.value.id →
        configuration.parserVersion = chunkParserVersion p →
        (Accepted p selection (auditBlockers selection configuration v qualityFlags t) ↔
          WindowsVisible p ∧ Unpadded p) := by
  have hs : Library {q | q = p ∨ q ∈ ops} (run (step printable) ops (emptyCorpus sha256)) :=
    library_history printable ops fun _ hq => Or.inr hq
  obtain ⟨ht,v,hv,hid,hfacts⟩ := import_facts hs (Or.inl rfl) h
  refine ⟨v,hv,hid,fun selection configuration qualityFlags hselection hconfiguration => ?_⟩
  exact facts_audit ht hv hfacts hselection hconfiguration qualityFlags

def toDraft (a : ParsedArticle) : LegalProvisionDraft :=
  ⟨String.ofList a.provisionNo,.article,a.structurePath.map String.ofList,none,a.text⟩

def parsedArticle (text : Text) : ParsedArticle :=
  ⟨"第一条".toList,[],text,0,text.length,[text]⟩

theorem parsedArticle_sized {text : Text} (h : (CanonicalJson.encode text).length < 256^8) :
    Sized (toDraft (parsedArticle text)) where
  provisionNo := by
    change (utf8 (String.ofList "第一条".toList)).length < _
    decide
  path := by simp [toDraft,parsedArticle]
  parts := by simp [toDraft,parsedArticle]
  title := by simp [toDraft]
  fullText := h

def sampleImport (text : Text) (h : (CanonicalJson.encode text).length < 256^8) :
    PreparedImport where
  call :=
    { command :=
        { title := "statute"
          issuingAuthority := "authority"
          jurisdiction := "CN"
          regionCode := none
          versionLabel := "v1"
          status := .current
          publishedOn := none
          effectiveOn := none
          repealedOn := none
          lawNumber := none
          sourceRef := "file:///statute.docx"
          datasetVersion := "dataset_v1"
          parserVersion := "corpus-docx-v5"
          provisions := [toDraft (parsedArticle text)]
          category := .law
          counted := by
            rw [List.length_singleton]
            decide
          sized := by
            intro d hd
            rw [List.mem_singleton.mp hd]
            exact parsedArticle_sized h }
      instrumentId := ⟨0,1,0⟩
      versionId := ⟨0,2,0⟩
      provisionId := fun n => ⟨0,3,BitVec.ofNat 62 n⟩ }
  articles := [⟨(parsedArticle text).paragraphs⟩]
  settings := ⟨4,4,1⟩
  chunkId := fun n => ⟨0,4,BitVec.ofNat 62 n⟩

def plainText : Text := "第一条甲乙丙丁".toList

def gapText : Text := "第一条        甲".toList

def plainImport : PreparedImport := sampleImport plainText (by decide)

def gapImport : PreparedImport := sampleImport gapText (by decide)

theorem ran_ok {α : Type} (x : CorpusTx sha256 α) (s : Corpus sha256)
    (h : ((x s).map Prod.fst).toOption.isSome = true) :
    ∃ a t, x s = .ok (a,t) := by
  cases hx : x s with
  | error e =>
    rw [hx] at h
    cases h
  | ok result => exact ⟨result.1,result.2,rfl⟩

theorem sample_windows {text : Text} (h : (CanonicalJson.encode text).length < 256^8) :
    WindowsVisible (sampleImport text h) ↔ ∀ window ∈ windowTexts ⟨4,4,1,by decide,by decide⟩
      "corpus-docx-v5/hierarchical-v2" text ⟨[text]⟩, hasText window = true := by
  have hsettings : validateSettings ⟨4,4,1⟩ = .ok ⟨4,4,1,by decide,by decide⟩ := rfl
  constructor
  · intro hall
    exact hall _ hsettings (text,⟨[text]⟩) List.mem_cons_self
  · intro hall sizes hsizes article harticle
    cases hsettings.symm.trans hsizes
    rw [List.mem_singleton.mp harticle]
    exact hall

theorem plain_accepted : ∃ (r : CorpusFileImportResult) (t : Corpus sampleSha256),
    importPrepared (fun _ => true) plainImport (emptyCorpus sampleSha256) = .ok (r,t) ∧
    ∃ v ∈ t.versions, v.value.id = r.imported.versionId ∧
      Accepted plainImport ⟨v.value.id,.articles,none⟩ (auditBlockers ⟨v.value.id,.articles,none⟩
        ⟨chunkParserVersion plainImport⟩ v none t) := by
  obtain ⟨r,t,h⟩ := ran_ok (importPrepared (fun _ => true) plainImport) (emptyCorpus sampleSha256)
    (by decide +kernel)
  obtain ⟨v,hv,hid,haudit⟩ := imports_accepted (fun _ => true) [] plainImport h
  refine ⟨r,t,h,v,hv,hid,(haudit ⟨v.value.id,.articles,none⟩ _ none rfl rfl).mpr ⟨?_,?_⟩⟩
  · exact (sample_windows _).mpr (by decide +kernel)
  · have hparser : stripString "corpus-docx-v5/hierarchical-v2" =
      "corpus-docx-v5/hierarchical-v2" := by
      decide
    exact hparser

/-- Two windows of a parsed article are blank; it is imported and then refused. -/
theorem gap_refused :
    ((parse (some "corpus-docx-v5") ⟨[⟨gapText,0⟩]⟩).map fun i => i.articles).toOption =
      some [parsedArticle gapText] ∧
    ∃ (r : CorpusFileImportResult) (t : Corpus sampleSha256),
      importPrepared (fun _ => true) gapImport (emptyCorpus sampleSha256) = .ok (r,t) ∧
      ∃ v ∈ t.versions, v.value.id = r.imported.versionId ∧
        ¬Accepted gapImport ⟨v.value.id,.articles,none⟩ (auditBlockers ⟨v.value.id,.articles,none⟩
          ⟨chunkParserVersion gapImport⟩ v none t) := by
  obtain ⟨r,t,h⟩ := ran_ok (importPrepared (fun _ => true) gapImport) (emptyCorpus sampleSha256)
    (by decide +kernel)
  have hs : Library {p | p = gapImport} (emptyCorpus sampleSha256) :=
    library_history (fun _ => true) [] (by simp)
  obtain ⟨ht,v,hv,hid,hfacts⟩ := import_facts hs rfl h
  refine ⟨by decide,r,t,h,v,hv,hid,fun haccepted => ?_⟩
  have hvisible := ((facts_audit ht hv hfacts rfl rfl none).mp haccepted).1
  have hwindows := (sample_windows _).mp hvisible "    ".toList (by decide +kernel)
  revert hwindows
  decide

end LawyerAgent.ReleaseAudits
