import LawyerAgent.ChunkPersistence

/-!
# Persisting a chunk graph and replaying its import

The rows that are written for a version are the derived chunks in some order.
Deriving them again and comparing succeeds exactly when the graph is
unambiguous, which positions make it.
-/

set_option autoImplicit false

namespace LawyerAgent.ChunkReplayRuns
open Relational Common PythonText LegalCorpus
open ChunkStructure ChunkWindows ChunkReplay
open ChunkGraphs DerivedGraphs ChunkPersistence
open LegalArticleHeading (Text)

variable {sha256 : List UInt8 → Digest} {printable : Char → Bool} {newId : ℕ → UUID7}

variable {c : DeriveCall} {sizes : Sizes} {located : List (LocatedLegalChunk sha256)}

theorem zip_provisions (h : validateCall c = .ok sizes) :
    ((callPairs c).map fun pair => pair.1.id).Perm (c.provisions.map ProvisionSource.id) := by
  have hlength := (validateCall_ok h).2.2
  have hzip : (c.provisions.zip c.articles).map (fun pair => pair.1.id) =
      c.provisions.map ProvisionSource.id := by
    have hfirst : (c.provisions.zip c.articles).map Prod.fst = c.provisions :=
      List.map_fst_zip (le_of_eq hlength)
    have hids := congrArg (List.map ProvisionSource.id) hfirst
    rw [List.map_map] at hids
    exact hids
  rw [← hzip]
  exact (List.perm_insertionSort earlierPair _).map _

theorem positions_siblings {d : Derivation} (h : exactPositions d.parserVersion = true)
    (pair : ArticlePair) : (articleOutline sha256 d pair).2.Nodup := by
  rw [articleOutline]
  rcases articlePieces_children d pair.1 pair.2 h with hnone | ⟨a,b,hchildren,-,-⟩
  · rw [hnone]
    exact List.nodup_nil
  · rw [List.Nodup,List.pairwise_map]
    refine hchildren.tiles.order.imp fun {x y} hxy hsame => ?_
    have hstart := congrArg ChunkSemantic.charStart hsame
    simp only [pieceSemantic,position,h,if_true,Option.some_inj] at hstart
    have hlt : x.2.2.1 < y.2.2.1 := hxy
    omega

theorem provisions_roots {d : Derivation} {pairs : List ArticlePair}
    (h : (pairs.map fun pair => pair.1.id).Nodup) :
    ((pairs.map (articleOutline sha256 d)).map (outlineTree printable)).Nodup := by
  rw [List.map_map]
  rw [List.Nodup,List.pairwise_map] at h ⊢
  refine h.imp fun {x y} hxy hsame => hxy ?_
  exact congrArg ChunkSemantic.provisionId (ChunkTree.node.inj hsame).1

theorem exact_unambiguous (hcall : validateCall c = .ok sizes)
    (houtline : outline (located.map LocatedLegalChunk.chunk) = (callPairs c).map (articleOutline
      sha256 (callDerivation c sizes)))
    (hexact : exactPositions c.parserVersion = true)
    (hprovisions : (c.provisions.map ProvisionSource.id).Nodup) :
    Unambiguous printable (located.map LocatedLegalChunk.chunk) := by
  constructor
  · rw [houtline]
    intro o ho
    obtain ⟨pair,-,rfl⟩ := List.mem_map.mp ho
    exact positions_siblings hexact pair
  · rw [houtline]
    exact provisions_roots ((zip_provisions hcall).nodup_iff.mpr hprovisions)

theorem replay_rows {newId' : ℕ → UUID7} {located located' : List (LocatedLegalChunk sha256)}
    {s t : Corpus sha256} {u : Unit}
    (h : deriveFrom (callDerivation c sizes) newId 0 (callPairs c) = .ok located)
    (h' : deriveFrom (callDerivation c sizes) newId' 0 (callPairs c) = .ok located')
    (hids : (idsOf (located'.map LocatedLegalChunk.chunk)).Nodup)
    (hstored : replaceChunksForVersion c.versionId (located.map LocatedLegalChunk.chunk) s = .ok
      (u,t)) :
    assertChunkGraphMatches printable (located'.map LocatedLegalChunk.chunk)
        (chunksForVersion t c.versionId) = .ok () ↔
      Unambiguous printable (located.map LocatedLegalChunk.chunk) := by
  obtain ⟨hrows,hnodup⟩ := replaceChunks_chunks hstored
  obtain ⟨hlevels,houtline⟩ := (derived_graph h).2 hnodup
  obtain ⟨hlevels',houtline'⟩ := (derived_graph h').2 hids
  have hsame := houtline'.trans houtline.symm
  refine (assert_ok hlevels' hlevels hsame hrows).trans ⟨fun hclear => ?_,fun hclear => ?_⟩
  · exact ⟨hsame ▸ hclear.siblings,hsame ▸ hclear.roots⟩
  · exact ⟨hsame ▸ hclear.siblings,hsame ▸ hclear.roots⟩

theorem storeChunkGraph_derived {s : Corpus sha256} {replayed : Bool}
    (h : deriveHierarchicalChunksWithLocations c newId = .ok located) :
    storeChunkGraph printable c newId replayed s = persistOrReplayChunkGraph printable c.versionId
      (located.map LocatedLegalChunk.chunk) replayed s := by
  have hchunks : deriveHierarchicalChunks c newId =
      .ok (located.map LocatedLegalChunk.chunk) := by
    rw [deriveHierarchicalChunks,h]
    rfl
  rw [storeChunkGraph,hchunks]
  rfl

theorem replayChunkGraph_outcome {versionId : UUID7} {chunks : List (LegalChunk sha256)}
    {t : Corpus sha256} : replayChunkGraph printable versionId chunks t =
      match assertChunkGraphMatches printable chunks (chunksForVersion t versionId) with
      | .ok _ => .ok ((chunksForVersion t versionId).length,t)
      | .error text => .error (.replayConflict text) := by
  unfold replayChunkGraph
  change (ofExcept CorpusFailure.replayConflict (assertChunkGraphMatches printable chunks
    (chunksForVersion t versionId)) >>= fun _ => pure (chunksForVersion t versionId).length) t = _
  cases assertChunkGraphMatches printable chunks (chunksForVersion t versionId) with
  | ok _ => rfl
  | error text => rfl

theorem persisted_replayed (printable : Char → Bool) {s : Corpus sha256}
    (hcall : validateCall c = .ok sizes)
    (h : deriveFrom (callDerivation c sizes) newId 0 (callPairs c) = .ok located)
    (hsource : Sourced c s) (hfresh : Fresh newId located.length c.versionId s) :
    ∃ t, storeChunkGraph printable c newId false s = .ok (located.length,t) ∧
      ∀ newId' : ℕ → UUID7, (∀ i < located.length, ∀ j < located.length, newId' i = newId' j → i =
        j) →
        (Unambiguous printable (located.map LocatedLegalChunk.chunk) →
          storeChunkGraph printable c newId' true t = .ok (located.length,t)) ∧
        (¬Unambiguous printable (located.map LocatedLegalChunk.chunk) →
          ∃ text, storeChunkGraph printable c newId' true t = .error (.replayConflict text)) := by
  obtain ⟨t,ht⟩ := replaceChunks_succeeds hsource hfresh h
  refine ⟨t,?_,fun newId' hdistinct => ?_⟩
  · rw [storeChunkGraph_derived (derive_ok.mpr ⟨sizes,hcall,h⟩),persistOrReplayChunkGraph,
      if_pos rfl,
      persistChunkGraph,bind_run ht,List.length_map]
    rfl
  · obtain ⟨located',h',hlength⟩ := deriveFrom_again h newId' 0
    have hids : (idsOf (located'.map LocatedLegalChunk.chunk)).Nodup := by
      rw [(derived_graph h').1,hlength]
      exact derived_nodup hdistinct
    have hmatch : assertChunkGraphMatches printable (located'.map LocatedLegalChunk.chunk)
        (chunksForVersion t c.versionId) = .ok () ↔
          Unambiguous printable (located.map LocatedLegalChunk.chunk) := replay_rows h h' hids ht
    have hrows := (replaceChunks_chunks ht).1.length_eq
    rw [List.length_map] at hrows
    rw [storeChunkGraph_derived (derive_ok.mpr ⟨sizes,hcall,h'⟩),persistOrReplayChunkGraph,
      if_neg Bool.noConfusion,replayChunkGraph_outcome]
    cases hassert : assertChunkGraphMatches printable (located'.map LocatedLegalChunk.chunk)
        (chunksForVersion t c.versionId) with
    | ok u =>
      rw [hrows]
      exact ⟨fun _ => rfl,fun hnot => absurd (hmatch.mp hassert) hnot⟩
    | error text =>
      refine ⟨fun hclear => ?_,fun _ => ⟨text,rfl⟩⟩
      rw [hmatch.mpr hclear] at hassert
      cases hassert

/-- Derived chunks are persisted. Their import is replayed without a change if
no two children of an article and no two articles say the same, and refused
otherwise. Exact positions tell the chunks of different provisions apart. -/
theorem import_replayed (printable : Char → Bool) {c : DeriveCall}
    {located : List (LocatedLegalChunk sha256)} {s : Corpus sha256}
    (h : deriveHierarchicalChunksWithLocations c newId = .ok located)
    (hsource : Sourced c s) (hfresh : Fresh newId located.length c.versionId s) :
    (∃ t, storeChunkGraph printable c newId false s = .ok (located.length,t) ∧
      ∀ newId' : ℕ → UUID7, (∀ i < located.length, ∀ j < located.length, newId' i = newId' j → i =
        j) →
        (Unambiguous printable (located.map LocatedLegalChunk.chunk) →
          storeChunkGraph printable c newId' true t = .ok (located.length,t)) ∧
        (¬Unambiguous printable (located.map LocatedLegalChunk.chunk) →
          ∃ text, storeChunkGraph printable c newId' true t = .error (.replayConflict text))) ∧
      (exactPositions c.parserVersion = true → (c.provisions.map ProvisionSource.id).Nodup →
        Unambiguous printable (located.map LocatedLegalChunk.chunk)) := by
  obtain ⟨sizes,hcall,hderived⟩ := derive_ok.mp h
  refine ⟨persisted_replayed printable hcall hderived hsource hfresh,fun hexact hprovisions => ?_⟩
  have hnodup : (idsOf (located.map LocatedLegalChunk.chunk)).Nodup := by
    rw [(derived_graph hderived).1]
    exact derived_nodup hfresh.distinct
  exact exact_unambiguous hcall ((derived_graph hderived).2 hnodup).2 hexact hprovisions

theorem validateCall_sizes (h : validateCall c = .ok sizes) :
    sizes.maxLeaf = c.settings.maxLeafChars.toNat ∧ sizes.window = c.settings.windowChars.toNat ∧
      sizes.overlap = c.settings.overlapChars.toNat := by
  have hsettings := (validateCall_ok h).1
  unfold validateSettings at hsettings
  split at hsettings
  · cases hsettings
  · cases hsettings
    exact ⟨rfl,rfl,rfl⟩

def sampleSha256 (_ : List UInt8) : Digest := 0

def sampleProvision (text : Text) : ProvisionFields where
  id := ⟨0,2,0⟩
  versionId := ⟨0,1,0⟩
  provisionNo := "1"
  level := .article
  structurePath := []
  title := none
  fullText := text
  contentHash := 0
  charStart := 0
  charEnd := text.length

def sampleVersion : LegalVersions.LegalVersionFields where
  id := ⟨0,1,0⟩
  instrumentId := ⟨0,0,0⟩
  versionLabel := "v1"
  status := .current
  publishedOn := none
  effectiveOn := none
  repealedOn := none

/-- One article, `abc` twice. -/
def repeatedCorpus : Corpus sampleSha256 where
  instruments := Table.empty
  versions := Table.single ⟨sampleVersion,by decide⟩ rfl
  provisions := Table.single ⟨sampleProvision "abcabc".toList,by decide⟩ (by decide)
  chunks := Table.empty

def repeatedCall (parserVersion : String) : DeriveCall where
  versionId := ⟨0,1,0⟩
  provisions := [⟨⟨0,2,0⟩,"abcabc".toList,0⟩]
  articles := [⟨["abc".toList,"abc".toList]⟩]
  parserVersion := parserVersion
  settings := ⟨4,4,1⟩

def sampleId (n : ℕ) : UUID7 := ⟨0,3,BitVec.ofNat 62 n⟩

theorem repeated_sourced (parserVersion : String) (h : (stripString parserVersion).length ≤ 64) :
    Sourced (repeatedCall parserVersion) repeatedCorpus where
  version := ⟨_,List.mem_singleton_self _,rfl⟩
  provisions := by
    intro p hp
    rw [List.mem_singleton.mp hp]
    exact ⟨_,List.mem_singleton_self _,rfl,rfl,rfl⟩
  parser := h

theorem repeated_fresh : Fresh sampleId 3 ⟨0,1,0⟩ repeatedCorpus where
  distinct := by decide
  unused := fun _ _ r hr => absurd hr (not_mem_empty r)

theorem repeated_derived (parserVersion : String)
    (h : ((deriveHierarchicalChunksWithLocations (repeatedCall parserVersion) sampleId :
      Except DeriveFailure (List (LocatedLegalChunk sampleSha256))).map List.length).toOption =
        some 3) :
    ∃ located : List (LocatedLegalChunk sampleSha256),
      deriveHierarchicalChunksWithLocations (repeatedCall parserVersion) sampleId = .ok located ∧
        located.length = 3 := by
  cases hderive : (deriveHierarchicalChunksWithLocations (repeatedCall parserVersion) sampleId :
      Except DeriveFailure (List (LocatedLegalChunk sampleSha256))) with
  | error e =>
    rw [hderive] at h
    cases h
  | ok located =>
    rw [hderive] at h
    exact ⟨located,rfl,Option.some_inj.mp h⟩

theorem repeated_same : ¬(articleOutline sampleSha256
    (callDerivation (repeatedCall "docx-zip-v1") ⟨4,4,1,by decide,by decide⟩)
      (⟨⟨0,2,0⟩,"abcabc".toList,0⟩,⟨["abc".toList,"abc".toList]⟩)).2.Nodup := by decide

/-- Exact positions tell the repeated paragraphs apart. -/
theorem repeated_exact : ∃ located : List (LocatedLegalChunk sampleSha256),
    deriveHierarchicalChunksWithLocations (repeatedCall "docx-zip-v1/hierarchical-v2") sampleId =
      .ok located ∧
    (∃ t, storeChunkGraph (fun _ => true) (repeatedCall "docx-zip-v1/hierarchical-v2") sampleId
      false
      repeatedCorpus = .ok (located.length,t)) ∧
    Unambiguous (fun _ => true) (located.map LocatedLegalChunk.chunk) := by
  obtain ⟨located,hderive,hlength⟩ :=
    repeated_derived "docx-zip-v1/hierarchical-v2" (by decide)
  have hfresh : Fresh sampleId located.length ⟨0,1,0⟩ repeatedCorpus := by
    rw [hlength]
    exact repeated_fresh
  obtain ⟨⟨t,ht,-⟩,hclear⟩ := import_replayed (fun _ => true) hderive
    (repeated_sourced _ (by decide)) hfresh
  exact ⟨located,hderive,⟨t,ht⟩,hclear (by decide) (by decide)⟩

/-- Without positions the repeated paragraphs are stored, and their replay is refused. -/
theorem repeated_refused : ∃ (located : List (LocatedLegalChunk sampleSha256))
    (t : Corpus sampleSha256) (text : String),
    deriveHierarchicalChunksWithLocations (repeatedCall "docx-zip-v1") sampleId = .ok located ∧
    Sourced (repeatedCall "docx-zip-v1") repeatedCorpus ∧
    Fresh sampleId located.length ⟨0,1,0⟩ repeatedCorpus ∧
    storeChunkGraph (fun _ => true) (repeatedCall "docx-zip-v1") sampleId false repeatedCorpus =
      .ok (located.length,t) ∧
    storeChunkGraph (fun _ => true) (repeatedCall "docx-zip-v1") sampleId true t =
      .error (.replayConflict text) := by
  obtain ⟨located,hderive,hlength⟩ := repeated_derived "docx-zip-v1" (by decide)
  have hfresh : Fresh sampleId located.length ⟨0,1,0⟩ repeatedCorpus := by
    rw [hlength]
    exact repeated_fresh
  have hsource := repeated_sourced "docx-zip-v1" (by decide)
  obtain ⟨sizes,hcall,hderived⟩ := derive_ok.mp hderive
  obtain ⟨t,ht,hreplay⟩ := persisted_replayed (fun _ => true) hcall hderived hsource hfresh
  have hnodup : (idsOf (located.map LocatedLegalChunk.chunk)).Nodup := by
    rw [(derived_graph hderived).1]
    exact derived_nodup hfresh.distinct
  have hambiguous : ¬Unambiguous (fun _ => true) (located.map LocatedLegalChunk.chunk) := by
    intro hclear
    have hsiblings := hclear.siblings
    rw [((derived_graph hderived).2 hnodup).2] at hsiblings
    have hsizes : sizes.maxLeaf = 4 ∧ sizes.window = 4 ∧ sizes.overlap = 1 := by
      exact validateCall_sizes hcall
    obtain ⟨maxLeaf,window,overlap,hoverlaps,hfits⟩ := sizes
    obtain ⟨rfl,rfl,rfl⟩ := hsizes
    have htwice := hsiblings _ (List.mem_map_of_mem (List.mem_singleton_self _))
    exact repeated_same htwice
  obtain ⟨text,htext⟩ := (hreplay sampleId hfresh.distinct).2 hambiguous
  exact ⟨located,t,text,hderive,hsource,hfresh,ht,htext⟩

end LawyerAgent.ChunkReplayRuns
