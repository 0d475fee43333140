import LawyerAgent.ReleaseQualityAgreement

/-!
# Imports of prepared files

One transaction imports a version and stores its chunks, or compares both with
what is stored. In every corpus that such imports build, the provisions and
chunks of a version are those of the import that wrote it.
-/

set_option autoImplicit false

namespace LawyerAgent.PreparedImports
open Relational Common LegalVersions
open LegalCorpus CorpusImport CorpusImportReplay
open ChunkStructure ChunkReplay ChunkGraphs
open ChunkPersistence
open ReleaseQualityAgreement
open LegalArticleHeading (Text)

variable (sha256 : List UInt8 → Digest) (printable : Char → Bool)

/-- A prepared file, with the settings of its chunks and the identifiers that
are drawn for them. The proof of its source is kept in a table of its own. -/
structure PreparedImport where
  call : ImportCall
  articles : List ArticleSource
  settings : Settings
  chunkId : ℕ → UUID7

structure CorpusFileImportResult where
  imported : LegalImportResult
  chunkCount : ℕ
  provisionCount : ℕ
deriving DecidableEq

def chunkParserVersion (p : PreparedImport) : String :=
  p.call.command.parserVersion++"/hierarchical-v2"

structure ProvisionSemantic where
  provisionNo : String
  level : String
  structurePath : List String
  title : Option String
  fullText : Text
  contentHash : Digest
  charStart : ℕ
  charEnd : ℕ
deriving DecidableEq

def expectedProvisions (parserVersion : String) : ℕ → List LegalProvisionDraft →
    List ProvisionSemantic
  | _, [] => []
  | cursor, d::ds =>
    let text := provisionText d.fullText parserVersion
    ⟨d.provisionNo,d.level.value,d.structurePath,d.title,text,contentSha256 sha256 text,cursor,
      cursor+text.length⟩::expectedProvisions parserVersion (cursor+text.length) ds

variable {sha256}

def observedProvision (p : Provision sha256) : ProvisionSemantic :=
  ⟨p.value.provisionNo,p.value.level.value,p.value.structurePath,p.value.title,p.value.fullText,
    p.value.contentHash,p.value.charStart,p.value.charEnd⟩

def assertProvisionsMatch (drafts : List LegalProvisionDraft) (actual : List (Provision sha256))
    (parserVersion : String) : Except String Unit :=
  Outcomes.require (expectedProvisions sha256 parserVersion 0 drafts = actual.map observedProvision)
    "replay provisions differ from existing version"

def checkReplay (p : PreparedImport) (replayed : Bool) (provisions : List (Provision sha256)) :
    CorpusTx sha256 Unit :=
  if replayed then ofExcept .replayConflict
    (assertProvisionsMatch p.call.command.provisions provisions p.call.command.parserVersion)
  else pure ()

def deriveCall (p : PreparedImport) (versionId : UUID7) (provisions : List (Provision sha256)) :
    DeriveCall where
  versionId := versionId
  provisions := provisions.map sourceOf
  articles := p.articles
  parserVersion := chunkParserVersion p
  settings := p.settings

def importPrepared (p : PreparedImport) : CorpusTx sha256 CorpusFileImportResult := do
  let imported ← importVersion p.call
  let provisions ← read fun s => provisionsForVersion s imported.versionId
  checkReplay p imported.replayed provisions
  let count ← storeChunkGraph printable (deriveCall p imported.versionId provisions) p.chunkId
    imported.replayed
  pure ⟨imported,count,provisions.length⟩

def step (p : PreparedImport) (s : Corpus sha256) : Corpus sha256 :=
  commit (importPrepared printable p) s

/-- A stored version, with its provisions and chunks, is what a prepared import
has written. -/
structure Stored (p : PreparedImport) (s : Corpus sha256) (v : LegalVersion) : Prop where
  version : ∃ instrumentId, v.value = newVersion sha256 p.call instrumentId
  provisions : DerivedFrom sha256 v.value.id p.call.command.parserVersion p.call.provisionId 0 0
    p.call.command.provisions (provisionsForVersion s v.value.id)
  chunks : ∃ sizes, ∃ located : List (LocatedLegalChunk sha256), validateCall
    (deriveCall p v.value.id (provisionsForVersion s v.value.id)) =
      .ok sizes ∧
    deriveFrom (callDerivation (deriveCall p v.value.id (provisionsForVersion s v.value.id)) sizes)
      p.chunkId 0 (callPairs (deriveCall p v.value.id (provisionsForVersion s v.value.id))) =
        .ok located ∧
    (idsOf (located.map LocatedLegalChunk.chunk)).Nodup ∧
    (s.chunks.rows.filter fun c => c.value.versionId == v.value.id).Perm
      (located.map LocatedLegalChunk.chunk)

structure Library (imports : Set PreparedImport) (s : Corpus sha256) : Prop where
  versions : ∀ v ∈ s.versions, ∃ p ∈ imports, Stored p s v
  provisions : ∀ q ∈ s.provisions, ∃ v ∈ s.versions, v.value.id = q.value.versionId
  chunks : ∀ c ∈ s.chunks, ∃ q ∈ s.provisions, q.value.id = c.value.provisionId

/-- A version of a fresh import and its provisions. -/
structure Fresh (call : ImportCall) (v : LegalVersion) (ps : List (Provision sha256))
    (s t : Corpus sha256) : Prop where
  version : ∃ instrumentId, v.value = newVersion sha256 call instrumentId
  derived : DerivedFrom sha256 call.versionId call.command.parserVersion call.provisionId 0 0
    call.command.provisions ps
  versions : t.versions.rows = v::s.versions.rows
  provisions : t.provisions.rows = ps++s.provisions.rows

theorem reuseInstrument_chunks {c : ImportCall} {found : Option LegalInstrument}
    {i : LegalInstrument}
    {s t : Corpus sha256} (h : reuseInstrument c found s = .ok (i,t)) : t.chunks = s.chunks := by
  cases found with
  | none =>
    simp only [reuseInstrument,createInstrument,bind_ok,ofExcept_ok,zoom_ok,pure_ok] at h
    obtain ⟨_,_,⟨-,rfl⟩,_,_,⟨_,-,rfl⟩,-,rfl⟩ := h
    rfl
  | some found =>
    cases hconflict : instrumentConflict found c.command with
    | some message =>
      simp only [reuseInstrument,hconflict] at h
      cases h
    | none =>
      simp only [reuseInstrument,hconflict,pure_ok] at h
      rw [h.2]

/-- The stored version that an import has compared its command with. -/
structure Compared (call : ImportCall) (v : LegalVersion) (s t : Corpus sha256) : Prop where
  version : v ∈ s.versions
  same : versionMatches sha256 v call.command
  versions : t.versions = s.versions
  provisions : t.provisions = s.provisions

theorem importVersion_outcome {call : ImportCall} {r : LegalImportResult} {s t : Corpus sha256}
    (h : importVersion call s = .ok (r,t)) : t.chunks = s.chunks ∧
      (r.replayed = true ∧ (∃ v, r.versionId = v.value.id ∧ Compared call v s t) ∨
        r.replayed = false ∧ r.versionId = call.versionId ∧ ∃ v ps, Fresh call v ps s t) := by
  simp only [importVersion,findInstrumentByIdentity,findVersion,bind_ok,ofExcept_ok,read_ok] at h
  obtain ⟨_,_,⟨-,rfl⟩,found,_,⟨-,rfl⟩,i,u,hreuse,existing,_,⟨hfound,rfl⟩,h⟩ := h
  have hchunks := reuseInstrument_chunks hreuse
  obtain ⟨hversions,hprovisions⟩ := reuseInstrument_ok hreuse
  cases existing with
  | some v =>
    rw [writeOrReplay,replayVersion] at h
    split at h
    · next hmatches =>
      obtain ⟨rfl,rfl⟩ := pure_ok.mp h
      have hv := (selectRow_some hfound).1
      rw [hversions] at hv
      exact ⟨hchunks,Or.inl ⟨rfl,v,rfl,hv,hmatches,hversions,hprovisions⟩⟩
    · cases h
  | none =>
    simp only [writeOrReplay,writeVersion,createVersion,bind_ok,ofExcept_ok,require_ok,zoom_ok,
      insertRow_ok,insertRows_ok,pure_ok] at h
    obtain ⟨ps,_,⟨hps,rfl⟩,v,_,⟨hv,rfl⟩,_,_,⟨_,_,⟨-,rfl⟩,versions,hrows,rfl⟩,_,_,
      ⟨provisions,hmore,rfl⟩,rfl,rfl⟩ := h
    refine ⟨hchunks,Or.inr ⟨rfl,rfl,v,ps,⟨i.value.id,postInit_ok hv⟩,newProvisions_ok hps,?_,?_⟩⟩
    · rw [← hversions]
      exact hrows
    · rw [← hprovisions]
      exact hmore

/-- The chunks of an import are stored or compared; nothing else changes. -/
structure ChunksKept (c : DeriveCall) (newId : ℕ → UUID7) (replayed : Bool) (sizes : Sizes)
    (located : List (LocatedLegalChunk sha256)) (s t : Corpus sha256) : Prop where
  call : validateCall c = .ok sizes
  derived : deriveFrom (callDerivation c sizes) newId 0 (callPairs c) = .ok located
  versions : t.versions = s.versions
  provisions : t.provisions = s.provisions
  compared : replayed = true → t.chunks = s.chunks ∧ assertChunkGraphMatches printable
    (located.map LocatedLegalChunk.chunk) (chunksForVersion s c.versionId) = .ok ()
  written : replayed = false →
    Replacement c.versionId (located.map LocatedLegalChunk.chunk) s t

theorem storeChunkGraph_ok {c : DeriveCall} {newId : ℕ → UUID7} {replayed : Bool} {n : ℕ}
    {s t : Corpus sha256} (h : storeChunkGraph printable c newId replayed s = .ok (n,t)) :
    ∃ sizes located, ChunksKept printable c newId replayed sizes located s t := by
  simp only [storeChunkGraph,bind_ok,ofExcept_ok] at h
  obtain ⟨chunks,_,⟨hderive,rfl⟩,h⟩ := h
  cases hlocated : deriveHierarchicalChunksWithLocations c newId with
  | error e =>
    rw [deriveHierarchicalChunks,hlocated] at hderive
    cases hderive
  | ok located =>
    rw [deriveHierarchicalChunks,hlocated] at hderive
    cases hderive
    obtain ⟨sizes,hcall,hderived⟩ := derive_ok.mp hlocated
    refine ⟨sizes,located,?_⟩
    cases replayed with
    | true =>
      simp only [persistOrReplayChunkGraph,replayChunkGraph,Bool.true_eq_false,if_false,bind_ok,
        read_ok,ofExcept_ok,pure_ok] at h
      obtain ⟨_,_,⟨rfl,rfl⟩,_,_,⟨hmatches,rfl⟩,-,rfl⟩ := h
      exact ⟨hcall,hderived,rfl,rfl,fun _ => ⟨rfl,hmatches⟩,Bool.noConfusion⟩
    | false =>
      simp only [persistOrReplayChunkGraph,persistChunkGraph,if_true,bind_ok,pure_ok] at h
      obtain ⟨_,_,hreplace,-,rfl⟩ := h
      obtain ⟨hversions,hprovisions⟩ := replaceChunks_kept hreplace
      exact ⟨hcall,hderived,hversions,hprovisions,Bool.noConfusion,fun _ =>
        replaceChunks_rows hreplace⟩

variable {imports : Set PreparedImport} {p : PreparedImport} {s t u : Corpus sha256}

theorem stored_same {v : LegalVersion} (hprovisions : t.provisions = s.provisions)
    (hchunks : t.chunks = s.chunks) (h : Stored p s v) : Stored p t v := by
  have hsame : provisionsForVersion t v.value.id = provisionsForVersion s v.value.id := by
    rw [provisionsForVersion,provisionsForVersion,hprovisions]
  constructor
  · exact h.version
  · rw [hsame]
    exact h.provisions
  · rw [hsame,hchunks]
    exact h.chunks

theorem library_same (hversions : t.versions = s.versions)
    (hprovisions : t.provisions = s.provisions)
    (hchunks : t.chunks = s.chunks) (h : Library imports s) : Library imports t := by
  constructor
  · intro v hv
    rw [hversions] at hv
    obtain ⟨p,hp,hstored⟩ := h.versions v hv
    exact ⟨p,hp,stored_same hprovisions hchunks hstored⟩
  · intro q hq
    rw [hprovisions] at hq
    rw [hversions]
    exact h.provisions q hq
  · intro c hc
    rw [hchunks] at hc
    rw [hprovisions]
    exact h.chunks c hc

section Written

variable {v : LegalVersion} {ps : List (Provision sha256)}

theorem fresh_id (h : Fresh p.call v ps s u) : v.value.id = p.call.versionId := by
  obtain ⟨_,hversion⟩ := h.version
  rw [hversion]
  rfl

theorem fresh_other (h : Fresh p.call v ps s u) {w : LegalVersion} (hw : w ∈ s.versions) :
    w.value.id ≠ p.call.versionId := by
  intro hsame
  exact (inserted_fresh h.versions hw).1 ((fresh_id h).trans hsame.symm)

theorem fresh_provision (h : Fresh p.call v ps s u) {q : Provision sha256} (hq : q ∈ ps) :
    q.value.versionId = p.call.versionId := by
  have hmem := List.mem_map_of_mem (f := Checked.value) hq
  rw [h.derived] at hmem
  exact (derived_version hmem).1

theorem fresh_provisions (hs : Library imports s) (h : Fresh p.call v ps s u) :
    provisionsForVersion u p.call.versionId = ps := by
  apply provisions_new h.provisions fun q hq => fresh_provision h hq
  · intro q hq hsame
    obtain ⟨w,hw,hversion⟩ := hs.provisions q hq
    exact fresh_other h hw (hversion.trans hsame)
  · exact (derivedFrom_starts h.derived).2.imp fun hlt => le_of_lt hlt

theorem stored_other (h : Fresh p.call v ps s u) (hchunks : u.chunks = s.chunks)
    {chunks : List (LegalChunk sha256)} (hprovisions : t.provisions = u.provisions)
    (hreplaced : Replacement p.call.versionId chunks u t) {w : LegalVersion} (hw : w ∈ s.versions)
    {q : PreparedImport} (hstored : Stored q s w) : Stored q t w := by
  have hother := fresh_other h hw
  have hsame : provisionsForVersion t w.value.id = provisionsForVersion s w.value.id := by
    apply provisions_kept
    · rw [hprovisions]
      exact h.provisions
    · intro r hr hversion
      exact hother (hversion.symm.trans (fresh_provision h hr))
  have hrows : (t.chunks.rows.filter fun c => c.value.versionId == w.value.id).Perm
      (s.chunks.rows.filter fun c => c.value.versionId == w.value.id) := by
    have hfilter := hreplaced.rows.filter fun c => c.value.versionId == w.value.id
    have hnone : (chunks.filter fun c => c.value.versionId == w.value.id) = [] := by
      apply List.filter_eq_nil_iff.mpr
      intro c hc hversion
      exact hother ((beq_iff_eq.mp hversion).symm.trans (hreplaced.version c hc))
    have hkept : ((u.chunks.rows.filter fun c => !(c.value.versionId == p.call.versionId)).filter
        fun c => c.value.versionId == w.value.id) =
          u.chunks.rows.filter fun c => c.value.versionId == w.value.id := by
      rw [List.filter_filter]
      apply List.filter_congr
      intro c _
      cases hversion : c.value.versionId == w.value.id with
      | false => rfl
      | true =>
        have hne : (c.value.versionId == p.call.versionId) = false := by
          rw [beq_iff_eq.mp hversion]
          exact beq_eq_false_iff_ne.mpr hother
        rw [hne]
        rfl
    rw [List.filter_append,hnone,hkept,List.nil_append,hchunks] at hfilter
    exact hfilter
  constructor
  · exact hstored.version
  · rw [hsame]
    exact hstored.provisions
  · rw [hsame]
    obtain ⟨sizes,located,hcall,hderived,hids,hperm⟩ := hstored.chunks
    exact ⟨sizes,located,hcall,hderived,hids,hrows.trans hperm⟩

theorem library_written (hs : Library imports s) (hp : p ∈ imports) (h : Fresh p.call v ps s u)
    (hchunks : u.chunks = s.chunks) {sizes : Sizes} {located : List (LocatedLegalChunk sha256)}
    (hcall : validateCall (deriveCall p p.call.versionId ps) = .ok sizes)
    (hderived : deriveFrom (callDerivation (deriveCall p p.call.versionId ps) sizes) p.chunkId 0
      (callPairs (deriveCall p p.call.versionId ps)) = .ok located)
    (hversions : t.versions = u.versions) (hprovisions : t.provisions = u.provisions)
    (hreplaced : Replacement p.call.versionId (located.map LocatedLegalChunk.chunk) u t) :
    Library imports t := by
  have hid := fresh_id h
  have hnew : provisionsForVersion t p.call.versionId = ps := by
    rw [← fresh_provisions hs h,provisionsForVersion,provisionsForVersion,hprovisions]
  have hgrown : ∀ q ∈ s.provisions, q ∈ t.provisions := by
    intro q hq
    rw [hprovisions,mem_rows,h.provisions]
    exact List.mem_append_right _ hq
  constructor
  · intro w hw
    rw [hversions] at hw
    rcases (inserted_mem h.versions).mp hw with rfl | hw
    · refine ⟨p,hp,h.version,?_,?_⟩
      · rw [hid,hnew]
        exact h.derived
      · rw [hid,hnew]
        exact ⟨sizes,located,hcall,hderived,hreplaced.ids,replacement_selected hreplaced⟩
    · obtain ⟨q,hq,hstored⟩ := hs.versions w hw
      exact ⟨q,hq,stored_other h hchunks hprovisions hreplaced hw hstored⟩
  · intro q hq
    rw [hprovisions,mem_rows,h.provisions] at hq
    rw [hversions]
    rcases List.mem_append.mp hq with hq | hq
    · exact ⟨v,(inserted_mem h.versions).mpr (Or.inl rfl),hid.trans (fresh_provision h hq).symm⟩
    · obtain ⟨w,hw,hversion⟩ := hs.provisions q hq
      exact ⟨w,(inserted_mem h.versions).mpr (Or.inr hw),hversion⟩
  · intro c hc
    rcases List.mem_append.mp (hreplaced.rows.mem_iff.mp hc) with hc | hc
    · rw [hprovisions]
      exact hreplaced.owned c hc
    · have hold : c ∈ s.chunks := by
        rw [← hchunks]
        exact (List.mem_filter.mp hc).1
      obtain ⟨q,hq,hsame⟩ := hs.chunks c hold
      exact ⟨q,hgrown q hq,hsame⟩

end Written

theorem checkReplay_ok {replayed : Bool} {provisions : List (Provision sha256)} {r : Unit}
    (h : checkReplay p replayed provisions s = .ok (r,t)) : t = s := by
  cases replayed with
  | true =>
    simp only [checkReplay,if_true,ofExcept_ok] at h
    exact h.2.symm
  | false =>
    simp only [checkReplay,Bool.false_eq_true,if_false,pure_ok] at h
    exact h.2.symm

theorem importPrepared_ok {r : CorpusFileImportResult}
    (h : importPrepared printable p s = .ok (r,t)) :
    ∃ u, importVersion p.call s = .ok (r.imported,u) ∧
      checkReplay p r.imported.replayed (provisionsForVersion u r.imported.versionId) u =
        .ok ((),u) ∧
      ∃ sizes located, ChunksKept printable (deriveCall p r.imported.versionId
        (provisionsForVersion u r.imported.versionId)) p.chunkId r.imported.replayed sizes
        (located : List (LocatedLegalChunk sha256)) u t := by
  simp only [importPrepared,bind_ok,read_ok,pure_ok] at h
  obtain ⟨imported,u,himport,_,_,⟨rfl,rfl⟩,_,w,hcheck,n,x,hstore,rfl,rfl⟩ := h
  have hsame := checkReplay_ok hcheck
  rw [hsame] at hstore hcheck
  exact ⟨u,himport,hcheck,storeChunkGraph_ok printable hstore⟩

theorem library_kept {r : CorpusFileImportResult} (hp : p ∈ imports) (hs : Library imports s)
    (h : importPrepared printable p s = .ok (r,t)) : Library imports t := by
  obtain ⟨u,himport,-,sizes,located,hkept⟩ := importPrepared_ok printable h
  obtain ⟨hchunks,⟨hflag,v,-,hcompared⟩ | ⟨hflag,hid,v,ps,hfresh⟩⟩ := importVersion_outcome himport
  · exact library_same (hkept.versions.trans hcompared.versions)
      (hkept.provisions.trans hcompared.provisions) ((hkept.compared hflag).1.trans hchunks) hs
  · have hcall := hkept.call
    have hderived := hkept.derived
    have hreplaced := hkept.written hflag
    rw [hid,fresh_provisions hs hfresh] at hcall hderived hreplaced
    exact library_written hs hp hfresh hchunks hcall hderived hkept.versions hkept.provisions
      hreplaced

theorem library_step (hp : p ∈ imports) (hs : Library imports s) :
    Library imports (step printable p s) := by
  apply commit_of hs
  intro r t h
  exact library_kept printable hp hs h

theorem library_run (ops : List PreparedImport) (s : Corpus sha256) (hops : ∀ p ∈ ops, p ∈ imports)
    (hs : Library imports s) : Library imports (run (step printable) ops s) := by
  induction ops generalizing s with
  | nil => exact hs
  | cons p ops ih =>
    apply ih
    · exact fun q hq => hops q (List.mem_cons_of_mem _ hq)
    · exact library_step printable (hops p List.mem_cons_self) hs

theorem library_history (ops : List PreparedImport) (hops : ∀ p ∈ ops, p ∈ imports) :
    Library imports (run (step printable) ops (emptyCorpus sha256)) := by
  apply library_run printable ops _ hops
  constructor
  · exact fun v hv => absurd hv (not_mem_empty v)
  · exact fun q hq => absurd hq (not_mem_empty q)
  · exact fun c hc => absurd hc (not_mem_empty c)

end LawyerAgent.PreparedImports
