import LawyerAgent.CorpusPublish
import LawyerAgent.DatasetFacts
import LawyerAgent.Outcomes.Effect

/-!
# Building the index of a set of versions

Every version is read twice: once before anything is written, and once when its
leaves are embedded and appended batch by batch. The digests of the two reads
have to agree. They are taken over the chunks sorted by id, so they do not tell
in which order the source returned them.
-/

set_option autoImplicit false

namespace LawyerAgent.DatasetSetPublish
open Outcomes Common CanonicalJson
open LegalCorpus
open ChunkGraphs IndexLeaves
open DatasetFacts
open CorpusPublish (DatasetSnapshot)
open PythonText (strip)
open JsonReader (encode_inj)

inductive BuildFailure where
  | publishError (message : String)
  | leafFailure (failure : LeafFailure)
  | overflowError
  | valueError (message : String)
  | portError (name : String)

/-- `chunk_document` with the vector of its content. -/
structure IndexDocument (V : Type) where
  chunkId : UUID7
  provisionId : UUID7
  versionId : UUID7
  content : List Char
  parserVersion : String
  contentVector : V

/-- The part of a document that comes from its chunk. -/
structure DocumentSource where
  chunkId : UUID7
  provisionId : UUID7
  versionId : UUID7
  content : List Char
  parserVersion : String
deriving DecidableEq

structure NavigationBuildResult where
  indexName : String
  indexedDocuments : ℕ

structure Request where
  versionIds : List UUID7
  indexName : String
  aliasName : String
  modelRef : String
  dimension : ℤ
  batchSize : ℤ

/-- What the calls made so far were told; a failed call counts as well. -/
structure Progress (V : Type) where
  reads : ℕ
  embeds : ℕ
  appends : ℕ
  ensured : Bool
  received : List (IndexDocument V)

variable {sha256 : List UInt8 → Digest} {V : Type}

def sourceOf (chunk : LegalChunk sha256) : DocumentSource :=
  let c := chunk.value
  ⟨c.id,c.provisionId,c.versionId,c.content,c.parserVersion.getD ""⟩

def chunkDocument (chunk : LegalChunk sha256) (vector : V) : IndexDocument V :=
  let c := chunk.value
  ⟨c.id,c.provisionId,c.versionId,c.content,c.parserVersion.getD "",vector⟩

def IndexDocument.source (d : IndexDocument V) : DocumentSource :=
  ⟨d.chunkId,d.provisionId,d.versionId,d.content,d.parserVersion⟩

/-- The answers of the ports; those that may change depend on the number of the call. -/
structure Ports (sha256 : List UInt8 → Digest) (V : Type) where
  chunksForVersion : ℕ → UUID7 → Except String (List (LegalChunk sha256))
  embed : ℕ → String → List (List Char) → ℤ → Except String (List V)
  ensureIndex : String → ℤ → Except String Unit
  appendDocuments : ℕ → String → List (IndexDocument V) → String → Except String Unit
  countDocuments : String → Except String (Option ℤ)
  buildNavigation : List UUID7 → String → String → Except String NavigationBuildResult
  newUuid7 : UUID7

structure Service (sha256 : List UInt8 → Digest) (V : Type) extends Ports sha256 V where
  parserVersion : String
  parsed : strip parserVersion.toList ≠ [] ∧ parserVersion.length ≤ 64

abbrev Build (V α : Type) : Type := Effect BuildFailure (Progress V) α

def fromPort {α : Type} : Except String α → Except BuildFailure α
  | .ok a => .ok a
  | .error name => .error (.portError name)

def fromLeaves {α : Type} : Except LeafFailure α → Except BuildFailure α
  | .ok a => .ok a
  | .error failure => .error (.leafFailure failure)

def nameStart (c : Char) : Bool := ('a' ≤ c && c ≤ 'z') || ('0' ≤ c && c ≤ '9')

def nameRest (c : Char) : Bool := nameStart c || c == '_' || c == '.' || c == '-'

/-- `_NAME` -/
def isName : List Char → Bool
  | [] => false
  | c::cs => nameStart c && cs.all nameRest && decide (cs.length ≤ 254)

def requireName (value field : String) : Except BuildFailure Unit :=
  require (isName value.toList = true)
    (.publishError (field++" must be 1-255 chars of [a-z0-9_.-] starting alphanumeric"))

def maxEmbedBatchSize : ℤ := 256

def checkArguments (r : Request) : Except BuildFailure Unit := do
  requireName r.indexName "index_name"
  requireName r.aliasName "alias"
  require (r.aliasName.length ≤ 64 ∧ r.indexName ≠ r.aliasName)
    (.publishError "alias must fit 64 chars and differ from index")
  require (r.versionIds ≠ [] ∧ r.versionIds.Nodup)
    (.publishError "version_ids must be a non-empty tuple of UUIDs")
  require (0 < r.dimension) (.publishError "dimension must be a positive integer")
  require (1 ≤ r.batchSize ∧ r.batchSize ≤ maxEmbedBatchSize)
    (.publishError "batch_size must be an integer from 1 to 256")
  require (strip r.modelRef.toList ≠ []) (.publishError "model_ref must be non-empty text")

/-- The leaves of a version and the digest of all its chunks. -/
structure Selection (sha256 : List UInt8 → Digest) where
  leaves : List (LegalChunk sha256)
  digest : List Char

/-- What `_selected_version` makes of the chunks that were returned. -/
def selectChunks (versionId : UUID7) (chunks : List (LegalChunk sha256)) :
    Except BuildFailure (Selection sha256) := do
  require (∀ c ∈ chunks, c.value.versionId = versionId)
    (.publishError "chunk version does not match requested scope")
  require (chunks ≠ []) (.publishError
    ("version "++idString versionId++" has no chunks; refusing a partial set"))
  let leaves ← fromLeaves (selectIndexLeaves chunks)
  require (Prefixed chunks) .overflowError
  return ⟨leaves,hexText (sha256 (versionStream chunks))⟩

def readVersion (ports : Ports sha256 V) (call : ℕ) (versionId : UUID7) :
    Except BuildFailure (Selection sha256) := do
  let chunks ← fromPort (ports.chunksForVersion call versionId)
  selectChunks versionId chunks

def selectedVersion (ports : Ports sha256 V) (versionId : UUID7) : Build V (Selection sha256) :=
  fun p => (readVersion ports p.reads versionId,{ p with reads := p.reads+1 })

abbrev Expected : Type := List (UUID7 × List Char × ℕ)

def preflight (ports : Ports sha256 V) : List UUID7 → Build V Expected
  | [] => pure []
  | versionId::versionIds => do
    let selection ← selectedVersion ports versionId
    let expected ← preflight ports versionIds
    pure ((versionId,selection.digest,selection.leaves.length)::expected)

/-- The slices that `range(0, len(items), size)` starts. -/
def batches {α : Type} (size : ℕ) (items : List α) : List (List α) :=
  (List.range' 0 ((items.length+size-1)/size) size).map fun start => (items.drop start).take size

/-- `zip(chunks, vectors, strict=True)` -/
def zipDocuments : List (LegalChunk sha256) → List V → Except BuildFailure (List (IndexDocument V))
  | [], [] => .ok []
  | [], _::_ => .error (.valueError "zip() argument 2 is longer than argument 1")
  | _::_, [] => .error (.valueError "zip() argument 2 is shorter than argument 1")
  | chunk::chunks, vector::vectors => do
    let documents ← zipDocuments chunks vectors
    return chunkDocument chunk vector::documents

def embedBatch (ports : Ports sha256 V) (r : Request) (chunks : List (LegalChunk sha256)) :
    Build V (List (IndexDocument V)) :=
  fun p => (do
    let vectors ← fromPort (ports.embed p.embeds r.modelRef
      (chunks.map fun c => c.value.content) r.dimension)
    zipDocuments chunks vectors,{ p with embeds := p.embeds+1 })

def appendDocuments (service : Service sha256 V) (r : Request)
    (documents : List (IndexDocument V)) : Build V Unit :=
  fun p => (fromPort (service.appendDocuments p.appends r.indexName documents
    service.parserVersion),
    { p with appends := p.appends+1, received := p.received++documents })

def indexBatches (service : Service sha256 V) (r : Request) :
    List (List (LegalChunk sha256)) → Build V ℕ
  | [] => pure 0
  | batch::rest => do
    let documents ← embedBatch service.toPorts r batch
    appendDocuments service r documents
    let indexed ← indexBatches service r rest
    pure (documents.length+indexed)

/-- A version that the preflight has not seen has no expected digest: `KeyError` is
not possible here and counts as a change. -/
def indexVersions (service : Service sha256 V) (r : Request) (expected : Expected) :
    List UUID7 → Build V ℕ
  | [] => pure 0
  | versionId::versionIds => do
    let selection ← selectedVersion service.toPorts versionId
    Effect.require (expected.lookup versionId = some (selection.digest,selection.leaves.length))
      (.publishError "source changed after dataset preflight")
    let indexed ← indexBatches service r (batches r.batchSize.toNat selection.leaves)
    let others ← indexVersions service r expected versionIds
    pure (indexed+others)

def ensureIndex (ports : Ports sha256 V) (r : Request) : Build V Unit :=
  fun p => (fromPort (ports.ensureIndex r.indexName r.dimension),{ p with ensured := true })

def versionTexts (r : Request) : Json :=
  .array (r.versionIds.map fun v => .string (idString v))

def candidateSnapshot (service : Service sha256 V) (r : Request) (indexedDocuments : ℕ)
    (navigation : NavigationBuildResult) : Except BuildFailure DatasetSnapshot :=
  if h : strip r.aliasName.toList ≠ [] then
    .ok {
      id := service.newUuid7
      datasetName := r.aliasName
      parserVersion := service.parserVersion
      state := .pending
      manifest := [("index_name",.string r.indexName),("alias",.string r.aliasName),
        ("version_ids",versionTexts r),("version_count",.number r.versionIds.length),
        ("model_ref",.string r.modelRef),("dimension",.number r.dimension),
        ("indexed_documents",.number indexedDocuments),
        ("navigation_index",.string navigation.indexName),
        ("navigation_schema_version",.number 1),
        ("navigation_documents",.number navigation.indexedDocuments)]
      qualityMetrics := [("indexed_documents",.number indexedDocuments),
        ("navigation_documents",.number navigation.indexedDocuments),
        ("dimension",.number r.dimension)]
      releasedAt := none
      named := h
      parsed := service.parsed.1 }
  else .error (.valueError "dataset name must be non-empty text")

def totalLeaves (expected : Expected) : ℕ := (expected.map fun e => e.2.2).sum

def publishExpected (service : Service sha256 V) (r : Request) (expected : Expected) :
    Build V DatasetSnapshot := do
  ensureIndex service.toPorts r
  let indexed ← indexVersions service r expected r.versionIds
  let counted ← Effect.settle (fromPort (service.countDocuments r.indexName))
  Effect.require (counted.any (fun n : ℤ => decide (0 < n ∧ n = indexed)) = true ∧
      indexed = totalLeaves expected)
    (.publishError "dataset document count verification failed")
  let navigation ← Effect.settle (fromPort
    (service.buildNavigation r.versionIds r.indexName service.parserVersion))
  Effect.settle (candidateSnapshot service r indexed navigation)

def buildSet (service : Service sha256 V) (r : Request) : Build V DatasetSnapshot := do
  Effect.settle (checkArguments r)
  let expected ← preflight service.toPorts r.versionIds
  publishExpected service r expected

def start : Progress V := ⟨0,0,0,false,[]⟩

variable {α : Type} {selections : List (Selection sha256)} {versionIds : List UUID7}
  {versionId : UUID7} {p q : Progress V} {selection : Selection sha256} {expected : Expected}
  {chunks : List (LegalChunk sha256)} {documents : List (IndexDocument V)}

theorem slices_flatten (size count from_ : ℕ) (items : List α) :
    ((List.range' from_ count size).map fun k => (items.drop k).take size).flatten =
      (items.drop from_).take (count*size) := by
  induction count generalizing from_ with
  | zero => simp
  | succ count ih =>
    rw [List.range'_succ,List.map_cons,List.flatten_cons,ih,Nat.succ_mul,
      Nat.add_comm (count*size) size,List.take_add,List.drop_drop]

theorem batches_flatten {size : ℕ} (hsize : 0 < size) (items : List α) :
    (batches size items).flatten = items := by
  rw [batches,slices_flatten,List.drop_zero,List.take_of_length_le]
  have hdivide := Nat.div_add_mod (items.length+size-1) size
  have hmod := Nat.mod_lt (items.length+size-1) hsize
  rw [Nat.mul_comm] at hdivide
  omega

def ReadFrom (ports : Ports sha256 V) : ℕ → List UUID7 → List (Selection sha256) → Prop
  | _, [], [] => True
  | call, versionId::versionIds, selection::selections =>
    readVersion ports call versionId = .ok selection ∧
      ReadFrom ports (call+1) versionIds selections
  | _, _, _ => False

variable {ports : Ports sha256 V}

theorem readFrom_length {call : ℕ} (h : ReadFrom ports call versionIds selections) :
    selections.length = versionIds.length := by
  induction versionIds generalizing call selections with
  | nil =>
    cases selections with
    | nil => rfl
    | cons _ _ => cases h
  | cons v vs ih =>
    cases selections with
    | nil => cases h
    | cons s ss => exact congrArg Nat.succ (ih h.2)

theorem readFrom_get {call : ℕ} (h : ReadFrom ports call versionIds selections) {i : ℕ}
    (hi : versionIds[i]? = some versionId) :
    ∃ selection, selections[i]? = some selection ∧
      readVersion ports (call+i) versionId = .ok selection := by
  induction versionIds generalizing call selections i with
  | nil => cases hi
  | cons v vs ih =>
    cases selections with
    | nil => cases h
    | cons s ss =>
      cases i with
      | zero =>
        cases hi
        exact ⟨s,rfl,h.1⟩
      | succ i =>
        have hrest := ih h.2 (i := i) hi
        rw [Nat.add_assoc,Nat.add_comm 1 i] at hrest
        exact hrest

theorem selectedVersion_done : selectedVersion ports versionId p = (.ok selection,q) ↔
      readVersion ports p.reads versionId = .ok selection ∧ q = { p with reads := p.reads+1 } := by
  rw [selectedVersion,Prod.mk.injEq]
  exact and_congr_right fun _ => eq_comm

def expectedOf (versionIds : List UUID7) (selections : List (Selection sha256)) : Expected :=
  List.zipWith (fun v s => (v,s.digest,s.leaves.length)) versionIds selections

theorem preflight_done (h : preflight ports versionIds p = (.ok expected,q)) :
    ∃ selections, ReadFrom ports p.reads versionIds selections ∧
      expected = expectedOf versionIds selections ∧
      q = { p with reads := p.reads+versionIds.length } := by
  induction versionIds generalizing expected p q with
  | nil =>
    obtain ⟨rfl,rfl⟩ := Effect.pure_done.mp h
    exact ⟨[],trivial,rfl,rfl⟩
  | cons v vs ih =>
    obtain ⟨selection,p',hread,h⟩ := Effect.bind_done.mp h
    obtain ⟨others,p'',hrest,h⟩ := Effect.bind_done.mp h
    obtain ⟨rfl,rfl⟩ := Effect.pure_done.mp h
    obtain ⟨hselection,rfl⟩ := selectedVersion_done.mp hread
    obtain ⟨selections,hselections,rfl,rfl⟩ := ih hrest
    refine ⟨selection::selections,⟨hselection,hselections⟩,rfl,?_⟩
    rw [List.length_cons,Nat.add_comm vs.length 1,← Nat.add_assoc]

theorem expected_lookup (honce : versionIds.Nodup) {i : ℕ} (hi : versionIds[i]? = some versionId)
    (hselection : selections[i]? = some selection) :
    (expectedOf versionIds selections).lookup versionId =
      some (selection.digest,selection.leaves.length) := by
  induction versionIds generalizing selections i with
  | nil => cases hi
  | cons v vs ih =>
    cases selections with
    | nil => cases hselection
    | cons s ss =>
      cases i with
      | zero =>
        cases hi
        cases hselection
        exact List.lookup_cons_self
      | succ i =>
        have hne : versionId ≠ v := by
          rintro rfl
          exact (List.nodup_cons.mp honce).1 (List.mem_of_getElem? hi)
        have hbeq : (versionId == v) = false := beq_eq_false_iff_ne.mpr hne
        have hrest := ih (List.nodup_cons.mp honce).2 (i := i) hi hselection
        change ((v,s.digest,s.leaves.length)::expectedOf vs ss).lookup versionId = _
        rw [List.lookup_cons,hbeq]
        exact hrest

variable {service : Service sha256 V} {r : Request}

theorem zipDocuments_source {vectors : List V} (h : zipDocuments chunks vectors = .ok documents) :
    documents.map IndexDocument.source = chunks.map sourceOf := by
  induction chunks generalizing vectors documents with
  | nil =>
    cases vectors with
    | nil =>
      cases h
      rfl
    | cons _ _ => cases h
  | cons c cs ih =>
    cases vectors with
    | nil => cases h
    | cons v vs =>
      obtain ⟨rest,hrest,h⟩ := bind_ok.mp h
      cases h
      exact congrArg (sourceOf c::·) (ih hrest)

theorem embedBatch_done (h : embedBatch service.toPorts r chunks p = (.ok documents,q)) :
    documents.map IndexDocument.source = chunks.map sourceOf ∧
      q = { p with embeds := p.embeds+1 } := by
  obtain ⟨hdocuments,hq⟩ := Prod.mk.inj h
  obtain ⟨vectors,-,hzip⟩ := bind_ok.mp hdocuments
  exact ⟨zipDocuments_source hzip,hq.symm⟩

theorem appendDocuments_done {u : Unit} (h : appendDocuments service r documents p = (.ok u,q)) :
    q = { p with appends := p.appends+1, received := p.received++documents } :=
  (Prod.mk.inj h).2.symm

theorem indexBatches_done {parts : List (List (LegalChunk sha256))} {indexed : ℕ}
    (h : indexBatches service r parts p = (.ok indexed,q)) :
    ∃ documents, q.received = p.received++documents ∧ q.reads = p.reads ∧
      documents.map IndexDocument.source = parts.flatten.map sourceOf := by
  induction parts generalizing indexed p q with
  | nil =>
    obtain ⟨rfl,rfl⟩ := Effect.pure_done.mp h
    exact ⟨[],(List.append_nil _).symm,rfl,rfl⟩
  | cons part parts ih =>
    obtain ⟨first,p',hembed,h⟩ := Effect.bind_done.mp h
    obtain ⟨_,p'',happend,h⟩ := Effect.bind_done.mp h
    obtain ⟨others,q',hrest,h⟩ := Effect.bind_done.mp h
    obtain ⟨rfl,rfl⟩ := Effect.pure_done.mp h
    obtain ⟨hfirst,rfl⟩ := embedBatch_done hembed
    obtain rfl := appendDocuments_done happend
    obtain ⟨rest,hreceived,hreads,hsource⟩ := ih hrest
    refine ⟨first++rest,?_,hreads,?_⟩
    · rw [hreceived,List.append_assoc]
    · rw [List.map_append,hfirst,hsource,List.flatten_cons,List.map_append]

theorem indexVersions_done (hbatch : 0 < r.batchSize.toNat) {indexed : ℕ}
    (h : indexVersions service r expected versionIds p = (.ok indexed,q)) :
    ∃ selections : List (Selection sha256), ReadFrom service.toPorts p.reads versionIds selections ∧
      (∀ (i : ℕ) (versionId : UUID7) (selection : Selection sha256),
        versionIds[i]? = some versionId → selections[i]? = some selection →
        expected.lookup versionId = some (selection.digest,selection.leaves.length)) ∧
      ∃ documents, q.received = p.received++documents ∧
        documents.map IndexDocument.source =
          (selections.flatMap Selection.leaves).map sourceOf := by
  induction versionIds generalizing indexed p q with
  | nil =>
    obtain ⟨rfl,rfl⟩ := Effect.pure_done.mp h
    exact ⟨[],trivial,nofun,[],(List.append_nil _).symm,rfl⟩
  | cons v vs ih =>
    obtain ⟨selection,p',hread,h⟩ := Effect.bind_done.mp h
    obtain ⟨_,p₁,hrequire,h⟩ := Effect.bind_done.mp h
    obtain ⟨first,p₂,hfirst,h⟩ := Effect.bind_done.mp h
    obtain ⟨others,q',hrest,h⟩ := Effect.bind_done.mp h
    obtain ⟨rfl,rfl⟩ := Effect.pure_done.mp h
    obtain ⟨hselection,rfl⟩ := selectedVersion_done.mp hread
    obtain ⟨hexpected,rfl⟩ := Effect.require_done.mp hrequire
    obtain ⟨documents,hreceived,hreads,hsource⟩ := indexBatches_done hfirst
    obtain ⟨selections,hselections,hlookup,rest,hmore,hrestsource⟩ := ih hrest
    rw [hreads] at hselections
    refine ⟨selection::selections,⟨hselection,hselections⟩,?_,documents++rest,?_,?_⟩
    · intro i versionId s hi hs
      cases i with
      | zero =>
        cases hi
        cases hs
        exact hexpected
      | succ i => exact hlookup i versionId s hi hs
    · rw [hmore,hreceived,List.append_assoc]
    · rw [batches_flatten hbatch] at hsource
      rw [List.map_append,hsource,hrestsource,List.flatMap_cons,List.map_append]

def hashInputs (ports : Ports sha256 V) (r : Request) : Set (List UInt8) :=
  {bytes | ∃ call < 2*r.versionIds.length, ∃ versionId ∈ r.versionIds, ∃ chunks,
    ports.chunksForVersion call versionId = .ok chunks ∧
      (bytes = versionStream chunks ∨ ∃ c ∈ chunks, bytes = encode c.value.content)}

/-- A version whose leaves of the second read are those of the first one, each once. -/
def VersionIndexed (ports : Ports sha256 V) (first second : ℕ) (versionId : UUID7)
    (indexed : List (LegalChunk sha256)) : Prop :=
  ∃ chunks again, ports.chunksForVersion first versionId = .ok chunks ∧
    ports.chunksForVersion second versionId = .ok again ∧
    (∀ c ∈ chunks, c.value.versionId = versionId) ∧ indexed = again.filter (isLeaf again) ∧
    indexed.Perm (chunks.filter (isLeaf chunks)) ∧ (idsOf indexed).Nodup

structure Selected (versionId : UUID7) (chunks : List (LegalChunk sha256))
    (selection : Selection sha256) : Prop where
  version : ∀ c ∈ chunks, c.value.versionId = versionId
  leaves : selection.leaves = chunks.filter (isLeaf chunks)
  once : (idsOf chunks).Nodup
  prefixed : Prefixed chunks
  digest : selection.digest = hexText (sha256 (versionStream chunks))

theorem fromPort_ok {x : Except String α} {a : α} : fromPort x = .ok a ↔ x = .ok a := by
  cases x with
  | ok b => simp [fromPort]
  | error _ => simp [fromPort]

theorem fromLeaves_ok {x : Except LeafFailure α} {a : α} :
    fromLeaves x = .ok a ↔ x = .ok a := by
  cases x with
  | ok b => simp [fromLeaves]
  | error _ => simp [fromLeaves]

theorem readVersion_ok {call : ℕ} (h : readVersion ports call versionId = .ok selection) :
    ∃ chunks, ports.chunksForVersion call versionId = .ok chunks ∧
      Selected versionId chunks selection := by
  obtain ⟨chunks,hchunks,h⟩ := bind_ok.mp h
  obtain ⟨_,hversion,h⟩ := bind_ok.mp h
  obtain ⟨_,-,h⟩ := bind_ok.mp h
  obtain ⟨leaves,hleaves,h⟩ := bind_ok.mp h
  obtain ⟨_,hprefixed,h⟩ := bind_ok.mp h
  have hversion := require_ok.mp hversion
  have hforest := selectIndexLeaves_ok hversion (fromLeaves_ok.mp hleaves)
  have hselection : ⟨leaves,hexText (sha256 (versionStream chunks))⟩ = selection := ok_inj.mp h
  refine ⟨chunks,fromPort_ok.mp hchunks,hversion,?_,hforest.1.once,require_ok.mp hprefixed,?_⟩
  · rw [← hselection]
    exact hforest.2
  · rw [← hselection]

theorem isLeaf_perm {chunks others : List (LegalChunk sha256)} (h : chunks.Perm others) :
    isLeaf chunks = isLeaf others := by
  funext c
  rw [isLeaf,isLeaf,decide_eq_decide]
  exact ⟨fun hall d hd => hall d (h.mem_iff.mpr hd),fun hall d hd => hall d (h.mem_iff.mp hd)⟩

theorem selected_perm {chunks again : List (LegalChunk sha256)} {first second : Selection sha256}
    (hfirst : Selected versionId chunks first) (hsecond : Selected versionId again second)
    (hdigest : second.digest = first.digest) {inputs : Set (List UInt8)}
    (hhash : Set.InjOn sha256 inputs)
    (hchunks : versionStream chunks ∈ inputs ∧ ∀ c ∈ chunks, encode c.value.content ∈ inputs)
    (hagain : versionStream again ∈ inputs ∧ ∀ c ∈ again, encode c.value.content ∈ inputs) :
    again.Perm chunks := by
  rw [hfirst.digest,hsecond.digest] at hdigest
  have hstream := hhash hagain.1 hchunks.1 (hexText_inj hdigest)
  apply versionStream_perm hsecond.prefixed hfirst.prefixed _ hstream
  intro a ha b hb hcontent
  exact encode_inj (hhash (hagain.2 a ha) (hchunks.2 b hb) hcontent)

theorem versionIndexed {inputs : Set (List UInt8)} (hhash : Set.InjOn sha256 inputs)
    {call later : ℕ} {first second : Selection sha256}
    (hinputs : ∀ n, n = call ∨ n = later → ∀ chunks, ports.chunksForVersion n versionId = .ok
      chunks → versionStream chunks ∈ inputs ∧ ∀ c ∈ chunks, encode c.value.content ∈ inputs)
    (hfirst : readVersion ports call versionId = .ok first)
    (hsecond : readVersion ports later versionId = .ok second)
    (hdigest : second.digest = first.digest) :
    VersionIndexed ports call later versionId second.leaves := by
  obtain ⟨chunks,hchunks,hselected⟩ := readVersion_ok hfirst
  obtain ⟨again,hagain,hreselected⟩ := readVersion_ok hsecond
  have hperm := selected_perm hselected hreselected hdigest hhash
    (hinputs _ (.inl rfl) chunks hchunks) (hinputs _ (.inr rfl) again hagain)
  refine ⟨chunks,again,hchunks,hagain,hselected.version,hreselected.leaves,?_,?_⟩
  · rw [hreselected.leaves,isLeaf_perm hperm]
    exact hperm.filter _
  · rw [hreselected.leaves]
    exact hreselected.once.sublist (List.filter_sublist.map _)

def Untouched (p : Progress V) : Prop := p.ensured = false ∧ p.received = []

theorem preflight_untouched (ports : Ports sha256 V) (versionIds : List UUID7) :
    Effect.Keeps Untouched (preflight ports versionIds) := by
  induction versionIds with
  | nil => exact Effect.keeps_pure _
  | cons v vs ih =>
    apply Effect.keeps_bind
    · exact fun p h => h
    · intro selection
      exact Effect.keeps_bind ih fun expected => Effect.keeps_pure _

theorem checkArguments_ok {u : Unit} (h : checkArguments r = .ok u) :
    r.versionIds.Nodup ∧ 0 < r.batchSize.toNat := by
  simp only [checkArguments,bind_ok,require_ok] at h
  obtain ⟨_,_,_,_,_,_,_,hversions,_,_,_,hbatch,_⟩ := h
  exact ⟨hversions.2,by omega⟩

theorem publishExpected_done {candidate : DatasetSnapshot}
    (h : publishExpected service r expected p = (.ok candidate,q)) :
    ∃ indexed p', indexVersions service r expected r.versionIds { p with ensured := true } =
      (.ok indexed,p') ∧ q = p' := by
  obtain ⟨_,p₁,hensure,h⟩ := Effect.bind_done.mp h
  obtain ⟨indexed,p₂,hindexed,h⟩ := Effect.bind_done.mp h
  obtain ⟨counted,p₃,hcount,h⟩ := Effect.bind_done.mp h
  obtain ⟨_,p₄,hrequire,h⟩ := Effect.bind_done.mp h
  obtain ⟨navigation,p₅,hnavigation,h⟩ := Effect.bind_done.mp h
  obtain rfl := (Prod.mk.inj hensure).2
  obtain rfl := (Effect.settle_done.mp hcount).2
  obtain rfl := (Effect.require_done.mp hrequire).2
  obtain rfl := (Effect.settle_done.mp hnavigation).2
  exact ⟨indexed,p₂,hindexed,(Effect.settle_done.mp h).2.symm⟩

/-- A candidate is returned only if the index received the leaves that the preflight
selected of every version, each once and in the order of the second read; nothing
is written when a version fails the preflight. -/
theorem candidate_indexed (service : Service sha256 V) (r : Request) :
    (Set.InjOn sha256 (hashInputs service.toPorts r) →
      ∀ candidate p, buildSet service r start = (.ok candidate,p) →
        ∃ indexed : List (List (LegalChunk sha256)),
        indexed.length = r.versionIds.length ∧
        p.received.map IndexDocument.source = indexed.flatten.map sourceOf ∧
        ∀ i versionId leaves, r.versionIds[i]? = some versionId → indexed[i]? = some leaves →
          VersionIndexed service.toPorts i (r.versionIds.length+i) versionId leaves) ∧
    ((∃ i versionId failure, r.versionIds[i]? = some versionId ∧
        readVersion service.toPorts i versionId = .error failure) →
      ∃ failure p, buildSet service r start = (.error failure,p) ∧ p.ensured = false ∧
        p.received = []) := by
  constructor
  · intro hhash candidate p h
    obtain ⟨_,p₁,hcheck,h⟩ := Effect.bind_done.mp h
    obtain ⟨expected,p₂,hpreflight,h⟩ := Effect.bind_done.mp h
    obtain ⟨harguments,rfl⟩ := Effect.settle_done.mp hcheck
    obtain ⟨honce,hbatch⟩ := checkArguments_ok harguments
    obtain ⟨firsts,hfirsts,rfl,rfl⟩ := preflight_done hpreflight
    obtain ⟨count,q,hindexed,rfl⟩ := publishExpected_done h
    obtain ⟨seconds,hseconds,hlookup,documents,hreceived,hsource⟩ :=
      indexVersions_done hbatch hindexed
    refine ⟨seconds.map Selection.leaves,?_,?_,?_⟩
    · rw [List.length_map,readFrom_length hseconds]
    · rw [hreceived]
      exact hsource
    · intro i versionId leaves hi hleaves
      rw [List.getElem?_map,Option.map_eq_some_iff] at hleaves
      obtain ⟨second,hsecond,rfl⟩ := hleaves
      obtain ⟨first,hfirst,hread⟩ := readFrom_get hfirsts hi
      obtain ⟨_,hagain,hreread⟩ := readFrom_get hseconds hi
      obtain rfl := Option.some.inj (hsecond.symm.trans hagain)
      have hsame := (hlookup i versionId second hi hsecond).symm.trans
        (expected_lookup honce hi hfirst)
      have hi_lt : i < r.versionIds.length := (List.getElem?_eq_some_iff.mp hi).1
      have hversion := List.mem_of_getElem? hi
      have hcall : (start : Progress V).reads+i = i := Nat.zero_add i
      have hlater : (start : Progress V).reads+r.versionIds.length+i = r.versionIds.length+i :=
        congrArg (·+i) (Nat.zero_add r.versionIds.length)
      rw [hcall] at hread
      rw [hlater] at hreread
      apply versionIndexed hhash _ hread hreread (Prod.mk.inj (Option.some.inj hsame)).1
      rintro n hn chunks hchunks
      have hbound : n < 2*r.versionIds.length := by omega
      constructor
      · exact ⟨n,hbound,versionId,hversion,chunks,hchunks,.inl rfl⟩
      · exact fun c hc => ⟨n,hbound,versionId,hversion,chunks,hchunks,.inr ⟨c,hc,rfl⟩⟩
  · rintro ⟨i,versionId,failure,hi,hfailure⟩
    cases hcheck : checkArguments r with
    | error e =>
      exact ⟨e,start,Effect.bind_raised.mpr (.inl (by rw [Effect.settle,hcheck])),rfl,rfl⟩
    | ok u =>
      cases hpreflight : preflight service.toPorts r.versionIds start with
      | mk outcome p =>
        have huntouched := preflight_untouched service.toPorts r.versionIds start ⟨rfl,rfl⟩
        rw [hpreflight] at huntouched
        cases outcome with
        | ok expected =>
          obtain ⟨firsts,hfirsts,-,-⟩ := preflight_done hpreflight
          obtain ⟨first,-,hread⟩ := readFrom_get hfirsts hi
          have hcall : (start : Progress V).reads+i = i := Nat.zero_add i
          rw [hcall,hfailure] at hread
          cases hread
        | error e =>
          have hrest :
            (preflight service.toPorts r.versionIds >>= publishExpected service r) start =
              (.error e,p) := Effect.bind_raised.mpr (.inl hpreflight)
          exact ⟨e,p,Effect.bind_raised.mpr (.inr ⟨u,start,by rw [Effect.settle,hcheck],hrest⟩),
            huntouched.1,huntouched.2⟩

def sampleHash (bytes : List UInt8) : Digest :=
  BitVec.ofNat 256 (bytes.foldl (fun n b => n*256+b.toNat) 1)

def pieceFields (n : ℕ) (content : String) (parent : Option UUID7) : LegalChunkFields where
  id := ⟨0,n,0⟩
  versionId := ⟨0,1,0⟩
  provisionId := ⟨0,2,0⟩
  chunkType := .provision
  quality := .ok
  content := content.toList
  contentHash := sampleHash (encode content.toList)
  parentChunkId := parent
  parserVersion := none
  parentRelativeCharStart := none
  parentRelativeCharEnd := none

def piece (n : ℕ) (content : String) (parent : Option UUID7) : LegalChunk sampleHash :=
  ⟨pieceFields n content parent,by simp [legalChunkChecks,firstError,pieceFields,contentSha256,
    positionValid]⟩

def article : List (LegalChunk sampleHash) :=
  [piece 3 "ab" none,piece 4 "a" (some ⟨0,3,0⟩),piece 5 "b" (some ⟨0,3,0⟩)]

def changing (again : List (LegalChunk sampleHash)) : Service sampleHash (List ℤ) where
  chunksForVersion call _ := .ok (if call = 0 then article else again)
  embed _ _ texts _ := .ok (texts.map fun _ => [0])
  ensureIndex _ _ := .ok ()
  appendDocuments _ _ _ _ := .ok ()
  countDocuments _ := .ok (some 2)
  buildNavigation _ _ _ := .ok ⟨"navigation",1⟩
  newUuid7 := ⟨0,9,0⟩
  parserVersion := "docx-v1"
  parsed := by decide

def oneVersion : Request := ⟨[⟨0,1,0⟩],"laws-1","laws","model",1,1⟩

def sampleInputs : List (List UInt8) :=
  [encode "ab".toList,encode "a".toList,encode "b".toList,versionStream article]

theorem sample_inputs {bytes : List UInt8}
    (h : bytes ∈ hashInputs (changing article).toPorts oneVersion) : bytes ∈ sampleInputs := by
  obtain ⟨call,-,versionId,-,chunks,hchunks,h⟩ := h
  have harticle : chunks = article := by
    have hsame : (if call = 0 then article else article) = chunks := ok_inj.mp hchunks
    rw [← hsame,ite_self]
  subst harticle
  rcases h with rfl | ⟨c,hc,rfl⟩
  · exact List.mem_of_getElem? (i := 3) rfl
  · revert c
    decide

theorem sample_injective :
    Set.InjOn sampleHash (hashInputs (changing article).toPorts oneVersion) := by
  have hlist : ∀ a ∈ sampleInputs, ∀ b ∈ sampleInputs, sampleHash a = sampleHash b → a = b := by
    decide +kernel
  exact fun a ha b hb h => hlist a (sample_inputs ha) b (sample_inputs hb) h

/-- The article is indexed, and nothing is written of a version without chunks. -/
theorem article_indexed : (∃ indexed : List (List (LegalChunk sampleHash)), indexed.length = 1 ∧
      ∀ leaves, indexed[0]? = some leaves →
        VersionIndexed (changing article).toPorts 0 1 ⟨0,1,0⟩ leaves) ∧
    ∃ failure p, buildSet (changing article) { oneVersion with versionIds := [⟨0,8,0⟩] } start =
      (.error failure,p) ∧ p.ensured = false ∧ p.received = [] := by
  have hok : (buildSet (changing article) oneVersion start).1.isOk = true := by decide +kernel
  have hfails : (readVersion (changing article).toPorts 0 ⟨0,8,0⟩).isOk = false := by decide
  constructor
  · cases hrun : buildSet (changing article) oneVersion start with
    | mk outcome p =>
      cases outcome with
      | error e =>
        rw [hrun] at hok
        cases hok
      | ok candidate =>
        obtain ⟨indexed,hlength,-,hversions⟩ :=
          (candidate_indexed (changing article) oneVersion).1 sample_injective candidate p hrun
        exact ⟨indexed,hlength,fun leaves hleaves => hversions 0 ⟨0,1,0⟩ leaves rfl hleaves⟩
  · cases hread : readVersion (changing article).toPorts 0 ⟨0,8,0⟩ with
    | ok _ =>
      rw [hread] at hfails
      cases hfails
    | error failure =>
      exact (candidate_indexed (changing article) { oneVersion with versionIds := [⟨0,8,0⟩] }).2
        ⟨0,⟨0,8,0⟩,failure,rfl,hread⟩

/-- The second read returns the chunks the other way round, and so they are indexed. -/
theorem article_reversed : ∃ candidate p,
    buildSet (changing article.reverse) oneVersion start = (.ok candidate,p) ∧
      (changing article.reverse).chunksForVersion 0 ⟨0,1,0⟩ = .ok article ∧
      p.received.map IndexDocument.source ≠ (article.filter (isLeaf article)).map sourceOf := by
  have hreversed : (fun run : Except BuildFailure DatasetSnapshot × Progress (List ℤ) =>
      run.1.isOk = true ∧ run.2.received.map IndexDocument.source ≠
        (article.filter (isLeaf article)).map sourceOf)
      (buildSet (changing article.reverse) oneVersion start) := by decide +kernel
  cases hrun : buildSet (changing article.reverse) oneVersion start with
  | mk outcome p =>
    rw [hrun] at hreversed
    cases outcome with
    | error e => cases hreversed.1
    | ok candidate => exact ⟨candidate,p,rfl,rfl,hreversed.2⟩

end LawyerAgent.DatasetSetPublish
