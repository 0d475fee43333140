import LawyerAgent.ChunkStructure
import LawyerAgent.Outcomes.Except
import LawyerAgent.PythonRepr
import Mathlib.Data.Char
import Mathlib.Data.List.Lex

/-!
# Replay of a chunk graph

A stored chunk graph and a freshly derived one are compared without their
identifiers: each chunk becomes a tree of what it and its children say, with
the children in the order of their printed form.
-/

set_option autoImplicit false

namespace LawyerAgent.ChunkReplay
open Relational Common LegalCorpus PythonRepr

structure ChunkSemantic where
  versionId : UUID7
  provisionId : UUID7
  chunkType : String
  quality : String
  content : List Char
  contentHash : Digest
  parserVersion : Option String
  charStart : Option ℕ
  charEnd : Option ℕ
deriving DecidableEq

inductive ChunkTree where
  | node (semantic : ChunkSemantic) (children : List ChunkTree)

mutual

def decideTree : (t u : ChunkTree) → Decidable (t = u)
  | .node s ts, .node s' us =>
    match decEq s s', decideTrees ts us with
    | isTrue hs, isTrue hts => isTrue (by rw [hs,hts])
    | isFalse hs, _ => isFalse fun h => hs (ChunkTree.node.inj h).1
    | _, isFalse hts => isFalse fun h => hts (ChunkTree.node.inj h).2

def decideTrees : (ts us : List ChunkTree) → Decidable (ts = us)
  | [], [] => isTrue rfl
  | [], _::_ => isFalse (List.cons_ne_nil _ _).symm
  | _::_, [] => isFalse (List.cons_ne_nil _ _)
  | t::ts, u::us =>
    match decideTree t u, decideTrees ts us with
    | isTrue ht, isTrue hts => isTrue (by rw [ht,hts])
    | isFalse ht, _ => isFalse fun h => ht (List.cons.inj h).1
    | _, isFalse hts => isFalse fun h => hts (List.cons.inj h).2

end

instance : DecidableEq ChunkTree := decideTree

variable (printable : Char → Bool)

def comma : List Char := ", ".toList

def reprSemantic (s : ChunkSemantic) : List Char :=
  "(".toList++(reprUuid s.versionId++(comma++(reprUuid s.provisionId++(comma++
  (reprText printable s.chunkType.toList++(comma++(reprText printable s.quality.toList++(comma++
  (reprText printable s.content++(comma++(reprBytes (digestBytes s.contentHash)++(comma++
  (reprOption (reprText printable) (s.parserVersion.map String.toList)++(comma++
  ((reprOption reprNat s.charStart++[','])++(" ".toList++
  (reprOption reprNat s.charEnd++[')'])))))))))))))))))

mutual

def reprTree : ChunkTree → List Char
  | .node semantic children =>
    '('::(reprSemantic printable semantic++(comma++(reprTrees children++[')'])))

/-- A tuple, with a comma behind a single item. -/
def reprTrees : List ChunkTree → List Char
  | [] => "()".toList
  | [t] => '('::(reprTree t++",)".toList)
  | t::u::ts => '('::(reprTree t++reprRest (u::ts))

def reprRest : List ChunkTree → List Char
  | [] => ")".toList
  | t::ts => comma++(reprTree t++reprRest ts)

end

/-- The order of `sorted(..., key=repr)`. -/
def printedBefore (t u : ChunkTree) : Prop := reprTree printable t ≤ reprTree printable u

instance : DecidableRel (printedBefore printable) := fun t u =>
  inferInstanceAs (Decidable (reprTree printable t ≤ reprTree printable u))

def sortTrees (trees : List ChunkTree) : List ChunkTree :=
  trees.insertionSort (printedBefore printable)

variable {sha256 : List UInt8 → Digest}

def semanticOf (c : LegalChunk sha256) : ChunkSemantic where
  versionId := c.value.versionId
  provisionId := c.value.provisionId
  chunkType := c.value.chunkType.value
  quality := c.value.quality.value
  content := c.value.content
  contentHash := c.value.contentHash
  parserVersion := c.value.parserVersion
  charStart := c.value.parentRelativeCharStart
  charEnd := c.value.parentRelativeCharEnd

def childrenOf (chunks : List (LegalChunk sha256)) (id : UUID7) : List (LegalChunk sha256) :=
  chunks.filter fun c => c.value.parentChunkId == some id

def rootsOf (chunks : List (LegalChunk sha256)) : List (LegalChunk sha256) :=
  chunks.filter fun c => c.value.parentChunkId == none

/-- The tree of a chunk and the chunks visited for it. A path without a cycle
has no more chunks than the graph. -/
def tree (chunks : List (LegalChunk sha256)) :
    ℕ → List UUID7 → LegalChunk sha256 → Except String (ChunkTree × List UUID7)
  | 0, _, _ => .error "cycle"
  | fuel+1, visiting, c =>
    if c.value.id ∈ visiting then .error "cycle"
    else do
      let subtrees ← (childrenOf chunks c.value.id).mapM (tree chunks fuel (c.value.id::visiting))
      let childTrees := sortTrees printable (subtrees.map Prod.fst)
      Outcomes.require childTrees.Nodup "ambiguous duplicate sibling"
      pure (.node (semanticOf c) childTrees,c.value.id::subtrees.flatMap Prod.snd)

def checkParent (chunks : List (LegalChunk sha256)) (c : LegalChunk sha256) : Except String Unit :=
  match c.value.parentChunkId with
  | none => .ok ()
  | some parentId =>
    match chunkById chunks parentId with
    | none => .error "orphan parent"
    | some parent => Outcomes.require (parent.value.versionId = c.value.versionId ∧
        parent.value.provisionId = c.value.provisionId) "parent crosses version or provision"

def checkParents (chunks : List (LegalChunk sha256)) : List (LegalChunk sha256) → Except String Unit
  | [] => .ok ()
  | c::cs => do
    checkParent chunks c
    checkParents chunks cs

/-- `_canonical_graph`, its counter as the list of the root trees. -/
def canonicalGraph (chunks : List (LegalChunk sha256)) : Except String (List ChunkTree) := do
  Outcomes.require (chunks.map fun c => c.value.id).Nodup "duplicate chunk id"
  checkParents chunks chunks
  let trees ← (rootsOf chunks).mapM (tree printable chunks (chunks.length+1) [])
  Outcomes.require ((trees.flatMap Prod.snd).dedup.length = chunks.length)
    "cycle or unreachable node"
  Outcomes.require (trees.map Prod.fst).Nodup "ambiguous duplicate root"
  pure (trees.map Prod.fst)

def assertChunkGraphMatches (expected actual : List (LegalChunk sha256)) : Except String Unit :=
  match canonicalGraph printable expected with
  | .error message => .error ("replay chunk graph invalid: "++message)
  | .ok expectedGraph =>
    match canonicalGraph printable actual with
    | .error message => .error ("replay chunk graph invalid: "++message)
    | .ok actualGraph =>
      Outcomes.require (expectedGraph.Perm actualGraph) "replay chunk graph differs from existing version"

def replayChunkGraph (versionId : UUID7) (expected : List (LegalChunk sha256)) :
    CorpusTx sha256 ℕ := do
  let actual ← read fun s => chunksForVersion s versionId
  ofExcept .replayConflict (assertChunkGraphMatches printable expected actual)
  pure actual.length

def persistChunkGraph (versionId : UUID7) (expected : List (LegalChunk sha256)) :
    CorpusTx sha256 ℕ := do
  replaceChunksForVersion versionId expected
  pure expected.length

def persistOrReplayChunkGraph (versionId : UUID7) (expected : List (LegalChunk sha256))
    (replayed : Bool) : CorpusTx sha256 ℕ :=
  if replayed = false then persistChunkGraph versionId expected
  else replayChunkGraph printable versionId expected

def deriveFailure : ChunkStructure.DeriveFailure → CorpusFailure
  | .structureError text => .valueError text
  | .valueError text => .valueError text

/-- The chunks of an import are derived, and written or compared. -/
def storeChunkGraph (c : ChunkStructure.DeriveCall) (newId : ℕ → UUID7) (replayed : Bool) :
    CorpusTx sha256 ℕ := do
  let chunks ← ofExcept deriveFailure (ChunkStructure.deriveHierarchicalChunks c newId)
  persistOrReplayChunkGraph printable c.versionId chunks replayed

end LawyerAgent.ChunkReplay
