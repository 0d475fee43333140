import LawyerAgent.ChunkGraphs
import LawyerAgent.Forests.Isomorphism

/-!
# Canonical graphs of any depth

The chunks of a version form a forest under their parents, and the canonical
tree of a chunk is a fold over it. Two graphs without equal siblings and equal
roots match exactly when they are isomorphic.
-/

set_option autoImplicit false

namespace LawyerAgent.ChunkForests
open Forests Relation Common LegalCorpus ChunkReplay
open ChunkGraphs

variable {sha256 : List UInt8 → Digest}

def reading : Reading (LegalChunk sha256) UUID7 ChunkSemantic where
  ident c := c.value.id
  parent c := c.value.parentChunkId
  label := semanticOf

/-- A forest whose chunks belong to the version and provision of their parents. -/
structure ValidGraph (chunks : List (LegalChunk sha256)) : Prop where
  forest : Forest reading chunks
  owners : ∀ c ∈ chunks, ∀ p ∈ chunks, c.value.parentChunkId = some p.value.id →
    p.value.versionId = c.value.versionId ∧ p.value.provisionId = c.value.provisionId

variable (printable : Char → Bool)

def treeNode (s : ChunkSemantic) (trees : List ChunkTree) : ChunkTree :=
  .node s (sortTrees printable trees)

variable {printable} {chunks others : List (LegalChunk sha256)}

theorem treeNode_unordered : Unordered (treeNode printable) := by
  intro s ts us h
  rw [treeNode,treeNode,sortTrees_perm printable h]

theorem treeNode_told (h : Forest reading chunks) (h' : Forest reading others) :
    Told reading (treeNode printable) chunks others := by
  intro c hc d hd hvalue
  rw [fold_eq h hc,fold_eq h' hd] at hvalue
  obtain ⟨hlabel,htrees⟩ := ChunkTree.node.inj hvalue
  have hleft := List.perm_insertionSort (printedBefore printable)
    ((children reading chunks (reading.ident c)).map (fold reading (treeNode printable) chunks))
  have hright := List.perm_insertionSort (printedBefore printable)
    ((children reading others (reading.ident d)).map (fold reading (treeNode printable) others))
  rw [sortTrees,sortTrees] at htrees
  rw [htrees] at hleft
  exact ⟨hlabel,hleft.symm.trans hright⟩

def visited (chunks : List (LegalChunk sha256)) : ℕ → LegalChunk sha256 → List UUID7
  | 0, _ => []
  | fuel+1, c => c.value.id::(childrenOf chunks c.value.id).flatMap (visited chunks fuel)

theorem visited_ids (fuel : ℕ) {c : LegalChunk sha256} (hc : c ∈ chunks) :
    ∀ id ∈ visited chunks fuel c, id ∈ idsOf chunks := by
  induction fuel generalizing c with
  | zero => exact fun _ h => absurd h List.not_mem_nil
  | succ fuel ih =>
    intro id hid
    rw [visited] at hid
    rcases List.mem_cons.mp hid with rfl | hlower
    · exact List.mem_map_of_mem hc
    · obtain ⟨d,hd,hmem⟩ := List.mem_flatMap.mp hlower
      exact ih (mem_childrenOf.mp hd).1 id hmem

theorem visited_below (h : Forest reading chunks) : ∀ c ∈ chunks, ∀ fuel,
    height reading chunks c < fuel → ∀ d, ReflTransGen (ChildOf reading chunks) d c →
      d.value.id ∈ visited chunks fuel c := by
  apply forest_induct h (P := fun c => ∀ fuel, height reading chunks c < fuel →
    ∀ d, ReflTransGen (ChildOf reading chunks) d c → d.value.id ∈ visited chunks fuel c)
  intro c hc ih fuel hfuel d hd
  cases fuel with
  | zero => omega
  | succ fuel =>
    rw [visited]
    rcases hd.cases_tail with rfl | ⟨e,hde,hec⟩
    · exact List.mem_cons_self
    · have hchild : e ∈ childrenOf chunks c.value.id := mem_childrenOf.mpr ⟨hec.1,hec.2.2⟩
      have hlt := height_lt h hec
      exact List.mem_cons_of_mem _ (List.mem_flatMap.mpr ⟨e,hchild,
        ih e hchild fuel (by omega) d hde⟩)

theorem below_root (h : Forest reading chunks) : ∀ c ∈ chunks,
    ∃ r ∈ rootsOf chunks, ReflTransGen (ChildOf reading chunks) c r := by
  apply forest_ascend h (P := fun c => ∃ r ∈ rootsOf chunks,
    ReflTransGen (ChildOf reading chunks) c r)
  · exact fun c hc => ⟨c,hc,.refl⟩
  · intro p hp hpath c hc
    obtain ⟨r,hr,hpr⟩ := hpath
    obtain ⟨hmem,hparent⟩ := Forests.mem_children.mp hc
    exact ⟨r,hr,.head ⟨hmem,hp,hparent⟩ hpr⟩

theorem visited_length (h : Forest reading chunks) :
    ((rootsOf chunks).flatMap (visited chunks (chunks.length+1))).dedup.length =
      chunks.length := by
  have hperm : ((rootsOf chunks).flatMap (visited chunks (chunks.length+1))).dedup.Perm
      (idsOf chunks) := by
    apply (List.perm_ext_iff_of_nodup (List.nodup_dedup _) h.ids).mpr
    intro id
    rw [List.mem_dedup]
    constructor
    · intro hid
      obtain ⟨r,hr,hmem⟩ := List.mem_flatMap.mp hid
      exact visited_ids _ (mem_rootsOf.mp hr).1 id hmem
    · intro hid
      obtain ⟨c,hc,rfl⟩ := List.mem_map.mp hid
      obtain ⟨r,hr,hpath⟩ := below_root h c hc
      have hle := height_le (R := reading) (F := chunks) r
      exact List.mem_flatMap.mpr ⟨r,hr,
        visited_below h r (mem_rootsOf.mp hr).1 _ (by omega) c hpath⟩
  rw [hperm.length_eq,idsOf,List.length_map]

/-- The path to a chunk has only chunks above it, so that the fuel lasts. -/
theorem tree_valid (h : Forest reading chunks)
    (hsiblings : ∀ p ∈ chunks, ((children reading chunks (reading.ident p)).map
      (fold reading (treeNode printable) chunks)).Nodup) (fuel : ℕ) :
    ∀ (visiting : List UUID7) (c : LegalChunk sha256), c ∈ chunks → visiting.Nodup →
      (∀ v ∈ visiting, ∃ a ∈ chunks, a.value.id = v ∧
        height reading chunks c < height reading chunks a) →
      fuel+visiting.length = chunks.length+1 → tree printable chunks fuel visiting c =
        .ok (fold reading (treeNode printable) chunks c,visited chunks fuel c) := by
  induction fuel with
  | zero =>
    intro visiting c _ hnodup habove hfuel
    have hsubset : ∀ v ∈ visiting, v ∈ idsOf chunks := by
      intro v hv
      obtain ⟨a,ha,rfl,-⟩ := habove v hv
      exact List.mem_map_of_mem ha
    have hle := (List.subperm_of_subset hnodup hsubset).length_le
    rw [idsOf,List.length_map] at hle
    omega
  | succ fuel ih =>
    intro visiting c hc hnodup habove hfuel
    have hfresh : c.value.id ∉ visiting := by
      intro hmem
      obtain ⟨a,ha,hid,hlt⟩ := habove _ hmem
      rw [eq_of_ident h ha hc hid] at hlt
      omega
    have hchildren : ∀ d ∈ childrenOf chunks c.value.id,
        tree printable chunks fuel (c.value.id::visiting) d =
          .ok (fold reading (treeNode printable) chunks d,visited chunks fuel d) := by
      intro d hd
      obtain ⟨hmem,hparent⟩ := mem_childrenOf.mp hd
      have hlower := height_lt h ⟨hmem,hc,hparent⟩
      apply ih
      · exact hmem
      · exact List.nodup_cons.mpr ⟨hfresh,hnodup⟩
      · intro v hv
        rcases List.mem_cons.mp hv with rfl | hv
        · exact ⟨c,hc,rfl,hlower⟩
        · obtain ⟨a,ha,hid,hlt⟩ := habove v hv
          exact ⟨a,ha,hid,hlower.trans hlt⟩
      · rw [List.length_cons]
        omega
    have hfirst : ((childrenOf chunks c.value.id).map fun d =>
        (fold reading (treeNode printable) chunks d,visited chunks fuel d)).map Prod.fst =
        (children reading chunks (reading.ident c)).map
          (fold reading (treeNode printable) chunks) := by
      rw [List.map_map]
      rfl
    have hsorted : (sortTrees printable ((children reading chunks (reading.ident c)).map
        (fold reading (treeNode printable) chunks))).Nodup :=
      (List.perm_insertionSort _ _).nodup_iff.mpr (hsiblings c hc)
    rw [tree,if_neg hfresh,mapM_map hchildren]
    change (Outcomes.require (sortTrees printable (((childrenOf chunks c.value.id).map fun d =>
        (fold reading (treeNode printable) chunks d,visited chunks fuel d)).map Prod.fst)).Nodup
        "ambiguous duplicate sibling" >>= fun _ => pure _) = _
    rw [hfirst,Outcomes.require,if_pos hsorted,visited,List.flatMap_map,fold_eq h hc]
    rfl

theorem checkParents_valid (h : ValidGraph chunks) : checkParents chunks chunks = .ok () := by
  apply checkParents_all
  intro c hc
  unfold checkParent
  cases hparent : c.value.parentChunkId with
  | none => rfl
  | some id =>
    obtain ⟨p,hp,rfl⟩ := h.forest.parents c hc id hparent
    have hfind : chunkById chunks p.value.id = some p := chunkById_mem h.forest.ids hp
    simp only [reading,hfind]
    exact Outcomes.require_ok.mpr (h.owners c hc p hp hparent)

theorem canonicalGraph_valid (h : ValidGraph chunks)
    (hdistinct : Distinct reading (treeNode printable) chunks) :
    canonicalGraph printable chunks =
      .ok ((rootsOf chunks).map (fold reading (treeNode printable) chunks)) := by
  have htrees : (rootsOf chunks).mapM (tree printable chunks (chunks.length+1) []) =
      .ok ((rootsOf chunks).map fun r => (fold reading (treeNode printable) chunks r,
        visited chunks (chunks.length+1) r)) := by
    apply mapM_map
    intro r hr
    exact tree_valid h.forest hdistinct.siblings _ [] r (mem_rootsOf.mp hr).1 List.nodup_nil
      (fun v hv => absurd hv List.not_mem_nil) rfl
  have hfirst : ((rootsOf chunks).map fun r => (fold reading (treeNode printable) chunks r,
      visited chunks (chunks.length+1) r)).map Prod.fst =
      (rootsOf chunks).map (fold reading (treeNode printable) chunks) := by
    rw [List.map_map]
    rfl
  simp only [canonicalGraph,Outcomes.bind_ok,Outcomes.require_ok,checkParents_valid h]
  refine ⟨(),h.forest.ids,(),trivial,_,htrees,(),?_,(),?_,?_⟩
  · rw [List.flatMap_map]
    exact visited_length h.forest
  · rw [hfirst]
    exact hdistinct.roots
  · rw [hfirst]
    rfl

/-- Graphs are accepted exactly when they are isomorphic. -/
theorem assert_isomorphic {expected actual : List (LegalChunk sha256)}
    (hexpected : ValidGraph expected) (hactual : ValidGraph actual)
    (dexpected : Distinct reading (treeNode printable) expected)
    (dactual : Distinct reading (treeNode printable) actual) :
    assertChunkGraphMatches printable expected actual = .ok () ↔
      Isomorphic reading expected actual := by
  have hfirst := canonicalGraph_valid hexpected dexpected
  have hsecond := canonicalGraph_valid hactual dactual
  have hroots : assertChunkGraphMatches printable expected actual = .ok () ↔
      ((rootsOf expected).map (fold reading (treeNode printable) expected)).Perm
        ((rootsOf actual).map (fold reading (treeNode printable) actual)) := by
    simp only [assertChunkGraphMatches,hfirst,hsecond]
    exact Outcomes.require_ok
  rw [hroots]
  constructor
  · intro hperm
    exact isomorphic_of_roots hexpected.forest hactual.forest
      (treeNode_told hexpected.forest hactual.forest) dexpected dactual hperm
  · intro hiso
    obtain ⟨f,hf⟩ := hiso
    exact roots_same hexpected.forest hactual.forest hf treeNode_unordered

end LawyerAgent.ChunkForests
