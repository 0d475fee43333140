import LawyerAgent.ChunkReplay

/-!
# Canonical graphs of two levels

Printed trees determine the tree, so siblings have one order whatever order
they are read in. A graph of roots and their children is canonical exactly
when no two siblings and no two roots say the same.
-/

set_option autoImplicit false

namespace LawyerAgent.ChunkGraphs
open Relational Common LegalCorpus PythonRepr
open ChunkReplay
open Codes

variable (printable : Char → Bool)

theorem semantic_delimited : Delimited (fun _ => True) (reprSemantic printable) := by
  have htext : Delimited (fun _ => True) fun s : String => reprText printable s.toList :=
    delimited_map String.toList (reprText_delimited printable) (fun _ _ => trivial)
      fun _ _ _ _ h => String.toList_inj.mp h
  have hparser : Delimited (fun _ => True) fun o : Option String =>
      reprOption (reprText printable) (o.map String.toList) :=
    delimited_map (Option.map String.toList) (reprOptionText_delimited printable)
      (fun _ _ => trivial) fun _ _ _ _ h => Option.map_injective (fun _ _ => String.toList_inj.mp) h
  have hstart : Delimited (fun _ => True) fun o : Option ℕ => reprOption reprNat o++[','] :=
    reprNumber_delimited (by decide) (by decide)
  have hstop : Delimited (fun _ => True) fun o : Option ℕ => reprOption reprNat o++[')'] :=
    reprNumber_delimited (by decide) (by decide)
  have hparts :=
    delimited_after "(".toList (delimited_pair reprUuid_delimited (delimited_after comma
    (delimited_pair reprUuid_delimited (delimited_after comma (delimited_pair htext
    (delimited_after comma (delimited_pair htext (delimited_after comma
    (delimited_pair (reprText_delimited printable) (delimited_after comma
    (delimited_pair reprDigest_delimited (delimited_after comma (delimited_pair hparser
    (delimited_after comma (delimited_pair hstart (delimited_after " ".toList hstop))))))))))))))))
  refine delimited_map (fun s : ChunkSemantic => (s.versionId,s.provisionId,s.chunkType,s.quality,
    s.content,s.contentHash,s.parserVersion,s.charStart,s.charEnd)) hparts ?_ ?_
  · exact fun _ _ => ⟨trivial,trivial,trivial,trivial,trivial,trivial,trivial,trivial,trivial⟩
  · rintro ⟨_,_,_,_,_,_,_,_,_⟩ ⟨_,_,_,_,_,_,_,_,_⟩ _ _ h
    cases h
    rfl

mutual

theorem reprTree_told : ∀ (t u : ChunkTree) (r s : List Char),
    reprTree printable t++r = reprTree printable u++s → t = u ∧ r = s
  | .node semantic children, .node semantic' children', r, s, h => by
    simp only [reprTree,List.cons_append,List.append_assoc,List.cons.injEq,true_and] at h
    obtain ⟨rfl,hrest⟩ := semantic_delimited printable semantic semantic' trivial trivial _ _ h
    obtain ⟨rfl,hsame⟩ := reprTrees_told children children' _ _ (List.append_cancel_left hrest)
    exact ⟨rfl,(List.cons.inj hsame).2⟩

theorem reprTrees_told : ∀ (ts us : List ChunkTree) (r s : List Char),
    reprTrees printable ts++r = reprTrees printable us++s → ts = us ∧ r = s
  | [], [], r, s, h => ⟨rfl,List.append_cancel_left h⟩
  | [], [u], r, s, h => by
    cases u
    exact absurd (List.cons.inj (List.cons.inj h).2).1 (by decide)
  | [], u::v::us, r, s, h => by
    cases u
    exact absurd (List.cons.inj (List.cons.inj h).2).1 (by decide)
  | [t], [], r, s, h => by
    cases t
    exact absurd (List.cons.inj (List.cons.inj h).2).1 (by decide)
  | [t], [u], r, s, h => by
    simp only [reprTrees,List.cons_append,List.append_assoc,List.cons.injEq,true_and] at h
    obtain ⟨rfl,hrest⟩ := reprTree_told t u _ _ h
    exact ⟨rfl,List.append_cancel_left hrest⟩
  | [t], u::v::us, r, s, h => by
    simp only [reprTrees,List.cons_append,List.append_assoc,List.cons.injEq,true_and] at h
    obtain ⟨rfl,hrest⟩ := reprTree_told t u _ _ h
    exact absurd (List.cons.inj (List.cons.inj hrest).2).1 (by decide)
  | t::v::ts, [], r, s, h => by
    cases t
    exact absurd (List.cons.inj (List.cons.inj h).2).1 (by decide)
  | t::v::ts, [u], r, s, h => by
    simp only [reprTrees,List.cons_append,List.append_assoc,List.cons.injEq,true_and] at h
    obtain ⟨rfl,hrest⟩ := reprTree_told t u _ _ h
    exact absurd (List.cons.inj (List.cons.inj hrest).2).1 (by decide)
  | t::v::ts, u::w::us, r, s, h => by
    simp only [reprTrees,List.cons_append,List.append_assoc,List.cons.injEq,true_and] at h
    obtain ⟨rfl,hrest⟩ := reprTree_told t u _ _ h
    obtain ⟨hlater,hsame⟩ := reprRest_told (v::ts) (w::us) _ _ hrest
    exact ⟨by rw [hlater],hsame⟩

theorem reprRest_told : ∀ (ts us : List ChunkTree) (r s : List Char),
    reprRest printable ts++r = reprRest printable us++s → ts = us ∧ r = s
  | [], [], r, s, h => ⟨rfl,List.append_cancel_left h⟩
  | [], u::us, r, s, h => absurd (List.cons.inj h).1 (by decide)
  | t::ts, [], r, s, h => absurd (List.cons.inj h).1 (by decide)
  | t::ts, u::us, r, s, h => by
    simp only [reprRest,List.append_assoc] at h
    obtain ⟨rfl,hrest⟩ := reprTree_told t u _ _ (List.append_cancel_left h)
    obtain ⟨rfl,hsame⟩ := reprRest_told ts us _ _ hrest
    exact ⟨rfl,hsame⟩

end

theorem reprTree_inj {t u : ChunkTree} (h : reprTree printable t = reprTree printable u) : t = u :=
  (reprTree_told printable t u [] [] (by rw [h])).1

instance : Std.Total (printedBefore printable) := ⟨fun _ _ => le_total _ _⟩

instance : IsTrans ChunkTree (printedBefore printable) := ⟨fun _ _ _ h₁ h₂ => le_trans h₁ h₂⟩

instance : Std.Antisymm (printedBefore printable) :=
  ⟨fun _ _ h₁ h₂ => reprTree_inj printable (le_antisymm h₁ h₂)⟩

theorem sortTrees_perm {trees others : List ChunkTree} (h : trees.Perm others) :
    sortTrees printable trees = sortTrees printable others := by
  have hperm : (sortTrees printable trees).Perm (sortTrees printable others) :=
    (List.perm_insertionSort _ trees).trans (h.trans (List.perm_insertionSort _ others).symm)
  exact hperm.eq_of_pairwise' (List.pairwise_insertionSort (printedBefore printable) trees)
    (List.pairwise_insertionSort (printedBefore printable) others)

variable {printable} {sha256 : List UInt8 → Digest} {chunks others : List (LegalChunk sha256)}

def idsOf (chunks : List (LegalChunk sha256)) : List UUID7 := chunks.map fun c => c.value.id

/-- Every chunk is a root or the child of a root of its version and provision. -/
structure TwoLevel (chunks : List (LegalChunk sha256)) : Prop where
  ids : (idsOf chunks).Nodup
  parents : ∀ c ∈ chunks, ∀ id ∈ c.value.parentChunkId, ∃ r ∈ rootsOf chunks, r.value.id = id ∧
    r.value.versionId = c.value.versionId ∧ r.value.provisionId = c.value.provisionId

variable {c : LegalChunk sha256}

theorem mem_childrenOf {id : UUID7} :
    c ∈ childrenOf chunks id ↔ c ∈ chunks ∧ c.value.parentChunkId = some id := by
  rw [childrenOf,List.mem_filter,beq_iff_eq]

theorem mem_rootsOf :
    c ∈ rootsOf chunks ↔ c ∈ chunks ∧ c.value.parentChunkId = none := by
  rw [rootsOf,List.mem_filter,beq_iff_eq]

theorem twoLevel_perm (h : TwoLevel chunks) (hperm : chunks.Perm others) : TwoLevel others := by
  constructor
  · exact (hperm.map _).nodup_iff.mp h.ids
  · intro c hc id hid
    obtain ⟨r,hr,hsame⟩ := h.parents c (hperm.mem_iff.mpr hc) id hid
    obtain ⟨hmem,hroot⟩ := mem_rootsOf.mp hr
    exact ⟨r,mem_rootsOf.mpr ⟨hperm.mem_iff.mp hmem,hroot⟩,hsame⟩

theorem eq_of_id (h : (idsOf chunks).Nodup) {c d : LegalChunk sha256} (hc : c ∈ chunks)
    (hd : d ∈ chunks) (hid : c.value.id = d.value.id) : c = d :=
  List.inj_on_of_nodup_map h hc hd hid

theorem chunkById_mem (h : (idsOf chunks).Nodup) (hc : c ∈ chunks) :
    chunkById chunks c.value.id = some c := by
  unfold chunkById
  cases hfind : chunks.find? fun d => d.value.id == c.value.id with
  | none =>
    have hnone := List.find?_eq_none.mp hfind c hc
    simp at hnone
  | some d =>
    have hid := List.find?_some hfind
    rw [eq_of_id h (List.mem_of_find?_eq_some hfind) hc (beq_iff_eq.mp hid)]

theorem checkParents_all {part : List (LegalChunk sha256)}
    (h : ∀ c ∈ part, checkParent chunks c = .ok ()) : checkParents chunks part = .ok () := by
  induction part with
  | nil => rfl
  | cons c cs ih =>
    rw [checkParents,h c List.mem_cons_self]
    exact ih fun d hd => h d (List.mem_cons_of_mem _ hd)

theorem checkParents_ok (h : TwoLevel chunks) : checkParents chunks chunks = .ok () := by
  apply checkParents_all
  intro c hc
  unfold checkParent
  cases hparent : c.value.parentChunkId with
  | none => rfl
  | some id =>
    obtain ⟨r,hr,rfl,hversion,hprovision⟩ := h.parents c hc id hparent
    simp only [chunkById_mem h.ids (mem_rootsOf.mp hr).1]
    exact Outcomes.require_ok.mpr ⟨hversion,hprovision⟩

theorem childrenOf_child (h : TwoLevel chunks) (hc : c ∈ chunks) {id : UUID7}
    (hparent : c.value.parentChunkId = some id) : childrenOf chunks c.value.id = [] := by
  apply List.eq_nil_iff_forall_not_mem.mpr
  intro d hd
  obtain ⟨hmem,hdparent⟩ := mem_childrenOf.mp hd
  obtain ⟨r,hr,hrid,-⟩ := h.parents d hmem c.value.id hdparent
  obtain ⟨hrmem,hroot⟩ := mem_rootsOf.mp hr
  rw [eq_of_id h.ids hrmem hc hrid,hparent] at hroot
  cases hroot

def leafTree (s : ChunkSemantic) : ChunkTree := .node s []

def outline (chunks : List (LegalChunk sha256)) : List (ChunkSemantic × List ChunkSemantic) :=
  (rootsOf chunks).map fun r => (semanticOf r,(childrenOf chunks r.value.id).map semanticOf)

def outlineTree (printable : Char → Bool) (o : ChunkSemantic × List ChunkSemantic) : ChunkTree :=
  .node o.1 (sortTrees printable (o.2.map leafTree))

def rootTree (printable : Char → Bool) (chunks : List (LegalChunk sha256)) (r : LegalChunk sha256) :
    ChunkTree := outlineTree printable (semanticOf r,(childrenOf chunks r.value.id).map semanticOf)

/-- No two children of a root and no two roots say the same. -/
structure Unambiguous (printable : Char → Bool) (chunks : List (LegalChunk sha256)) : Prop where
  siblings : ∀ o ∈ outline chunks, o.2.Nodup
  roots : ((outline chunks).map (outlineTree printable)).Nodup

theorem outline_trees (chunks : List (LegalChunk sha256)) :
    (outline chunks).map (outlineTree printable) =
      (rootsOf chunks).map (rootTree printable chunks) := by
  rw [outline,List.map_map]
  rfl

theorem leafTrees_nodup {semantics : List ChunkSemantic} :
    (semantics.map leafTree).Nodup ↔ semantics.Nodup :=
  List.nodup_map_iff fun _ _ h => (ChunkTree.node.inj h).1

theorem mapM_map {α β : Type} {f : α → Except String β} {g : α → β} {xs : List α}
    (h : ∀ x ∈ xs, f x = .ok (g x)) : xs.mapM f = .ok (xs.map g) := by
  apply Outcomes.mapM_ok.mpr
  rw [List.forall₂_map_right_iff,List.forall₂_same]
  exact h

theorem tree_leaf (printable : Char → Bool) (h : TwoLevel chunks) {r c : LegalChunk sha256}
    (hr : r ∈ rootsOf chunks)
    (hc : c ∈ childrenOf chunks r.value.id) (fuel : ℕ) :
    tree printable chunks (fuel+1) [r.value.id] c = .ok (leafTree (semanticOf c),[c.value.id]) := by
  obtain ⟨hmem,hparent⟩ := mem_childrenOf.mp hc
  obtain ⟨hrmem,hroot⟩ := mem_rootsOf.mp hr
  have hne : c.value.id ∉ [r.value.id] := by
    intro hin
    rw [eq_of_id h.ids hmem hrmem (List.mem_singleton.mp hin),hroot] at hparent
    cases hparent
  rw [tree,if_neg hne,childrenOf_child h hmem hparent]
  rfl

theorem tree_root (h : TwoLevel chunks) {r : LegalChunk sha256} (hr : r ∈ rootsOf chunks)
    (fuel : ℕ) : tree printable chunks (fuel+2) [] r =
      if ((childrenOf chunks r.value.id).map semanticOf).Nodup then
        .ok (rootTree printable chunks r,r.value.id::idsOf (childrenOf chunks r.value.id))
      else .error "ambiguous duplicate sibling" := by
  have hleaves := mapM_map fun c hc => tree_leaf printable h hr hc fuel
  have hsort : (sortTrees printable (((childrenOf chunks r.value.id).map semanticOf).map
      leafTree)).Nodup ↔ ((childrenOf chunks r.value.id).map semanticOf).Nodup :=
    (List.perm_insertionSort _ _).nodup_iff.trans leafTrees_nodup
  generalize hsubtrees : (childrenOf chunks r.value.id).map (fun c =>
    (leafTree (semanticOf c),[c.value.id])) = subtrees at hleaves
  have hfirst : subtrees.map Prod.fst =
    ((childrenOf chunks r.value.id).map semanticOf).map leafTree := by
    rw [← hsubtrees,List.map_map,List.map_map]
    rfl
  have hsecond : subtrees.flatMap Prod.snd = idsOf (childrenOf chunks r.value.id) := by
    rw [← hsubtrees,List.flatMap_map,idsOf,List.map_eq_flatMap]
  rw [tree,if_neg List.not_mem_nil,hleaves]
  change (Outcomes.require (sortTrees printable (subtrees.map Prod.fst)).Nodup _ >>= fun _ =>
    pure (ChunkTree.node (semanticOf r) (sortTrees printable (subtrees.map Prod.fst)),
      r.value.id::subtrees.flatMap Prod.snd)) = _
  rw [hfirst,hsecond]
  by_cases hnodup : ((childrenOf chunks r.value.id).map semanticOf).Nodup
  · rw [if_pos hnodup,Outcomes.require,if_pos (hsort.mpr hnodup)]
    rfl
  · rw [if_neg hnodup,Outcomes.require,if_neg (mt hsort.mp hnodup)]
    rfl

theorem visited_all (h : TwoLevel chunks) (id : UUID7) :
    id ∈ (rootsOf chunks).flatMap (fun r => r.value.id::idsOf (childrenOf chunks r.value.id)) ↔
      id ∈ idsOf chunks := by
  constructor
  · intro hid
    obtain ⟨r,hr,hmem⟩ := List.mem_flatMap.mp hid
    rcases List.mem_cons.mp hmem with rfl | hmem
    · exact List.mem_map_of_mem (mem_rootsOf.mp hr).1
    · obtain ⟨c,hc,rfl⟩ := List.mem_map.mp hmem
      exact List.mem_map_of_mem (mem_childrenOf.mp hc).1
  · intro hid
    obtain ⟨c,hc,rfl⟩ := List.mem_map.mp hid
    cases hparent : c.value.parentChunkId with
    | none =>
      exact List.mem_flatMap.mpr ⟨c,mem_rootsOf.mpr ⟨hc,hparent⟩,List.mem_cons_self⟩
    | some parentId =>
      obtain ⟨r,hr,rfl,-⟩ := h.parents c hc parentId hparent
      refine List.mem_flatMap.mpr ⟨r,hr,List.mem_cons_of_mem _ ?_⟩
      exact List.mem_map_of_mem (mem_childrenOf.mpr ⟨hc,hparent⟩)

theorem visited_length (h : TwoLevel chunks) : ((rootsOf chunks).flatMap fun r =>
    r.value.id::idsOf (childrenOf chunks r.value.id)).dedup.length = chunks.length := by
  have hperm : ((rootsOf chunks).flatMap fun r =>
      r.value.id::idsOf (childrenOf chunks r.value.id)).dedup.Perm (idsOf chunks) := by
    apply (List.perm_ext_iff_of_nodup (List.nodup_dedup _) h.ids).mpr
    intro id
    rw [List.mem_dedup]
    exact visited_all h id
  rw [hperm.length_eq,idsOf,List.length_map]

theorem trees_ok (h : TwoLevel chunks) (hsiblings : ∀ o ∈ outline chunks, o.2.Nodup) :
    (rootsOf chunks).mapM (tree printable chunks (chunks.length+1) []) =
      .ok ((rootsOf chunks).map fun r => (rootTree printable chunks r,
        r.value.id::idsOf (childrenOf chunks r.value.id))) := by
  apply mapM_map
  intro r hr
  obtain ⟨n,hn⟩ := Nat.exists_eq_succ_of_ne_zero
    (List.length_pos_of_mem (mem_rootsOf.mp hr).1).ne'
  rw [hn]
  exact (tree_root h hr n).trans (if_pos (hsiblings _ (List.mem_map_of_mem hr)))

theorem trees_first (chunks : List (LegalChunk sha256)) :
    ((rootsOf chunks).map fun r => (rootTree printable chunks r,
      r.value.id::idsOf (childrenOf chunks r.value.id))).map Prod.fst =
        (outline chunks).map (outlineTree printable) := by
  rw [outline_trees,List.map_map]
  rfl

/-- A graph of two levels is canonical if and only if it is unambiguous. -/
theorem canonicalGraph_ok (printable : Char → Bool) (h : TwoLevel chunks) {trees : List ChunkTree} :
    canonicalGraph printable chunks = .ok trees ↔
      Unambiguous printable chunks ∧ trees = (outline chunks).map (outlineTree printable) := by
  simp only [canonicalGraph,Outcomes.bind_ok,Outcomes.require_ok,checkParents_ok h]
  constructor
  · rintro ⟨_,-,_,-,found,hfound,_,-,_,hroots,htrees⟩
    have hsiblings : ∀ o ∈ outline chunks, o.2.Nodup := by
      intro o ho
      obtain ⟨r,hr,rfl⟩ := List.mem_map.mp ho
      obtain ⟨n,hn⟩ := Nat.exists_eq_succ_of_ne_zero
        (List.length_pos_of_mem (mem_rootsOf.mp hr).1).ne'
      obtain ⟨t,ht⟩ : ∃ t, tree printable chunks (chunks.length+1) [] r = .ok t := by
        obtain ⟨index,hindex,rfl⟩ := List.getElem_of_mem hr
        have hall := Outcomes.mapM_ok.mp hfound
        exact ⟨_,hall.get hindex (hall.length_eq ▸ hindex)⟩
      rw [hn,tree_root h hr] at ht
      by_contra hnot
      rw [if_neg hnot] at ht
      cases ht
    rw [trees_ok h hsiblings] at hfound
    cases hfound
    rw [trees_first] at hroots
    cases htrees
    exact ⟨⟨hsiblings,hroots⟩,trees_first chunks⟩
  · rintro ⟨hclear,rfl⟩
    refine ⟨(),h.ids,(),trivial,_,trees_ok h hclear.siblings,(),?_,(),?_,?_⟩
    · rw [List.flatMap_map]
      exact visited_length h
    · rw [trees_first]
      exact hclear.roots
    · rw [trees_first]
      rfl

theorem canonicalGraph_error (h : TwoLevel chunks) (hnot : ¬Unambiguous printable chunks) :
    ∃ message, canonicalGraph printable chunks = .error message := by
  cases hgraph : canonicalGraph printable chunks with
  | error message => exact ⟨message,rfl⟩
  | ok trees => exact absurd ((canonicalGraph_ok printable h).mp hgraph).1 hnot

/-- Reading the chunks in another order changes neither the trees of the roots
nor whether they are unambiguous. -/
theorem outline_perm (hperm : chunks.Perm others) :
    ((outline chunks).map (outlineTree printable)).Perm ((outline others).map
      (outlineTree printable)) := by
  have hchildren :
    ∀ id, sortTrees printable (((childrenOf chunks id).map semanticOf).map leafTree) =
      sortTrees printable (((childrenOf others id).map semanticOf).map leafTree) := fun id =>
    sortTrees_perm printable (((hperm.filter _).map semanticOf).map leafTree)
  have htrees : (rootsOf others).map (rootTree printable chunks) =
      (rootsOf others).map (rootTree printable others) := by
    apply List.map_congr_left
    intro r _
    rw [rootTree,rootTree,outlineTree,outlineTree,hchildren]
  rw [outline_trees,outline_trees,← htrees]
  exact (hperm.filter _).map _

theorem unambiguous_perm (hperm : chunks.Perm others) (h : Unambiguous printable chunks) :
    Unambiguous printable others := by
  constructor
  · intro o ho
    obtain ⟨r,hr,rfl⟩ := List.mem_map.mp ho
    have hroot : r ∈ rootsOf chunks := (hperm.filter _).mem_iff.mpr hr
    have hsame : ((childrenOf chunks r.value.id).map semanticOf).Perm
        ((childrenOf others r.value.id).map semanticOf) := (hperm.filter _).map _
    exact hsame.nodup_iff.mp (h.siblings _ (List.mem_map_of_mem hroot))
  · exact (outline_perm hperm).nodup_iff.mp h.roots

/-- A graph matches one with the same outline that is read in any order if and
only if it is unambiguous. -/
theorem assert_ok {expected stored actual : List (LegalChunk sha256)}
    (hexpected : TwoLevel expected)
    (hstored : TwoLevel stored) (houtline : outline expected = outline stored)
    (hperm : stored.Perm actual) : assertChunkGraphMatches printable expected actual = .ok () ↔
      Unambiguous printable expected := by
  constructor
  · intro h
    by_contra hnot
    obtain ⟨message,hgraph⟩ := canonicalGraph_error hexpected hnot
    simp only [assertChunkGraphMatches,hgraph] at h
    cases h
  · intro hclear
    have hactual : Unambiguous printable actual := by
      apply unambiguous_perm hperm
      exact ⟨houtline ▸ hclear.siblings,houtline ▸ hclear.roots⟩
    have hgraph := (canonicalGraph_ok printable hexpected).mpr ⟨hclear,rfl⟩
    have hother := (canonicalGraph_ok printable (twoLevel_perm hstored hperm)).mpr
      ⟨hactual,rfl⟩
    simp only [assertChunkGraphMatches,hgraph,hother]
    apply Outcomes.require_ok.mpr
    rw [houtline]
    exact outline_perm hperm

end LawyerAgent.ChunkGraphs
