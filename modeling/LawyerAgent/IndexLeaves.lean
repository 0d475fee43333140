import LawyerAgent.ChunkLayers

/-!
# Leaves for the index

Only chunks that are nobody's parent go into a retrieval index. Before they are
selected the whole parent graph is checked again, by the indexer's own rules.
-/

set_option autoImplicit false

namespace LawyerAgent.IndexLeaves
open Outcomes Linked Common Envelope LegalCorpus
open ChunkGraphs ChunkLayers
open Relation (TransGen ReflTransGen)

variable {sha256 : List UInt8 → Digest}

inductive LeafFailure where
  | indexChunkError (message : String)
  | keyError (id : UUID7)

def idString (id : UUID7) : String := String.ofList (uuidText id)

def checkIndexIds : List UUID7 → List (LegalChunk sha256) → Except LeafFailure Unit
  | _, [] => .ok ()
  | seen, c::cs =>
    if c.value.id ∈ seen then
      .error (.indexChunkError ("duplicate chunk id: "++idString c.value.id))
    else if c.value.quality = .failed then
      .error (.indexChunkError ("failed chunk cannot be indexed: "++idString c.value.id))
    else checkIndexIds (c.value.id::seen) cs

def checkIndexParent (chunks : List (LegalChunk sha256)) (c : LegalChunk sha256) :
    Except LeafFailure Unit :=
  match c.value.parentChunkId with
  | none => .ok ()
  | some parentId =>
    if parentId = c.value.id then
      .error (.indexChunkError ("chunk cannot parent itself: "++idString c.value.id))
    else
      match chunkById chunks parentId with
      | none => .error (.indexChunkError
          ("chunk "++idString c.value.id++" references missing parent "++idString parentId))
      | some parent =>
        if parent.value.versionId ≠ c.value.versionId then
          .error (.indexChunkError "parent and child belong to different versions")
        else if parent.value.provisionId ≠ c.value.provisionId then
          .error (.indexChunkError "parent and child belong to different provisions")
        else .ok ()

def checkIndexParents (chunks : List (LegalChunk sha256)) :
    List (LegalChunk sha256) → Except LeafFailure Unit
  | [] => .ok ()
  | c::cs => do
    checkIndexParent chunks c
    checkIndexParents chunks cs

def unvisited (chunks : List (LegalChunk sha256)) (path : List UUID7) : List (LegalChunk sha256) :=
  chunks.filter fun c => decide (c.value.id ∉ path)

variable {c : LegalChunk sha256} {versionId : UUID7}

theorem unvisited_length {chunks : List (LegalChunk sha256)} {path : List UUID7} {id : UUID7}
    (hnew : id ∉ path) (hc : chunkById chunks id = some c) :
    (unvisited chunks (path++[id])).length < (unvisited chunks path).length := by
  have hmem := List.mem_of_find?_eq_some hc
  have hfound := List.find?_some hc
  have hid : c.value.id = id := beq_iff_eq.mp hfound
  have hsplit : unvisited chunks (path++[id]) =
      (unvisited chunks path).filter fun d => decide (d.value.id ≠ id) := by
    rw [unvisited,unvisited,List.filter_filter]
    apply List.filter_congr
    intro d _
    simp [and_comm]
  rw [hsplit,List.length_filter_lt_length_iff_exists]
  exact ⟨c,List.mem_filter.mpr ⟨hmem,by simpa [hid] using hnew⟩,by simp [hid]⟩

/-- The chain of parents from one chunk, up to a root or a validated chunk. -/
def walk (chunks : List (LegalChunk sha256)) (validated path : List UUID7) :
    Option UUID7 → Except LeafFailure (List UUID7)
  | none => .ok path
  | some id =>
    if id ∈ validated then .ok path
    else if _ : id ∈ path then
      .error (.indexChunkError "chunk parent graph contains a cycle")
    else
      match _ : chunkById chunks id with
      | none => .error (.keyError id)
      | some c => walk chunks validated (path++[id]) c.value.parentChunkId
termination_by (unvisited chunks path).length
decreasing_by exact unvisited_length ‹_› ‹_›

def rejectCycles (chunks : List (LegalChunk sha256)) :
    List UUID7 → List UUID7 → Except LeafFailure Unit
  | _, [] => .ok ()
  | validated, startId::ids =>
    if startId ∈ validated then rejectCycles chunks validated ids
    else do
      let path ← walk chunks validated [] (some startId)
      rejectCycles chunks (validated++path) ids

def parentIds (chunks : List (LegalChunk sha256)) : List UUID7 :=
  chunks.filterMap fun c => c.value.parentChunkId

def selectIndexLeaves (chunks : List (LegalChunk sha256)) :
    Except LeafFailure (List (LegalChunk sha256)) := do
  checkIndexIds [] chunks
  checkIndexParents chunks chunks
  rejectCycles chunks [] (idsOf chunks)
  return chunks.filter fun c => decide (c.value.id ∉ parentIds chunks)

variable {chunks : List (LegalChunk sha256)}

theorem checkIndexIds_iff {seen : List UUID7} : checkIndexIds seen chunks = .ok () ↔
    (∀ c ∈ chunks, c.value.quality ≠ .failed) ∧ (idsOf chunks).Nodup ∧
      ∀ id ∈ idsOf chunks, id ∉ seen := by
  induction chunks generalizing seen with
  | nil => simp [checkIndexIds,idsOf]
  | cons c cs ih =>
    rw [checkIndexIds]
    by_cases hseen : c.value.id ∈ seen
    · simp [hseen,idsOf]
    by_cases hfailed : c.value.quality = .failed
    · simp [hseen,hfailed]
    rw [if_neg hseen,if_neg hfailed,ih]
    simp only [idsOf,List.map_cons,List.nodup_cons,List.forall_mem_cons]
    constructor
    · rintro ⟨hquality,honce,hnew⟩
      refine ⟨⟨hfailed,hquality⟩,⟨?_,honce⟩,hseen,?_⟩
      · exact fun hmem => hnew _ hmem List.mem_cons_self
      · exact fun id hid hold => hnew id hid (List.mem_cons_of_mem _ hold)
    · rintro ⟨⟨-,hquality⟩,⟨hfresh,honce⟩,-,hnew⟩
      refine ⟨hquality,honce,fun id hid hold => ?_⟩
      rcases List.mem_cons.mp hold with rfl | hold
      · exact hfresh hid
      · exact hnew id hid hold

theorem chunkById_iff (honce : (idsOf chunks).Nodup) {id : UUID7} {p : LegalChunk sha256} :
    chunkById chunks id = some p ↔ p ∈ chunks ∧ p.value.id = id := by
  constructor
  · intro h
    have hfound := List.find?_some h
    exact ⟨List.mem_of_find?_eq_some h,beq_iff_eq.mp hfound⟩
  · rintro ⟨hp,rfl⟩
    cases hfound : chunkById chunks p.value.id with
    | none =>
      have hnone := List.find?_eq_none.mp hfound p hp
      simp at hnone
    | some q =>
      have hsame := List.find?_some hfound
      have hid : q.value.id = p.value.id := beq_iff_eq.mp hsame
      rw [List.inj_on_of_nodup_map honce (List.mem_of_find?_eq_some hfound) hp hid]

theorem checkIndexParents_iff (hversion : ∀ c ∈ chunks, c.value.versionId = versionId)
    (honce : (idsOf chunks).Nodup) {part : List (LegalChunk sha256)} (hpart : part ⊆ chunks) :
    checkIndexParents chunks part = .ok () ↔ ∀ c ∈ part, ∀ parentId,
      c.value.parentChunkId = some parentId → parentId ≠ c.value.id ∧
        ∃ p ∈ chunks, p.value.id = parentId ∧ p.value.provisionId = c.value.provisionId := by
  induction part with
  | nil => simp [checkIndexParents]
  | cons c part ih =>
    have hc : c ∈ chunks := hpart List.mem_cons_self
    have hrest := ih fun d hd => hpart (List.mem_cons_of_mem c hd)
    rw [checkIndexParents,List.forall_mem_cons,← hrest]
    have hhead : checkIndexParent chunks c = .ok () ↔ ∀ parentId,
        c.value.parentChunkId = some parentId → parentId ≠ c.value.id ∧
          ∃ p ∈ chunks, p.value.id = parentId ∧ p.value.provisionId = c.value.provisionId := by
      rw [checkIndexParent]
      cases hparent : c.value.parentChunkId with
      | none => simp
      | some parentId =>
        simp only [Option.some.injEq,forall_eq']
        by_cases hself : parentId = c.value.id
        · simp [hself]
        cases hfound : chunkById chunks parentId with
        | none =>
          simp only [hself,if_false,reduceCtorEq,false_iff,not_and,not_exists]
          rintro - p hp hid
          have hsome := (chunkById_iff honce).mpr ⟨hp,hid⟩
          rw [hfound] at hsome
          cases hsome
        | some p =>
          obtain ⟨hp,hid⟩ := (chunkById_iff honce).mp hfound
          have hsame : p.value.versionId = c.value.versionId :=
            (hversion p hp).trans (hversion c hc).symm
          simp only [hself,if_false,hsame,ne_eq,not_true_eq_false,not_false_eq_true,true_and]
          by_cases hprovision : p.value.provisionId = c.value.provisionId
          · simp only [hprovision,not_true_eq_false,if_false,true_iff]
            exact ⟨p,hp,hid,hprovision⟩
          · simp only [hprovision,not_false_eq_true,if_true,reduceCtorEq,false_iff]
            rintro ⟨q,hq,hqid,hequal⟩
            have hqp := List.inj_on_of_nodup_map honce hq hp (hqid.trans hid.symm)
            exact hprovision (hqp ▸ hequal)
    rw [← hhead]
    cases checkIndexParent chunks c with
    | error e => simp [bind,Except.bind]
    | ok u => simp [bind,Except.bind]

def Grounded (chunks : List (LegalChunk sha256)) (c : LegalChunk sha256) : Prop :=
  Acc (fun p d => ParentIn chunks d p) c

theorem grounded_acyclic (h : Grounded chunks c) :
    ¬TransGen (ParentIn chunks) c c := by
  induction h with
  | intro c _ ih =>
    intro hcycle
    obtain ⟨p,hcp,hback⟩ := TransGen.head'_iff.mp hcycle
    exact ih p hcp (TransGen.tail' hback hcp)

theorem walk_grounded (honce : (idsOf chunks).Nodup) {validated path out : List UUID7}
    {current : Option UUID7} (h : walk chunks validated path current = .ok out)
    (hvalidated : ∀ c ∈ chunks, c.value.id ∈ validated → Grounded chunks c) :
    (∀ c ∈ chunks, current = some c.value.id → Grounded chunks c) ∧
      ∀ c ∈ chunks, c.value.id ∈ out → c.value.id ∈ path ∨ Grounded chunks c := by
  induction path, current using walk.induct chunks validated with
  | case1 path =>
    rw [walk] at h
    cases h
    exact ⟨by simp,fun c _ hid => Or.inl hid⟩
  | case2 path id hdone =>
    rw [walk,if_pos hdone] at h
    cases h
    refine ⟨?_,fun c _ hid => Or.inl hid⟩
    rintro c hc hid
    exact hvalidated c hc (Option.some_inj.mp hid ▸ hdone)
  | case3 path id hopen hold =>
    rw [walk,if_neg hopen,dif_pos hold] at h
    cases h
  | case4 path id hopen hnew hnone =>
    rw [walk,if_neg hopen,dif_neg hnew] at h
    split at h
    · cases h
    · next c hc => rw [hnone] at hc; cases hc
  | case5 path id hopen hnew c hfound ih =>
    rw [walk,if_neg hopen,dif_neg hnew] at h
    split at h
    · cases h
    · next d hd =>
      rw [hfound] at hd
      cases hd
      obtain ⟨hparents,hout⟩ := ih h
      obtain ⟨hc,hid⟩ := (chunkById_iff honce).mp hfound
      have hground : Grounded chunks c := by
        constructor
        rintro p ⟨-,hp,hparent⟩
        exact hparents p hp hparent
      have hsame : ∀ d ∈ chunks, d.value.id = id → Grounded chunks d := by
        intro d hd hdid
        rwa [List.inj_on_of_nodup_map honce hd hc (hdid.trans hid.symm)]
      refine ⟨fun d hd hdid => hsame d hd (Option.some_inj.mp hdid).symm,?_⟩
      intro d hd hmem
      rcases hout d hd hmem with hpath | hdone
      · rcases List.mem_append.mp hpath with hold | hlast
        · exact Or.inl hold
        · exact Or.inr (hsame d hd (List.mem_singleton.mp hlast))
      · exact Or.inr hdone

theorem rejectCycles_grounded (honce : (idsOf chunks).Nodup) {validated ids : List UUID7}
    (h : rejectCycles chunks validated ids = .ok ())
    (hvalidated : ∀ c ∈ chunks, c.value.id ∈ validated → Grounded chunks c) :
    ∀ c ∈ chunks, c.value.id ∈ ids → Grounded chunks c := by
  induction ids generalizing validated with
  | nil => simp
  | cons id ids ih =>
    rw [rejectCycles] at h
    by_cases hdone : id ∈ validated
    · rw [if_pos hdone] at h
      intro c hc hmem
      rcases List.mem_cons.mp hmem with hid | hrest
      · exact hvalidated c hc (hid ▸ hdone)
      · exact ih h hvalidated c hc hrest
    · rw [if_neg hdone,bind_ok] at h
      obtain ⟨path,hwalk,hrest⟩ := h
      obtain ⟨hstart,hpath⟩ := walk_grounded honce hwalk hvalidated
      have hmore : ∀ c ∈ chunks, c.value.id ∈ validated++path → Grounded chunks c := by
        intro c hc hmem
        rcases List.mem_append.mp hmem with hold | hnew
        · exact hvalidated c hc hold
        · exact (hpath c hc hnew).resolve_left List.not_mem_nil
      intro c hc hmem
      rcases List.mem_cons.mp hmem with hid | hlater
      · exact hstart c hc (hid ▸ rfl)
      · exact ih hrest hmore c hc hlater

theorem walk_ends (honce : (idsOf chunks).Nodup)
    (hparents : ∀ c ∈ chunks, ∀ parentId, c.value.parentChunkId = some parentId →
      ∃ p ∈ chunks, p.value.id = parentId)
    (hacyclic : ∀ c, ¬TransGen (ParentIn chunks) c c) {validated path : List UUID7}
    {current : Option UUID7} (hcurrent : ∀ id, current = some id → ∃ c ∈ chunks, c.value.id = id)
    (hpath : ∀ c ∈ chunks, c.value.id ∈ path → ∀ d ∈ chunks, current = some d.value.id →
      TransGen (ParentIn chunks) c d) :
    ∃ out, walk chunks validated path current = .ok out := by
  induction path, current using walk.induct chunks validated with
  | case1 path => exact ⟨path,by rw [walk]⟩
  | case2 path id hdone => exact ⟨path,by rw [walk,if_pos hdone]⟩
  | case3 path id hopen hold =>
    obtain ⟨c,hc,rfl⟩ := hcurrent id rfl
    exact absurd (hpath c hc hold c hc rfl) (hacyclic c)
  | case4 path id hopen hnew hnone =>
    obtain ⟨c,hc,hid⟩ := hcurrent id rfl
    have hsome := (chunkById_iff honce).mpr ⟨hc,hid⟩
    rw [hnone] at hsome
    cases hsome
  | case5 path id hopen hnew c hfound ih =>
    obtain ⟨hc,hid⟩ := (chunkById_iff honce).mp hfound
    rw [walk,if_neg hopen,dif_neg hnew]
    split
    · next hnone => rw [hnone] at hfound; cases hfound
    · next d hd =>
      rw [hfound] at hd
      cases hd
      refine ih (hparents c hc) ?_
      intro d hd hmem p hp hparent
      have hstep : ParentIn chunks c p := ⟨hc,hp,hparent⟩
      rcases List.mem_append.mp hmem with hold | hlast
      · exact (hpath d hd hold c hc (hid ▸ rfl)).tail hstep
      · have hdc := List.inj_on_of_nodup_map honce hd hc
          ((List.mem_singleton.mp hlast).trans hid.symm)
        exact hdc ▸ .single hstep

theorem rejectCycles_ends (honce : (idsOf chunks).Nodup)
    (hparents : ∀ c ∈ chunks, ∀ parentId, c.value.parentChunkId = some parentId →
      ∃ p ∈ chunks, p.value.id = parentId)
    (hacyclic : ∀ c, ¬TransGen (ParentIn chunks) c c) {ids : List UUID7}
    (hids : ∀ id ∈ ids, ∃ c ∈ chunks, c.value.id = id) (validated : List UUID7) :
    rejectCycles chunks validated ids = .ok () := by
  induction ids generalizing validated with
  | nil => rfl
  | cons id ids ih =>
    have hlater := ih fun i hi => hids i (List.mem_cons_of_mem id hi)
    rw [rejectCycles]
    split
    · exact hlater validated
    · have hstart : ∀ i, some id = some i → ∃ c ∈ chunks, c.value.id = i :=
        fun i hi => Option.some_inj.mp hi ▸ hids id List.mem_cons_self
      have hwalk : ∃ path, walk chunks validated [] (some id) = .ok path :=
        walk_ends honce hparents hacyclic hstart (by simp)
      obtain ⟨path,hwalk⟩ := hwalk
      rw [hwalk]
      exact hlater _

theorem mem_parentIds {id : UUID7} :
    id ∈ parentIds chunks ↔ ∃ c ∈ chunks, c.value.parentChunkId = some id := List.mem_filterMap

def isLeaf (chunks : List (LegalChunk sha256)) (c : LegalChunk sha256) : Bool :=
  decide (∀ d ∈ chunks, d.value.parentChunkId ≠ some c.value.id)

theorem leaf_below (hacyclic : ∀ c, ¬TransGen (ParentIn chunks) c c) (hc : c ∈ chunks) :
    ∃ l ∈ chunks.filter (isLeaf chunks), ReflTransGen (ParentIn chunks) l c := by
  classical
  by_contra hno
  have hbelow : ∀ d ∈ chunks.filter fun d => decide (ReflTransGen (ParentIn chunks) d c),
      ∃ e ∈ chunks.filter fun e => decide (ReflTransGen (ParentIn chunks) e c),
        ParentIn chunks e d := by
    intro d hd
    obtain ⟨hmem,hreach⟩ := List.mem_filter.mp hd
    have hreach : ReflTransGen (ParentIn chunks) d c := of_decide_eq_true hreach
    have hinner : isLeaf chunks d ≠ true := fun hleaf =>
      hno ⟨d,List.mem_filter.mpr ⟨hmem,hleaf⟩,hreach⟩
    rw [isLeaf,Ne,decide_eq_true_iff] at hinner
    push Not at hinner
    obtain ⟨e,he,hparent⟩ := hinner
    have hstep : ParentIn chunks e d := ⟨he,hmem,hparent⟩
    exact ⟨e,List.mem_filter.mpr ⟨he,decide_eq_true (.head hstep hreach)⟩,hstep⟩
  have hstart : c ∈ chunks.filter fun d => decide (ReflTransGen (ParentIn chunks) d c) :=
    List.mem_filter.mpr ⟨hc,decide_eq_true .refl⟩
  obtain ⟨d,-,hcycle⟩ := exists_cycle (List.ne_nil_of_mem hstart) hbelow
  exact hacyclic d (Relation.transGen_swap.mp hcycle)

theorem selectIndexLeaves_ok (hversion : ∀ c ∈ chunks, c.value.versionId = versionId)
    {leaves : List (LegalChunk sha256)} (h : selectIndexLeaves chunks = .ok leaves) :
    Layerable versionId chunks ∧ leaves = chunks.filter (isLeaf chunks) := by
  simp only [selectIndexLeaves,bind_ok] at h
  obtain ⟨_,hids,_,hparents,_,hcycles,hleaves⟩ := h
  obtain ⟨-,honce,-⟩ := checkIndexIds_iff.mp hids
  have hall := (checkIndexParents_iff hversion honce (List.Subset.refl chunks)).mp hparents
  have hground := rejectCycles_grounded honce hcycles (by simp)
  have hacyclic : ∀ c, ¬TransGen (ParentIn chunks) c c := by
    intro c hcycle
    obtain ⟨p,hcp,-⟩ := TransGen.head'_iff.mp hcycle
    exact grounded_acyclic (hground c hcp.1 (List.mem_map_of_mem hcp.1)) hcycle
  refine ⟨⟨hversion,honce,fun c hc id hid => (hall c hc id hid).2,hacyclic⟩,?_⟩
  rw [← ok_inj.mp hleaves]
  apply List.filter_congr
  intro c _
  rw [isLeaf,decide_eq_decide,mem_parentIds]
  simp

theorem selectIndexLeaves_succeeds (h : Layerable versionId chunks)
    (hquality : ∀ c ∈ chunks, c.value.quality ≠ .failed) :
    ∃ leaves, selectIndexLeaves chunks = .ok leaves := by
  have hids := checkIndexIds_iff.mpr ⟨hquality,h.once,fun _ _ => List.not_mem_nil⟩
  have hpresent : ∀ c ∈ chunks, ∀ parentId, c.value.parentChunkId = some parentId →
      ∃ p ∈ chunks, p.value.id = parentId := by
    intro c hc parentId hparent
    obtain ⟨p,hp,hid,-⟩ := h.parents c hc parentId hparent
    exact ⟨p,hp,hid⟩
  have hparents : checkIndexParents chunks chunks = .ok () := by
    rw [checkIndexParents_iff h.version h.once (List.Subset.refl chunks)]
    intro c hc parentId hparent
    refine ⟨?_,h.parents c hc parentId hparent⟩
    rintro rfl
    exact h.acyclic c (.single ⟨hc,hc,hparent⟩)
  have hstarts : ∀ id ∈ idsOf chunks, ∃ c ∈ chunks, c.value.id = id := fun id hid =>
    List.mem_map.mp hid
  have hcycles := rejectCycles_ends h.once hpresent h.acyclic hstarts []
  refine ⟨chunks.filter fun c => decide (c.value.id ∉ parentIds chunks),?_⟩
  simp only [selectIndexLeaves,bind_ok]
  exact ⟨(),hids,(),hparents,(),hcycles,rfl⟩

/-- The indexer accepts what the repository stores, and its leaves are the chunks
without children: below every chunk there is one. -/
theorem leaves_of_stored {versionId : UUID7} {chunks : List (LegalChunk sha256)}
    (hversion : ∀ c ∈ chunks, c.value.versionId = versionId)
    (hquality : ∀ c ∈ chunks, c.value.quality ≠ .failed) :
    ((∃ leaves, selectIndexLeaves chunks = .ok leaves) ↔
        ∃ layers, validateAndLayerChunks versionId chunks = .ok layers) ∧
      ((∃ leaves, selectIndexLeaves chunks = .ok leaves) ↔
        (idsOf chunks).Nodup ∧
          (∀ c ∈ chunks, ∀ parentId, c.value.parentChunkId = some parentId →
            ∃ p ∈ chunks, p.value.id = parentId ∧ p.value.provisionId = c.value.provisionId) ∧
          ∀ c, ¬TransGen (ParentIn chunks) c c) ∧
      ∀ leaves, selectIndexLeaves chunks = .ok leaves →
        leaves = chunks.filter (isLeaf chunks) ∧ (idsOf leaves).Nodup ∧
          ∀ c ∈ chunks, ∃ l ∈ leaves, ReflTransGen (ParentIn chunks) l c := by
  have hselect : (∃ leaves, selectIndexLeaves chunks = .ok leaves) ↔ Layerable versionId chunks :=
    ⟨fun ⟨_,h⟩ => (selectIndexLeaves_ok hversion h).1,
      fun h => selectIndexLeaves_succeeds h hquality⟩
  refine ⟨?_,?_,?_⟩
  · rw [hselect]
    exact ⟨validate_succeeds,fun ⟨_,h⟩ => (validate_layered h).2⟩
  · rw [hselect]
    exact ⟨fun h => ⟨h.once,h.parents,h.acyclic⟩,fun h => ⟨hversion,h.1,h.2.1,h.2.2⟩⟩
  · intro leaves h
    obtain ⟨hforest,hleaves⟩ := selectIndexLeaves_ok hversion h
    rw [hleaves]
    exact ⟨rfl,hforest.once.sublist (List.filter_sublist.map _),
      fun c hc => leaf_below hforest.acyclic hc⟩

def articleFields (n : ℕ) (parent : Option UUID7) : LegalChunkFields where
  id := ⟨0,n,0⟩
  versionId := ⟨0,1,0⟩
  provisionId := ⟨0,2,0⟩
  chunkType := .provision
  quality := .ok
  content := "text".toList
  contentHash := 0
  parentChunkId := parent
  parserVersion := none
  parentRelativeCharStart := none
  parentRelativeCharEnd := none

def articleChunk (n : ℕ) (parent : Option UUID7) : LegalChunk fun _ => (0 : Digest) :=
  ⟨articleFields n parent,rfl⟩

theorem leaves_of_article : ∃ leaves, selectIndexLeaves
    [articleChunk 3 none,articleChunk 4 (some ⟨0,3,0⟩)] = .ok leaves := by
  have hversion : ∀ c ∈ [articleChunk 3 none,articleChunk 4 (some ⟨0,3,0⟩)],
      c.value.versionId = ⟨0,1,0⟩ := by decide
  have hquality : ∀ c ∈ [articleChunk 3 none,articleChunk 4 (some ⟨0,3,0⟩)],
      c.value.quality ≠ .failed := by decide
  have hstored := leaves_of_stored hversion hquality
  rw [hstored.1]
  have hcount : ((validateAndLayerChunks ⟨0,1,0⟩ [articleChunk 3 none,
      articleChunk 4 (some ⟨0,3,0⟩)]).toOption.map List.length) = some 2 := by decide +kernel
  cases hlayers : validateAndLayerChunks ⟨0,1,0⟩ [articleChunk 3 none,
      articleChunk 4 (some ⟨0,3,0⟩)] with
  | ok layers => exact ⟨layers,rfl⟩
  | error e =>
    rw [hlayers] at hcount
    cases hcount

end LawyerAgent.IndexLeaves
