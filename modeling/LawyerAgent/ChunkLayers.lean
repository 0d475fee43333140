import LawyerAgent.ChunkPersistence
import LawyerAgent.Linked.Chains

/-!
# Layers of a chunk graph

Before the chunks of a version are replaced they are put into layers, every
parent before its children. That fails for a graph which is no forest of the
version, and then the stored chunks stay.
-/

set_option autoImplicit false

namespace LawyerAgent.ChunkLayers
open Relational Common LegalCorpus
open ChunkGraphs ChunkPersistence
open Relation (TransGen)

variable {sha256 : List UInt8 → Digest} {versionId : UUID7} {chunks : List (LegalChunk sha256)}

/-- The second chunk of the list is the parent of the first one. -/
def ParentIn (chunks : List (LegalChunk sha256)) (c p : LegalChunk sha256) : Prop :=
  c ∈ chunks ∧ p ∈ chunks ∧ c.value.parentChunkId = some p.value.id

structure Layerable (versionId : UUID7) (chunks : List (LegalChunk sha256)) : Prop where
  version : ∀ c ∈ chunks, c.value.versionId = versionId
  once : (idsOf chunks).Nodup
  parents : ∀ c ∈ chunks, ∀ parentId, c.value.parentChunkId = some parentId →
    ∃ p ∈ chunks, p.value.id = parentId ∧ p.value.provisionId = c.value.provisionId
  acyclic : ∀ c, ¬TransGen (ParentIn chunks) c c

/-- The chunk stands in a layer before the `i`-th. -/
def StandsBefore (layers : List (List (LegalChunk sha256))) (i : ℕ) (id : UUID7) : Prop :=
  ∃ j < i, ∃ before, layers[j]? = some before ∧ id ∈ idsOf before

/-- Each chunk once, every parent in an earlier layer. -/
structure Layered (chunks : List (LegalChunk sha256)) (layers : List (List (LegalChunk sha256))) :
    Prop where
  perm : layers.flatten.Perm chunks
  once : (idsOf layers.flatten).Nodup
  earlier : ∀ (i : ℕ) (layer : List (LegalChunk sha256)), layers[i]? = some layer →
    ∀ c ∈ layer, ∀ parentId, c.value.parentChunkId = some parentId → StandsBefore layers i parentId

theorem checkChunkParents_iff {part : List (LegalChunk sha256)} (hids : (idsOf chunks).Nodup) :
    checkChunkParents chunks part = .ok () ↔ ∀ c ∈ part, ∀ parentId,
      c.value.parentChunkId = some parentId →
        ∃ p ∈ chunks, p.value.id = parentId ∧ p.value.provisionId = c.value.provisionId := by
  induction part with
  | nil => simp [checkChunkParents]
  | cons c part ih =>
    rw [checkChunkParents,List.forall_mem_cons]
    cases hparent : c.value.parentChunkId with
    | none => simpa using ih
    | some parentId =>
      dsimp only
      cases hfound : chunkById chunks parentId with
      | none =>
        have hnone := List.find?_eq_none.mp hfound
        simp only [Option.some.injEq,forall_eq',reduceCtorEq,false_iff]
        rintro ⟨⟨p,hp,hid,-⟩,-⟩
        simp at hnone
        exact hnone p hp hid
      | some parent =>
        have hmem := List.mem_of_find?_eq_some hfound
        have hsome := List.find?_some hfound
        have hid : parent.value.id = parentId := beq_iff_eq.mp hsome
        dsimp only
        split_ifs with hprovision
        · simp only [Option.some.injEq,forall_eq',false_iff]
          rintro ⟨⟨p,hp,hsame,hequal⟩,-⟩
          have hpp : p = parent := List.inj_on_of_nodup_map hids hp hmem (hsame.trans hid.symm)
          rw [hpp] at hequal
          exact hprovision hequal
        · rw [ih]
          simp only [Option.some.injEq,forall_eq']
          constructor
          · exact fun h => ⟨⟨parent,hmem,hid,not_not.mp hprovision⟩,h⟩
          · exact fun h => h.2

variable {layers : List (List (LegalChunk sha256))} {pending : List (LegalChunk sha256)}

theorem layersFrom_earlier {inserted : List UUID7} (h : layersFrom inserted pending = .ok layers) :
    ∀ (i : ℕ) (layer : List (LegalChunk sha256)), layers[i]? = some layer → ∀ c ∈ layer,
      ∀ parentId, c.value.parentChunkId = some parentId →
        parentId ∈ inserted ∨ StandsBefore layers i parentId := by
  induction inserted, pending using layersFrom.induct generalizing layers with
  | case1 inserted =>
    rw [layersFrom,if_pos rfl] at h
    cases h
    simp
  | case2 inserted pending hne hlayer =>
    rw [layersFrom,if_neg hne,if_pos hlayer] at h
    cases h
  | case3 inserted pending hne hlayer ih =>
    rw [layersFrom,if_neg hne,if_neg hlayer] at h
    cases hrest : layersFrom (inserted++(nextLayer inserted pending).map fun c => c.value.id)
        (laterLayers inserted pending) with
    | error e =>
      rw [hrest] at h
      cases h
    | ok rest =>
      rw [hrest] at h
      cases h
      intro i layer hget c hc parentId hparent
      cases i with
      | zero =>
        rw [List.getElem?_cons_zero,Option.some_inj] at hget
        rw [← hget] at hc
        have hready := (List.mem_filter.mp hc).2
        rw [layerReady,hparent] at hready
        exact Or.inl (of_decide_eq_true hready)
      | succ i =>
        rw [List.getElem?_cons_succ] at hget
        rcases ih hrest i layer hget c hc parentId hparent with hinserted | ⟨j,hj,before,hbefore,
          hid⟩
        · rcases List.mem_append.mp hinserted with hold | hnew
          · exact Or.inl hold
          · exact Or.inr ⟨0,Nat.succ_pos i,_,rfl,hnew⟩
        · exact Or.inr ⟨j+1,Nat.succ_lt_succ hj,before,hbefore,hid⟩

theorem layersFrom_stuck {inserted : List UUID7} {e : CorpusFailure}
    (h : layersFrom inserted pending = .error e)
    (hparents : ∀ c ∈ pending, ∀ parentId, c.value.parentChunkId = some parentId → parentId ∈
      inserted ∨ parentId ∈ idsOf pending) :
    ∃ stuck, stuck ≠ [] ∧ (∀ c ∈ stuck, c ∈ pending) ∧ ∀ c ∈ stuck, ∃ p ∈ stuck,
      c.value.parentChunkId = some p.value.id := by
  induction inserted, pending using layersFrom.induct generalizing e with
  | case1 inserted =>
    rw [layersFrom,if_pos rfl] at h
    cases h
  | case2 inserted pending hne hlayer =>
    refine ⟨pending,hne,fun _ hc => hc,?_⟩
    intro c hc
    have hwaits := List.filter_eq_nil_iff.mp hlayer c hc
    cases hparent : c.value.parentChunkId with
    | none => simp [layerReady,hparent] at hwaits
    | some parentId =>
      have hnew : parentId ∉ inserted := by simpa [layerReady,hparent] using hwaits
      obtain ⟨p,hp,hid⟩ := List.mem_map.mp ((hparents c hc parentId hparent).resolve_left hnew)
      exact ⟨p,hp,by rw [hid]⟩
  | case3 inserted pending hne hlayer ih =>
    rw [layersFrom,if_neg hne,if_neg hlayer] at h
    have hlater : ∀ c ∈ laterLayers inserted pending, c ∈ pending := fun c hc =>
      (List.mem_filter.mp hc).1
    cases hrest : layersFrom (inserted++(nextLayer inserted pending).map fun c => c.value.id)
        (laterLayers inserted pending) with
    | ok rest =>
      rw [hrest] at h
      cases h
    | error e' =>
      have hnext : ∀ c ∈ laterLayers inserted pending, ∀ parentId,
          c.value.parentChunkId = some parentId →
            parentId ∈ inserted++(nextLayer inserted pending).map (fun c => c.value.id) ∨
              parentId ∈ idsOf (laterLayers inserted pending) := by
        intro c hc parentId hparent
        rcases hparents c (hlater c hc) parentId hparent with hinserted | hwaits
        · exact Or.inl (List.mem_append_left _ hinserted)
        · obtain ⟨p,hp,hid⟩ := List.mem_map.mp hwaits
          cases hready : layerReady inserted p with
          | true =>
            left
            apply List.mem_append_right
            exact List.mem_map.mpr ⟨p,List.mem_filter.mpr ⟨hp,hready⟩,hid⟩
          | false =>
            right
            exact List.mem_map.mpr ⟨p,List.mem_filter.mpr ⟨hp,by simp [hready]⟩,hid⟩
      obtain ⟨stuck,hsome,hsubset,hwaits⟩ := ih hrest hnext
      exact ⟨stuck,hsome,fun c hc => hlater c (hsubset c hc),hwaits⟩

theorem Layered.parent_lower (h : Layered chunks layers) {c p : LegalChunk sha256} {i : ℕ}
    (hcp : ParentIn chunks c p) (hc : ∃ layer, layers[i]? = some layer ∧ c ∈ layer) :
    ∃ j < i, ∃ layer, layers[j]? = some layer ∧ p ∈ layer := by
  obtain ⟨layer,hget,hmem⟩ := hc
  obtain ⟨-,hp,hparent⟩ := hcp
  obtain ⟨j,hj,before,hbefore,hid⟩ := h.earlier i layer hget c hmem _ hparent
  obtain ⟨q,hq,hsame⟩ := List.mem_map.mp hid
  have hflat : q ∈ layers.flatten :=
    List.mem_flatten.mpr ⟨before,List.mem_of_getElem? hbefore,hq⟩
  have hpq : q = p := List.inj_on_of_nodup_map h.once hflat (h.perm.mem_iff.mpr hp) hsame
  exact ⟨j,hj,before,hbefore,hpq ▸ hq⟩

theorem Layered.acyclic (h : Layered chunks layers) (c : LegalChunk sha256) :
    ¬TransGen (ParentIn chunks) c c := by
  intro hcycle
  have hc : c ∈ chunks := by
    obtain ⟨p,hcp,-⟩ := Relation.TransGen.head'_iff.mp hcycle
    exact hcp.1
  obtain ⟨layer,hlayer,hmem⟩ := List.mem_flatten.mp (h.perm.mem_iff.mpr hc)
  obtain ⟨i,hget⟩ := List.mem_iff_getElem?.mp hlayer
  have hlower : ∀ a b i, ParentIn chunks a b → (∃ layer, layers[i]? = some layer ∧ a ∈ layer) →
      ∃ j < i, ∃ layer, layers[j]? = some layer ∧ b ∈ layer :=
    fun _ _ _ hab ha => h.parent_lower hab ha
  exact Linked.no_cycle hlower ⟨layer,hget,hmem⟩ hcycle

theorem validate_layered (h : validateAndLayerChunks versionId chunks = .ok layers) :
    Layered chunks layers ∧ Layerable versionId chunks := by
  simp only [validateAndLayerChunks,Outcomes.bind_ok] at h
  obtain ⟨_,hids,_,hparents,hlayers⟩ := h
  obtain ⟨hversions,honce,-⟩ := checkChunkIds_ok hids
  have hperm := layersFrom_perm hlayers
  have hlayered : Layered chunks layers := by
    refine ⟨hperm,(hperm.map _).nodup_iff.mpr honce,?_⟩
    intro i layer hget c hc parentId hparent
    rcases layersFrom_earlier hlayers i layer hget c hc parentId hparent with hnone | hbefore
    · exact absurd hnone List.not_mem_nil
    · exact hbefore
  exact ⟨hlayered,hversions,honce,(checkChunkParents_iff honce).mp hparents,hlayered.acyclic⟩

theorem validate_succeeds (h : Layerable versionId chunks) :
    ∃ layers, validateAndLayerChunks versionId chunks = .ok layers := by
  have hids := checkChunkIds_succeeds h.version h.once fun _ _ => List.not_mem_nil
  have hparents := (checkChunkParents_iff h.once).mpr h.parents
  have hpending : ∀ c ∈ chunks, ∀ parentId, c.value.parentChunkId = some parentId →
      parentId ∈ ([] : List UUID7) ∨ parentId ∈ idsOf chunks := by
    intro c hc parentId hparent
    obtain ⟨p,hp,rfl,-⟩ := h.parents c hc parentId hparent
    exact Or.inr (List.mem_map_of_mem hp)
  cases hlayers : layersFrom [] chunks with
  | error e =>
    obtain ⟨stuck,hsome,hsubset,hwaits⟩ := layersFrom_stuck hlayers hpending
    have hnext : ∀ c ∈ stuck, ∃ p ∈ stuck, ParentIn chunks c p := by
      intro c hc
      obtain ⟨p,hp,hparent⟩ := hwaits c hc
      exact ⟨p,hp,hsubset c hc,hsubset p hp,hparent⟩
    obtain ⟨c,-,hcycle⟩ := Linked.exists_cycle hsome hnext
    exact absurd hcycle (h.acyclic c)
  | ok layers =>
    refine ⟨layers,?_⟩
    simp only [validateAndLayerChunks,Outcomes.bind_ok]
    exact ⟨(),hids,(),hparents,hlayers⟩

def Faulty (versionId : UUID7) (chunks : List (LegalChunk sha256)) : Prop :=
  ¬(idsOf chunks).Nodup ∨ (∃ c ∈ chunks, c.value.versionId ≠ versionId) ∨
    (∃ c ∈ chunks, ∃ parentId, c.value.parentChunkId = some parentId ∧ parentId ∉ idsOf chunks) ∨
    (∃ c p, ParentIn chunks c p ∧ p.value.provisionId ≠ c.value.provisionId) ∨
    ∃ c, TransGen (ParentIn chunks) c c

theorem faulty_iff : Faulty versionId chunks ↔ ¬Layerable versionId chunks := by
  constructor
  · rintro hfault hlayerable
    rcases hfault with hdouble | ⟨c,hc,hversion⟩ | ⟨c,hc,id,hparent,hmissing⟩ |
      ⟨c,p,⟨hc,hp,hparent⟩,hprovision⟩ | ⟨c,hcycle⟩
    · exact hdouble hlayerable.once
    · exact hversion (hlayerable.version c hc)
    · obtain ⟨p,hp,rfl,-⟩ := hlayerable.parents c hc id hparent
      exact hmissing (List.mem_map_of_mem hp)
    · obtain ⟨q,hq,hsame,hequal⟩ := hlayerable.parents c hc _ hparent
      have hqp : q = p := List.inj_on_of_nodup_map hlayerable.once hq hp hsame
      exact hprovision (hqp ▸ hequal)
    · exact hlayerable.acyclic c hcycle
  · intro hno
    by_contra hsound
    simp only [Faulty,not_or,not_exists,not_and,not_not] at hsound
    obtain ⟨honce,hversion,hpresent,hprovision,hacyclic⟩ := hsound
    apply hno
    refine ⟨hversion,honce,?_,hacyclic⟩
    intro c hc parentId hparent
    obtain ⟨p,hp,rfl⟩ := List.mem_map.mp (hpresent c hc parentId hparent)
    exact ⟨p,hp,rfl,hprovision c p ⟨hc,hp,hparent⟩⟩

/-- Chunks are layered or refused, refused exactly with a fault, and a refused
replacement keeps the stored rows. -/
theorem layers_sound (versionId : UUID7) (chunks : List (LegalChunk sha256)) :
    (∀ layers, validateAndLayerChunks versionId chunks = .ok layers → Layered chunks layers) ∧
      ((∃ e, validateAndLayerChunks versionId chunks = .error e) ↔ Faulty versionId chunks) ∧
      ∀ s : Corpus sha256, Faulty versionId chunks →
        (∃ e, replaceChunksForVersion versionId chunks s = .error e) ∧
          commit (replaceChunksForVersion versionId chunks) s = s := by
  have hiff : (∃ e, validateAndLayerChunks versionId chunks = .error e) ↔
      Faulty versionId chunks := by
    rw [faulty_iff]
    constructor
    · rintro ⟨e,he⟩ hlayerable
      obtain ⟨layers,hlayers⟩ := validate_succeeds hlayerable
      rw [he] at hlayers
      cases hlayers
    · intro hno
      cases hvalidate : validateAndLayerChunks versionId chunks with
      | error e => exact ⟨e,rfl⟩
      | ok layers => exact absurd (validate_layered hvalidate).2 hno
  refine ⟨fun layers h => (validate_layered h).1,hiff,?_⟩
  intro s hfault
  obtain ⟨e,he⟩ := hiff.mpr hfault
  have hrefused : ∀ u t, replaceChunksForVersion versionId chunks s ≠ .ok (u,t) := by
    intro u t hrun
    simp only [replaceChunksForVersion,bind_ok,read_ok,require_ok,ofExcept_ok] at hrun
    obtain ⟨_,_,-,_,_,-,layers,_,⟨hlayers,-⟩,-⟩ := hrun
    rw [he] at hlayers
    cases hlayers
  unfold commit
  cases hrun : replaceChunksForVersion versionId chunks s with
  | error e' => exact ⟨⟨e',rfl⟩,rfl⟩
  | ok out => exact absurd hrun (hrefused out.1 out.2)

end LawyerAgent.ChunkLayers
