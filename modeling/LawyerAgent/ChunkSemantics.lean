import LawyerAgent.ChunkForests
import LawyerAgent.NavigationDocuments

/-!
# The chunks in the digest of a quality audit

Every chunk is written with the chunks above it and with a digest of everything
below it, its identifiers left out. The digests are computed from the leaves
upwards.
-/

set_option autoImplicit false

namespace LawyerAgent.ChunkSemantics
open Forests Relation Common LegalCorpus ChunkReplay
open ChunkGraphs ChunkForests
open CanonicalJson (encode dumps hex hex_inj)
open JsonReader (finite finiteItems finiteFields_iff sorted sortedFields sortFields
  sortedFields_eq dumps_inj encode_inj)
open ReleaseProvenance (optionJson)
open ReleaseProvenance (Determined string_determined number_determined
  option_determined array_determined object_determined)
open NavigationDocuments (idJson id_determined optionJson_finite)

/-- What `semantic` keeps of a chunk. -/
structure NodeFacts where
  versionId : UUID7
  provisionId : UUID7
  chunkType : String
  quality : String
  contentHash : Digest
  parserVersion : Option String
  charStart : Option ℕ
  charEnd : Option ℕ
  actualTextSha256 : Digest

variable (sha256 : List UInt8 → Digest)

def factsOf (s : ChunkSemantic) : NodeFacts where
  versionId := s.versionId
  provisionId := s.provisionId
  chunkType := s.chunkType
  quality := s.quality
  contentHash := s.contentHash
  parserVersion := s.parserVersion
  charStart := s.charStart
  charEnd := s.charEnd
  actualTextSha256 := sha256 (encode s.content)

def hexJson (d : Digest) : Json := .string (hex d)

def positionFields (charStart charEnd : Option ℕ) : JsonObject :=
  if charStart = none ∧ charEnd = none then []
  else [("parent_relative_char_start",optionJson (fun n : ℕ => .number n) charStart),
    ("parent_relative_char_end",optionJson (fun n : ℕ => .number n) charEnd)]

def nodeJson (f : NodeFacts) : Json :=
  .object ([("version_id",idJson f.versionId),("provision_id",idJson f.provisionId),
    ("chunk_type",.string f.chunkType),("quality",.string f.quality),
    ("content_hash",hexJson f.contentHash),
    ("parser_version",optionJson .string f.parserVersion),
    ("actual_text_sha256",hexJson f.actualTextSha256)]++positionFields f.charStart f.charEnd)

/-- `sorted` of texts -/
def sortTexts (texts : List String) : List String := texts.insertionSort (· ≤ ·)

def subtreeJson (f : NodeFacts) (below : List String) : Json :=
  .object [("node",nodeJson f),("children",.array (below.map .string))]

def subtreeDigest (s : ChunkSemantic) (below : List String) : String :=
  hex (sha256 (encode (dumps (subtreeJson (factsOf sha256 s) (sortTexts below)))))

variable {sha256} (chunks : List (LegalChunk sha256))

/-- `by_id[id]`; of chunks with one id the last. -/
def byId (id : UUID7) : Option (LegalChunk sha256) := chunks.reverse.find? (·.value.id == id)

/-- `children[id]` -/
def childIds (id : UUID7) : List UUID7 := idsOf (childrenOf chunks id)

/-- The digests so far, how many children of a chunk have none, and the chunks all of
whose children have one, the last of them first. -/
structure Pass where
  remaining : UUID7 → ℤ
  pending : List UUID7
  subtree : List (UUID7 × String)

def startPass : Pass where
  remaining id := (childIds chunks id).length
  pending := ((idsOf chunks).eraseDups.filter fun id => (childIds chunks id).isEmpty).reverse
  subtree := []

def finish (s : Pass) (parentChunkId : Option UUID7) : Pass :=
  match parentChunkId with
  | none => s
  | some parentId =>
    if parentId ∈ idsOf chunks then
      { s with
        remaining := Function.update s.remaining parentId (s.remaining parentId-1)
        pending := if s.remaining parentId-1 = 0 then parentId::s.pending else s.pending }
    else s

/-- One turn of the loop; a pending chunk has the digests of all its children. -/
def turn (s : Pass) : Pass :=
  match s.pending with
  | [] => s
  | identifier::pending =>
    match byId chunks identifier with
    | none => { s with pending := pending }
    | some item =>
      finish chunks
        { s with
          pending := pending
          subtree := (identifier,subtreeDigest sha256 (semanticOf item)
            ((childIds chunks identifier).filterMap fun child => s.subtree.lookup child))::s.subtree
              }
        item.value.parentChunkId

def turns : ℕ → Pass → Pass
  | 0, s => s
  | fuel+1, s => turns fuel (turn chunks s)

/-- Every chunk is pending once. -/
def subtree : List (UUID7 × String) := (turns chunks chunks.length (startPass chunks)).subtree

inductive PathItem where
  | node (facts : NodeFacts)
  | cycle
  | missingParent

/-- No path has more chunks than the graph before a chunk comes again. -/
def ancestorPath : ℕ → List UUID7 → Option UUID7 → List PathItem
  | _, _, none => []
  | 0, _, some _ => [.cycle]
  | fuel+1, seen, some parentId =>
    if parentId ∈ seen then [.cycle]
    else
      match byId chunks parentId with
      | none => [.missingParent]
      | some parent => .node (factsOf sha256 (semanticOf parent))::
          ancestorPath fuel (parentId::seen) parent.value.parentChunkId

structure Entry where
  node : NodeFacts
  ancestorPath : List PathItem
  subtreeSha256 : String

def entryOf (c : LegalChunk sha256) : Entry where
  node := factsOf sha256 (semanticOf c)
  ancestorPath := ancestorPath chunks (chunks.length+1) [c.value.id] c.value.parentChunkId
  subtreeSha256 := ((subtree chunks).lookup c.value.id).getD "invalid_cycle"

def pathJson : PathItem → Json
  | .node facts => nodeJson facts
  | .cycle => .string "cycle"
  | .missingParent => .string "missing_parent"

def entryJson (e : Entry) : Json :=
  .object [("node",nodeJson e.node),("ancestor_path",.array (e.ancestorPath.map pathJson)),
    ("subtree_sha256",.string e.subtreeSha256)]

/-- `sorted(..., key=_canonical)` -/
def sortEntries (entries : List Entry) : List Entry :=
  entries.insertionSort fun a b => dumps (entryJson a) ≤ dumps (entryJson b)

def chunkSemantics : List Entry := sortEntries (chunks.map (entryOf chunks))

theorem hex_determined : Determined hexJson := fun _ _ h => hex_inj (Json.string.inj h)

theorem nat_determined : Determined fun n : ℕ => .number n :=
  fun _ _ h => Int.ofNat_inj.mp (Json.number.inj h)

theorem object_length {fields others : JsonObject}
    (h : sorted (.object fields) = sorted (.object others)) : fields.length = others.length := by
  have hsort : sortFields (sortedFields fields) = sortFields (sortedFields others) :=
    Json.object.inj h
  have hlength := congrArg List.length hsort
  rw [sortFields,sortFields,List.length_insertionSort,List.length_insertionSort,sortedFields_eq,
    sortedFields_eq,List.length_map,List.length_map] at hlength
  exact hlength

theorem node_determined : Determined nodeJson := by
  have htext := option_determined string_determined fun _ h => by cases h
  have hnumber := option_determined nat_determined fun _ h => by cases h
  intro a b h
  have hlength := object_length h
  by_cases ha : a.charStart = none ∧ a.charEnd = none
  · by_cases hb : b.charStart = none ∧ b.charEnd = none
    · rw [nodeJson,nodeJson,positionFields,positionFields,if_pos ha,if_pos hb,List.append_nil,
        List.append_nil] at h
      have hfields := object_determined (by simp only [List.map_cons,List.map_nil]) (by simp) h
      simp only [List.map_cons,List.cons.injEq] at hfields
      obtain ⟨hversion,hprovision,htype,hquality,hhash,hparser,hactual,-⟩ := hfields
      cases a
      cases b
      rw [NodeFacts.mk.injEq]
      exact ⟨id_determined _ _ hversion,id_determined _ _ hprovision,string_determined _ _ htype,
        string_determined _ _ hquality,hex_determined _ _ hhash,htext _ _ hparser,
        ha.1.trans hb.1.symm,ha.2.trans hb.2.symm,hex_determined _ _ hactual⟩
    · rw [positionFields,positionFields,if_pos ha,if_neg hb] at hlength
      simp only [List.length_append,List.length_cons,List.length_nil] at hlength
      omega
  · by_cases hb : b.charStart = none ∧ b.charEnd = none
    · rw [positionFields,positionFields,if_neg ha,if_pos hb] at hlength
      simp only [List.length_append,List.length_cons,List.length_nil] at hlength
      omega
    · rw [nodeJson,nodeJson,positionFields,positionFields,if_neg ha,if_neg hb] at h
      simp only [List.cons_append,List.nil_append] at h
      have hfields := object_determined (by simp only [List.map_cons,List.map_nil]) (by simp) h
      simp only [List.map_cons,List.cons.injEq] at hfields
      obtain ⟨hversion,hprovision,htype,hquality,hhash,hparser,hactual,hstart,hend,-⟩ := hfields
      cases a
      cases b
      rw [NodeFacts.mk.injEq]
      exact ⟨id_determined _ _ hversion,id_determined _ _ hprovision,string_determined _ _ htype,
        string_determined _ _ hquality,hex_determined _ _ hhash,htext _ _ hparser,
        hnumber _ _ hstart,hnumber _ _ hend,hex_determined _ _ hactual⟩

theorem path_determined : Determined pathJson := by
  intro a b h
  cases a with
  | node f =>
    cases b with
    | node g => rw [node_determined f g h]
    | cycle => cases h
    | missingParent => cases h
  | cycle =>
    cases b with
    | node g => cases h
    | cycle => rfl
    | missingParent => exact absurd (Json.string.inj h) (by decide)
  | missingParent =>
    cases b with
    | node g => cases h
    | cycle => exact absurd (Json.string.inj h) (by decide)
    | missingParent => rfl

theorem entry_determined : Determined entryJson := by
  intro a b h
  have hfields := object_determined (by simp only [List.map_cons,List.map_nil]) (by simp) h
  simp only [List.map_cons,List.cons.injEq] at hfields
  obtain ⟨hnode,hpath,hsubtree,-⟩ := hfields
  cases a
  cases b
  rw [Entry.mk.injEq]
  exact ⟨node_determined _ _ hnode,array_determined path_determined _ _ hpath,
    string_determined _ _ hsubtree⟩

theorem subtree_determined {f g : NodeFacts} {below other : List String}
    (h : sorted (subtreeJson f below) = sorted (subtreeJson g other)) : f = g ∧ below = other := by
  have hfields := object_determined (by simp only [List.map_cons,List.map_nil]) (by simp) h
  simp only [List.map_cons,List.cons.injEq] at hfields
  exact ⟨node_determined _ _ hfields.1,array_determined string_determined _ _ hfields.2.1⟩

theorem finite_array {items : List Json} (h : ∀ j ∈ items, finite j = true) :
    finite (.array items) = true := by
  rw [finite]
  induction items with
  | nil => rfl
  | cons item items ih =>
    obtain ⟨hitem,hitems⟩ := List.forall_mem_cons.mp h
    rw [finiteItems,hitem,ih hitems]
    rfl

theorem node_finite (f : NodeFacts) : finite (nodeJson f) = true := by
  have htext : ∀ o : Option String, finite (optionJson .string o) = true :=
    optionJson_finite _ fun _ => rfl
  have hnumber : ∀ o : Option ℕ, finite (optionJson (fun n : ℕ => .number n) o) = true :=
    optionJson_finite _ fun _ => rfl
  rw [nodeJson,finite,finiteFields_iff,List.forall_mem_append]
  constructor
  · simp [idJson,hexJson,finite,htext]
  · unfold positionFields
    by_cases hnone : f.charStart = none ∧ f.charEnd = none
    · rw [if_pos hnone]
      exact fun _ h => absurd h List.not_mem_nil
    · rw [if_neg hnone]
      simp [hnumber]

theorem entry_finite (e : Entry) : finite (entryJson e) = true := by
  have hpath : ∀ item, finite (pathJson item) = true := by
    intro item
    cases item with
    | node f => exact node_finite f
    | cycle => rfl
    | missingParent => rfl
  have harray : finite (.array (e.ancestorPath.map pathJson)) = true := by
    apply finite_array
    intro j hj
    obtain ⟨item,-,rfl⟩ := List.mem_map.mp hj
    exact hpath item
  rw [entryJson,finite,finiteFields_iff]
  simp only [List.forall_mem_cons,node_finite,harray]
  exact ⟨trivial,trivial,rfl,fun _ h => absurd h List.not_mem_nil⟩

theorem subtree_finite (f : NodeFacts) (below : List String) :
    finite (subtreeJson f below) = true := by
  have harray : finite (.array (below.map Json.string)) = true := by
    apply finite_array
    intro j hj
    obtain ⟨text,-,rfl⟩ := List.mem_map.mp hj
    rfl
  rw [subtreeJson,finite,finiteFields_iff]
  simp only [List.forall_mem_cons,node_finite,harray]
  exact ⟨trivial,trivial,fun _ h => absurd h List.not_mem_nil⟩

theorem sortEntries_perm {entries others : List Entry} (h : entries.Perm others) :
    sortEntries entries = sortEntries others := by
  have htotal : Std.Total fun a b : Entry => dumps (entryJson a) ≤ dumps (entryJson b) :=
    ⟨fun _ _ => le_total _ _⟩
  have htrans : IsTrans Entry fun a b => dumps (entryJson a) ≤ dumps (entryJson b) :=
    ⟨fun _ _ _ hab hbc => le_trans hab hbc⟩
  have hanti : Std.Antisymm fun a b : Entry => dumps (entryJson a) ≤ dumps (entryJson b) :=
    ⟨fun a b hab hba => entry_determined a b
      (dumps_inj (entry_finite a) (entry_finite b) (le_antisymm hab hba))⟩
  have hperm : (sortEntries entries).Perm (sortEntries others) :=
    (List.perm_insertionSort _ entries).trans (h.trans (List.perm_insertionSort _ others).symm)
  exact hperm.eq_of_pairwise' (List.pairwise_insertionSort _ entries)
    (List.pairwise_insertionSort _ others)

variable {chunks} {others : List (LegalChunk sha256)}

theorem sortTexts_perm {texts others : List String} (h : texts.Perm others) :
    sortTexts texts = sortTexts others := by
  have htotal : Std.Total fun a b : String => a ≤ b := ⟨String.le_total⟩
  have htrans : IsTrans String fun a b => a ≤ b := ⟨fun _ _ _ => String.le_trans⟩
  have hanti : Std.Antisymm fun a b : String => a ≤ b := ⟨fun _ _ => String.le_antisymm⟩
  have hperm : (sortTexts texts).Perm (sortTexts others) :=
    (List.perm_insertionSort _ texts).trans (h.trans (List.perm_insertionSort _ others).symm)
  exact hperm.eq_of_pairwise' (List.pairwise_insertionSort _ texts)
    (List.pairwise_insertionSort _ others)

theorem digest_unordered : Unordered (subtreeDigest sha256) := by
  intro s texts others h
  rw [subtreeDigest,subtreeDigest,sortTexts_perm h]

theorem byId_mem (h : Forest reading chunks) {c : LegalChunk sha256} (hc : c ∈ chunks) :
    byId chunks c.value.id = some c := by
  unfold byId
  cases hfind : chunks.reverse.find? fun d => d.value.id == c.value.id with
  | none =>
    have hnone := List.find?_eq_none.mp hfind c (List.mem_reverse.mpr hc)
    simp at hnone
  | some d =>
    have hmem := List.mem_reverse.mp (List.mem_of_find?_eq_some hfind)
    have hid := List.find?_some hfind
    rw [eq_of_ident h hmem hc (beq_iff_eq.mp hid)]

theorem mem_childIds {id child : UUID7} : child ∈ childIds chunks id ↔
    ∃ d ∈ chunks, d.value.id = child ∧ d.value.parentChunkId = some id := by
  rw [childIds,idsOf,List.mem_map]
  constructor
  · intro h
    obtain ⟨d,hd,hid⟩ := h
    exact ⟨d,(mem_childrenOf.mp hd).1,hid,(mem_childrenOf.mp hd).2⟩
  · intro h
    obtain ⟨d,hd,hid,hparent⟩ := h
    exact ⟨d,mem_childrenOf.mpr ⟨hd,hparent⟩,hid⟩

theorem child_parent (h : Forest reading chunks) {c : LegalChunk sha256} (hc : c ∈ chunks)
    (id : UUID7) : c.value.id ∈ childIds chunks id ↔ c.value.parentChunkId = some id := by
  rw [mem_childIds]
  constructor
  · intro hmem
    obtain ⟨d,hd,hid,hparent⟩ := hmem
    rw [← eq_of_ident h hd hc hid]
    exact hparent
  · exact fun hparent => ⟨c,hc,rfl,hparent⟩

def done (s : Pass) : List UUID7 := s.subtree.map Prod.fst

structure Passing (chunks : List (LegalChunk sha256)) (s : Pass) : Prop where
  valued : ∀ p ∈ s.subtree, ∃ c ∈ chunks, c.value.id = p.1 ∧
    p.2 = fold reading (subtreeDigest sha256) chunks c
  once : (done s).Nodup
  closed : ∀ id ∈ done s, ∀ child ∈ childIds chunks id, child ∈ done s
  counted : ∀ id ∈ idsOf chunks,
    s.remaining id = ((childIds chunks id).filter fun child => child ∉ done s).length
  waiting : ∀ id, id ∈ s.pending ↔
    id ∈ idsOf chunks ∧ id ∉ done s ∧ ∀ child ∈ childIds chunks id, child ∈ done s
  single : s.pending.Nodup

theorem eraseDups_nodup {ids : List UUID7} (h : ids.Nodup) : ids.eraseDups = ids := by
  induction ids with
  | nil => rfl
  | cons id ids ih =>
    obtain ⟨hid,hnodup⟩ := List.nodup_cons.mp h
    have hfilter : ids.filter (fun other => !other == id) = ids := by
      apply List.filter_eq_self.mpr
      intro other hother
      simpa using ne_of_mem_of_not_mem hother hid
    rw [List.eraseDups_cons,hfilter,ih hnodup]

theorem start_passing (h : Forest reading chunks) : Passing chunks (startPass chunks) := by
  have hdone : done (startPass chunks) = [] := rfl
  have hids : (idsOf chunks).Nodup := h.ids
  constructor
  · exact fun p hp => absurd hp List.not_mem_nil
  · exact List.nodup_nil
  · exact fun id hid => absurd hid List.not_mem_nil
  · intro id _
    rw [hdone]
    simp [startPass]
  · intro id
    rw [hdone]
    simp [startPass,List.eq_nil_iff_forall_not_mem]
  · rw [startPass,eraseDups_nodup hids]
    exact List.nodup_reverse.mpr (hids.filter _)

theorem lookup_valued {K V : Type} [DecidableEq K] {l : List (K × V)} {k : K} {v : V}
    (hvalue : ∀ p ∈ l, p.1 = k → p.2 = v) (hk : k ∈ l.map Prod.fst) : l.lookup k = some v := by
  induction l with
  | nil => cases hk
  | cons p l ih =>
    rw [List.lookup_cons]
    by_cases hp : k = p.1
    · rw [beq_iff_eq.mpr hp,hvalue p List.mem_cons_self hp.symm]
    · rw [beq_eq_false_iff_ne.mpr hp]
      rw [List.map_cons] at hk
      exact ih (fun q hq => hvalue q (List.mem_cons_of_mem _ hq)) (List.mem_of_ne_of_mem hp hk)

theorem lookup_done (h : Forest reading chunks) {s : Pass} (hs : Passing chunks s)
    {c : LegalChunk sha256} (hc : c ∈ chunks) (hdone : c.value.id ∈ done s) :
    s.subtree.lookup c.value.id = some (fold reading (subtreeDigest sha256) chunks c) := by
  apply lookup_valued _ hdone
  intro p hp hid
  obtain ⟨d,hd,hdid,hvalue⟩ := hs.valued p hp
  rw [hvalue,eq_of_ident h hd hc (hdid.trans hid)]

theorem children_digests (h : Forest reading chunks) {s : Pass} (hs : Passing chunks s)
    {c : LegalChunk sha256} (hc : c ∈ chunks)
    (hbelow : ∀ child ∈ childIds chunks c.value.id, child ∈ done s) :
    subtreeDigest sha256 (semanticOf c)
        ((childIds chunks c.value.id).filterMap fun child => s.subtree.lookup child) =
      fold reading (subtreeDigest sha256) chunks c := by
  have hlookup : ∀ d ∈ childrenOf chunks c.value.id, s.subtree.lookup d.value.id =
      some (fold reading (subtreeDigest sha256) chunks d) := by
    intro d hd
    exact lookup_done h hs (mem_childrenOf.mp hd).1 (hbelow _ (List.mem_map_of_mem hd))
  have hmap : (childIds chunks c.value.id).filterMap (fun child => s.subtree.lookup child) =
      (childrenOf chunks c.value.id).map (fold reading (subtreeDigest sha256) chunks) := by
    rw [childIds,idsOf,List.filterMap_map,← List.filterMap_eq_map]
    exact List.filterMap_congr hlookup
  rw [hmap,fold_eq h hc]
  rfl

variable {id parentId : UUID7}

theorem undone_other {children finished : List UUID7} (h : id ∉ children) :
    (children.filter fun child => child ∉ id::finished) =
      children.filter fun child => child ∉ finished := by
  apply List.filter_congr
  intro child hchild
  have hne : child ≠ id := ne_of_mem_of_not_mem hchild h
  simp [hne]

theorem undone_parent {children finished : List UUID7} (h : id ∈ children) (hnodup : children.Nodup)
    (hfresh : id ∉ finished) :
    (children.filter fun child => child ∉ id::finished).length+1 =
      (children.filter fun child => child ∉ finished).length := by
  have hmem : id ∈ children.filter fun child => child ∉ finished :=
    List.mem_filter.mpr ⟨h,decide_eq_true hfresh⟩
  have herase : (children.filter fun child => child ∉ id::finished) =
      (children.filter fun child => child ∉ finished).erase id := by
    rw [(hnodup.filter _).erase_eq_filter,List.filter_filter]
    apply List.filter_congr
    intro child _
    by_cases hchild : child = id <;> simp [hchild]
  have hpos := List.length_pos_of_mem hmem
  rw [herase,List.length_erase_of_mem hmem]
  omega

theorem finish_parent {s : Pass} (h : parentId ∈ idsOf chunks) :
    finish chunks s (some parentId) =
      { s with
        remaining := Function.update s.remaining parentId (s.remaining parentId-1)
        pending := if s.remaining parentId-1 = 0 then parentId::s.pending else s.pending } :=
  if_pos h

theorem finish_subtree (s : Pass) (parentChunkId : Option UUID7) :
    (finish chunks s parentChunkId).subtree = s.subtree := by
  cases parentChunkId with
  | none => rfl
  | some parentId =>
    by_cases hmem : parentId ∈ idsOf chunks
    · rw [finish_parent hmem]
    · exact congrArg Pass.subtree (if_neg hmem)

/-- The state behind a pending chunk, before its parent is counted down. -/
def popped (c : LegalChunk sha256) (chunks : List (LegalChunk sha256)) (s : Pass)
    (rest : List UUID7) : Pass where
  remaining := s.remaining
  pending := rest
  subtree := (c.value.id,fold reading (subtreeDigest sha256) chunks c)::s.subtree

theorem popped_done (c : LegalChunk sha256) (s : Pass) (rest : List UUID7) :
    done (finish chunks (popped c chunks s rest) c.value.parentChunkId) =
      c.value.id::done s := by
  rw [done,finish_subtree]
  rfl

theorem pending_child {s : Pass} (hs : Passing chunks s) {rest : List UUID7}
    (hpending : s.pending = id::rest) : id ∈ idsOf chunks ∧ id ∉ done s ∧
      ∀ child ∈ childIds chunks id, child ∈ done s := by
  have hmem : id ∈ s.pending := by
    rw [hpending]
    exact List.mem_cons_self
  exact (hs.waiting id).mp hmem

section
variable (h : Forest reading chunks) {s : Pass} (hs : Passing chunks s) {c : LegalChunk sha256}
  (hc : c ∈ chunks) {rest : List UUID7} (hpending : s.pending = c.value.id::rest)
include h hs hc hpending

theorem turn_popped : turn chunks s = finish chunks (popped c chunks s rest)
    c.value.parentChunkId := by
  have hbelow := (pending_child hs hpending).2.2
  rw [turn,hpending]
  simp only [byId_mem h hc,children_digests h hs hc hbelow]
  rfl

/-- Who waits does not change, but for the parent. -/
theorem waiting_other (hother : c.value.parentChunkId ≠ some id) :
    id ∈ rest ↔ id ∈ idsOf chunks ∧ id ∉ c.value.id::done s ∧
      ∀ child ∈ childIds chunks id, child ∈ c.value.id::done s := by
  have hsingle := hs.single
  rw [hpending] at hsingle
  have hnot := (List.nodup_cons.mp hsingle).1
  have hwaiting := hs.waiting id
  rw [hpending] at hwaiting
  have hchild : c.value.id ∉ childIds chunks id := fun hmem =>
    hother ((child_parent h hc id).mp hmem)
  constructor
  · intro hid
    obtain ⟨hmem,hfresh,hbelow⟩ := hwaiting.mp (List.mem_cons_of_mem _ hid)
    have hne : id ≠ c.value.id := ne_of_mem_of_not_mem hid hnot
    refine ⟨hmem,?_,fun child hin => List.mem_cons_of_mem _ (hbelow child hin)⟩
    rw [List.mem_cons,not_or]
    exact ⟨hne,hfresh⟩
  · intro hid
    obtain ⟨hmem,hfresh,hbelow⟩ := hid
    rw [List.mem_cons,not_or] at hfresh
    obtain ⟨hne,hold⟩ := hfresh
    have hall : ∀ child ∈ childIds chunks id, child ∈ done s := by
      intro child hin
      exact List.mem_of_ne_of_mem (ne_of_mem_of_not_mem hin hchild) (hbelow child hin)
    exact List.mem_of_ne_of_mem hne (hwaiting.mpr ⟨hmem,hold,hall⟩)

theorem parent_counted (hparent : c.value.parentChunkId = some parentId)
    (hids : parentId ∈ idsOf chunks) : s.remaining parentId-1 =
      ((childIds chunks parentId).filter fun child => child ∉ c.value.id::done s).length := by
  have hchild := (child_parent h hc parentId).mpr hparent
  have hnodup : (childIds chunks parentId).Nodup := (List.filter_sublist.map _).nodup h.ids
  have hone := undone_parent hchild hnodup (pending_child hs hpending).2.1
  have hold := hs.counted parentId hids
  omega

theorem popped_counted (id : UUID7) (hid : id ∈ idsOf chunks) :
    (finish chunks (popped c chunks s rest) c.value.parentChunkId).remaining id =
      ((childIds chunks id).filter fun child => child ∉ c.value.id::done s).length := by
  have hother : c.value.parentChunkId ≠ some id → s.remaining id =
      ((childIds chunks id).filter fun child => child ∉ c.value.id::done s).length := by
    intro hne
    have hchild : c.value.id ∉ childIds chunks id := fun hin => hne ((child_parent h hc id).mp hin)
    rw [undone_other hchild]
    exact hs.counted id hid
  cases hparent : c.value.parentChunkId with
  | none => exact hother (by rw [hparent]; exact fun h => by cases h)
  | some parentId =>
    obtain ⟨p,hp,hpid⟩ := h.parents c hc parentId hparent
    have hids : parentId ∈ idsOf chunks := hpid ▸ List.mem_map_of_mem hp
    have hremaining : (finish chunks (popped c chunks s rest) (some parentId)).remaining =
        Function.update s.remaining parentId (s.remaining parentId-1) := by
      rw [finish_parent hids]
      rfl
    rw [hremaining]
    by_cases hsame : id = parentId
    · rw [hsame,Function.update_self]
      exact parent_counted h hs hc hpending hparent hids
    · rw [Function.update_of_ne hsame]
      apply hother
      rw [hparent]
      exact fun h => hsame (Option.some.inj h).symm

theorem parent_fresh (hparent : c.value.parentChunkId = some parentId) :
    parentId ∉ c.value.id::done s ∧ parentId ∉ rest := by
  have hchild := (child_parent h hc parentId).mpr hparent
  obtain ⟨-,hfresh,-⟩ := pending_child hs hpending
  constructor
  · rw [List.mem_cons,not_or]
    constructor
    · rintro rfl
      exact h.acyclic c (.single ⟨hc,hc,hparent⟩)
    · exact fun hmem => hfresh (hs.closed parentId hmem _ hchild)
  · intro hmem
    have hin : parentId ∈ s.pending := by
      rw [hpending]
      exact List.mem_cons_of_mem _ hmem
    exact hfresh (((hs.waiting parentId).mp hin).2.2 _ hchild)

theorem popped_waiting : (finish chunks (popped c chunks s rest)
    c.value.parentChunkId).pending.Nodup ∧
    ∀ id, id ∈ (finish chunks (popped c chunks s rest) c.value.parentChunkId).pending ↔
      id ∈ idsOf chunks ∧ id ∉ c.value.id::done s ∧
        ∀ child ∈ childIds chunks id, child ∈ c.value.id::done s := by
  have hsingle := hs.single
  rw [hpending] at hsingle
  have hrest := (List.nodup_cons.mp hsingle).2
  have hothers := fun (id : UUID7) (hne : c.value.parentChunkId ≠ some id) =>
    waiting_other h hs hc hpending hne
  cases hparent : c.value.parentChunkId with
  | none =>
    rw [hparent] at hothers
    exact ⟨hrest,fun id => hothers id fun h => by cases h⟩
  | some parentId =>
    obtain ⟨p,hp,hpid⟩ := h.parents c hc parentId hparent
    have hids : parentId ∈ idsOf chunks := hpid ▸ List.mem_map_of_mem hp
    obtain ⟨hfresh,hnot⟩ := parent_fresh h hs hc hpending hparent
    have hcount := parent_counted h hs hc hpending hparent hids
    have hpend : (finish chunks (popped c chunks s rest) (some parentId)).pending =
        if s.remaining parentId-1 = 0 then parentId::rest else rest := by
      rw [finish_parent hids]
      rfl
    have hready : s.remaining parentId-1 = 0 ↔
        ∀ child ∈ childIds chunks parentId, child ∈ c.value.id::done s := by
      rw [hcount,Int.natCast_eq_zero,List.length_eq_zero_iff,List.filter_eq_nil_iff]
      simp only [decide_not,Bool.not_eq_true',decide_eq_false_iff_not,not_not]
    have hwaiting : ∀ id, id ≠ parentId → (id ∈ rest ↔ id ∈ idsOf chunks ∧
        id ∉ c.value.id::done s ∧ ∀ child ∈ childIds chunks id, child ∈ c.value.id::done s) := by
      intro id hne
      apply hothers
      rw [hparent]
      exact fun h => hne (Option.some.inj h).symm
    rw [hpend]
    by_cases hzero : s.remaining parentId-1 = 0
    · rw [if_pos hzero]
      refine ⟨List.nodup_cons.mpr ⟨hnot,hrest⟩,fun id => ?_⟩
      by_cases hsame : id = parentId
      · rw [hsame]
        exact iff_of_true List.mem_cons_self ⟨hids,hfresh,hready.mp hzero⟩
      · rw [List.mem_cons,or_iff_right hsame]
        exact hwaiting id hsame
    · rw [if_neg hzero]
      refine ⟨hrest,fun id => ?_⟩
      by_cases hsame : id = parentId
      · rw [hsame]
        exact iff_of_false hnot fun hall => hzero (hready.mpr hall.2.2)
      · exact hwaiting id hsame

theorem popped_passing : Passing chunks (finish chunks (popped c chunks s rest)
    c.value.parentChunkId) := by
  have hdone := @popped_done sha256 chunks c s rest
  obtain ⟨-,hfresh,hbelow⟩ := pending_child hs hpending
  obtain ⟨hsingle,hwaiting⟩ := popped_waiting h hs hc hpending
  constructor
  · rw [finish_subtree]
    intro p hp
    rcases List.mem_cons.mp hp with rfl | hp
    · exact ⟨c,hc,rfl,rfl⟩
    · exact hs.valued p hp
  · rw [hdone]
    exact List.nodup_cons.mpr ⟨hfresh,hs.once⟩
  · rw [hdone]
    intro id hid child hchild
    rcases List.mem_cons.mp hid with rfl | hid
    · exact List.mem_cons_of_mem _ (hbelow child hchild)
    · exact List.mem_cons_of_mem _ (hs.closed id hid child hchild)
  · rw [hdone]
    exact popped_counted h hs hc hpending
  · rw [hdone]
    exact hwaiting
  · exact hsingle

end

theorem done_ids {s : Pass} (hs : Passing chunks s) : ∀ id ∈ done s, id ∈ idsOf chunks := by
  intro id hid
  obtain ⟨p,hp,rfl⟩ := List.mem_map.mp hid
  obtain ⟨c,hc,hpid,-⟩ := hs.valued p hp
  rw [← hpid]
  exact List.mem_map_of_mem hc

theorem idle_done (h : Forest reading chunks) {s : Pass} (hs : Passing chunks s)
    (hidle : s.pending = []) : ∀ c ∈ chunks, c.value.id ∈ done s := by
  apply forest_induct h (P := fun c => c.value.id ∈ done s)
  intro c hc ih
  by_contra hfresh
  have hbelow : ∀ child ∈ childIds chunks c.value.id, child ∈ done s := by
    intro child hchild
    obtain ⟨d,hd,rfl⟩ := List.mem_map.mp hchild
    exact ih d hd
  have hmem := (hs.waiting c.value.id).mpr ⟨List.mem_map_of_mem hc,hfresh,hbelow⟩
  rw [hidle] at hmem
  cases hmem

theorem turns_done (h : Forest reading chunks) (fuel : ℕ) {s : Pass} (hs : Passing chunks s)
    (hfuel : chunks.length ≤ fuel+s.subtree.length) : Passing chunks (turns chunks fuel s) ∧
      ∀ c ∈ chunks, c.value.id ∈ done (turns chunks fuel s) := by
  induction fuel generalizing s with
  | zero =>
    refine ⟨hs,fun c hc => ?_⟩
    have hsub := List.subperm_of_subset hs.once (done_ids hs)
    have hlength : (idsOf chunks).length ≤ (done s).length := by
      rw [idsOf,done,List.length_map,List.length_map]
      omega
    exact (hsub.perm_of_length_le hlength).mem_iff.mpr (List.mem_map_of_mem hc)
  | succ fuel ih =>
    rw [turns]
    cases hpending : s.pending with
    | nil =>
      have hstay : turn chunks s = s := by rw [turn,hpending]
      have hall := idle_done h hs hpending
      have hsub : (idsOf chunks).Subperm (done s) := by
        apply List.subperm_of_subset h.ids
        intro id hid
        obtain ⟨c,hc,rfl⟩ := List.mem_map.mp hid
        exact hall c hc
      have hlength := hsub.length_le
      rw [idsOf,done,List.length_map,List.length_map] at hlength
      rw [hstay]
      exact ih hs (by omega)
    | cons id rest =>
      obtain ⟨c,hc,rfl⟩ := List.mem_map.mp (pending_child hs hpending).1
      rw [turn_popped h hs hc hpending]
      apply ih (popped_passing h hs hc hpending)
      rw [finish_subtree]
      have hlength : (popped c chunks s rest).subtree.length = s.subtree.length+1 := rfl
      omega

theorem subtree_lookup (h : Forest reading chunks) {c : LegalChunk sha256} (hc : c ∈ chunks) :
    (subtree chunks).lookup c.value.id =
      some (fold reading (subtreeDigest sha256) chunks c) := by
  obtain ⟨hpassing,hdone⟩ := turns_done h chunks.length (start_passing h) (Nat.le_add_right _ _)
  exact lookup_done h hpassing hc (hdone c hc)

/-- The chunks seen on the way up to a chunk are not above it. -/
def SeenBelow (chunks : List (LegalChunk sha256)) (c : LegalChunk sha256)
    (seen : List UUID7) : Prop :=
  ∀ id ∈ seen, ∃ a ∈ chunks, a.value.id = id ∧
    height reading chunks a ≤ height reading chunks c

theorem seenBelow_self {c : LegalChunk sha256} (hc : c ∈ chunks) :
    SeenBelow chunks c [c.value.id] := by
  intro id hid
  rw [List.mem_singleton] at hid
  exact ⟨c,hc,hid.symm,le_refl _⟩

theorem ancestorPath_none (fuel : ℕ) (seen : List UUID7) :
    ancestorPath chunks fuel seen none = [] := by
  cases fuel with
  | zero => rfl
  | succ fuel => rfl

theorem seenBelow_parent (h : Forest reading chunks) {c p : LegalChunk sha256}
    (hcp : ChildOf reading chunks c p) {seen : List UUID7} (hseen : SeenBelow chunks c seen) :
    SeenBelow chunks p (p.value.id::seen) := by
  have hlt := height_lt h hcp
  intro id hid
  rcases List.mem_cons.mp hid with rfl | hid
  · exact ⟨p,hcp.2.1,rfl,le_refl _⟩
  · obtain ⟨a,ha,haid,hle⟩ := hseen id hid
    exact ⟨a,ha,haid,hle.trans hlt.le⟩

theorem ancestorPath_parent (h : Forest reading chunks) {c p : LegalChunk sha256}
    (hcp : ChildOf reading chunks c p) {seen : List UUID7} (hseen : SeenBelow chunks c seen)
    (fuel : ℕ) : ancestorPath chunks (fuel+1) seen c.value.parentChunkId =
      .node (factsOf sha256 (semanticOf p))::
        ancestorPath chunks fuel (p.value.id::seen) p.value.parentChunkId := by
  have hparent : c.value.parentChunkId = some p.value.id := hcp.2.2
  have hfresh : p.value.id ∉ seen := by
    intro hmem
    obtain ⟨a,ha,haid,hle⟩ := hseen _ hmem
    have hlt := height_lt h hcp
    rw [eq_of_ident h ha hcp.2.1 haid] at hle
    omega
  rw [hparent,ancestorPath,if_neg hfresh,byId_mem h hcp.2.1]

theorem ancestorPath_root (h : Forest reading chunks) {c : LegalChunk sha256} (hc : c ∈ chunks) :
    (entryOf chunks c).ancestorPath.isEmpty = (c.value.parentChunkId == none) := by
  change (ancestorPath chunks (chunks.length+1) [c.value.id] c.value.parentChunkId).isEmpty = _
  cases hparent : c.value.parentChunkId with
  | none =>
    rw [ancestorPath_none]
    rfl
  | some id =>
    obtain ⟨p,hp,hpid⟩ := h.parents c hc id hparent
    have hcp : ChildOf reading chunks c p := ⟨hc,hp,hpid ▸ hparent⟩
    have hroot : (c.value.parentChunkId == none) = false := by rw [hparent]; rfl
    rw [← hparent,ancestorPath_parent h hcp (seenBelow_self hc),hroot]
    rfl

section
variable {f : LegalChunk sha256 → LegalChunk sha256} (h : Forest reading chunks)
  (h' : Forest reading others) (hf : Isomorphism reading chunks others f)
include h h' hf

theorem ancestorPath_image (fuel : ℕ) {seen seen' : List UUID7} {c : LegalChunk sha256}
    (hc : c ∈ chunks) (hseen : SeenBelow chunks c seen) (hseen' : SeenBelow others (f c) seen') :
    ancestorPath chunks fuel seen c.value.parentChunkId =
      ancestorPath others fuel seen' (f c).value.parentChunkId := by
  induction fuel generalizing c seen seen' with
  | zero =>
    have hroots := hf.roots c hc
    cases hparent : c.value.parentChunkId with
    | none =>
      have hnone : (f c).value.parentChunkId = none := hroots.mpr hparent
      rw [hnone,ancestorPath_none,ancestorPath_none]
    | some id =>
      cases hother : (f c).value.parentChunkId with
      | none =>
        have hnone : c.value.parentChunkId = none := hroots.mp hother
        rw [hparent] at hnone
        cases hnone
      | some other => rfl
  | succ fuel ih =>
    cases hparent : c.value.parentChunkId with
    | none =>
      have hnone : (f c).value.parentChunkId = none := (hf.roots c hc).mpr hparent
      rw [hnone,ancestorPath_none,ancestorPath_none]
    | some id =>
      obtain ⟨p,hp,hpid⟩ := h.parents c hc id hparent
      have hcp : ChildOf reading chunks c p := ⟨hc,hp,hpid ▸ hparent⟩
      have himage : ChildOf reading others (f c) (f p) :=
        ⟨hf.bijective.mapsTo hc,hf.bijective.mapsTo hp,(hf.parents c hc p hp).mpr hcp.2.2⟩
      have hlabel : semanticOf (f p) = semanticOf p := hf.labels p hp
      rw [← hparent,ancestorPath_parent h hcp hseen,ancestorPath_parent h' himage hseen',hlabel]
      exact congrArg _ (ih hp (seenBelow_parent h hcp hseen) (seenBelow_parent h' himage hseen'))

theorem image_all : (chunks.map f).Perm others := by
  apply image_perm (forest_nodup h) (forest_nodup h') hf.bijective.injOn
  intro d
  constructor
  · exact fun hd => hf.bijective.surjOn hd
  · intro hd
    obtain ⟨c,hc,rfl⟩ := hd
    exact hf.bijective.mapsTo hc

theorem entryOf_image {c : LegalChunk sha256} (hc : c ∈ chunks) :
    entryOf chunks c = entryOf others (f c) := by
  have hmem : f c ∈ others := hf.bijective.mapsTo hc
  have hlabel : semanticOf (f c) = semanticOf c := hf.labels c hc
  have hlength : others.length = chunks.length := by
    rw [← (image_all h h' hf).length_eq,List.length_map]
  have hpath := ancestorPath_image h h' hf (chunks.length+1) hc (seenBelow_self hc)
    (seenBelow_self hmem)
  rw [entryOf,entryOf,subtree_lookup h hc,subtree_lookup h' hmem,hlabel,hlength,hpath,
    fold_image h h' hf digest_unordered c hc]

theorem chunkSemantics_image : chunkSemantics chunks = chunkSemantics others := by
  apply sortEntries_perm
  have hmap : chunks.map (entryOf chunks) = (chunks.map f).map (entryOf others) := by
    rw [List.map_map]
    exact List.map_congr_left fun c hc => entryOf_image h h' hf hc
  rw [hmap]
  exact (image_all h h' hf).map _

end

def hashedTexts (chunks : List (LegalChunk sha256)) : List (List UInt8) :=
  chunks.flatMap fun c => [encode c.value.content,
    encode (dumps (subtreeJson (factsOf sha256 (semanticOf c)) (sortTexts
      ((childrenOf chunks c.value.id).map (fold reading (subtreeDigest sha256) chunks)))))]

theorem content_hashed {c : LegalChunk sha256} (hc : c ∈ chunks) :
    encode c.value.content ∈ hashedTexts chunks :=
  List.mem_flatMap.mpr ⟨c,hc,List.mem_cons_self⟩

theorem subtree_hashed {c : LegalChunk sha256} (hc : c ∈ chunks) :
    encode (dumps (subtreeJson (factsOf sha256 (semanticOf c)) (sortTexts
      ((childrenOf chunks c.value.id).map (fold reading (subtreeDigest sha256) chunks))))) ∈
        hashedTexts chunks :=
  List.mem_flatMap.mpr ⟨c,hc,List.mem_cons_of_mem _ List.mem_cons_self⟩

theorem hashed_image {f : LegalChunk sha256 → LegalChunk sha256} (h : Forest reading chunks)
    (h' : Forest reading others) (hf : Isomorphism reading chunks others f) :
    ∀ b ∈ hashedTexts others, b ∈ hashedTexts chunks := by
  intro b hb
  obtain ⟨d,hd,hb⟩ := List.mem_flatMap.mp hb
  obtain ⟨c,hc,rfl⟩ := hf.bijective.surjOn hd
  have hlabel : semanticOf (f c) = semanticOf c := hf.labels c hc
  have hcontent : (f c).value.content = c.value.content := congrArg ChunkSemantic.content hlabel
  have hmap : (childrenOf chunks c.value.id).map (fold reading (subtreeDigest sha256) chunks) =
      ((childrenOf chunks c.value.id).map f).map
        (fold reading (subtreeDigest sha256) others) := by
    rw [List.map_map]
    apply List.map_congr_left
    intro d hd
    exact fold_image h h' hf digest_unordered d (mem_childrenOf.mp hd).1
  have hsorted := sortTexts_perm ((children_image h h' hf hc).map
    (fold reading (subtreeDigest sha256) others))
  rcases List.mem_cons.mp hb with rfl | hb
  · rw [hcontent]
    exact content_hashed hc
  · rw [List.mem_singleton.mp hb,hlabel]
    change encode (dumps (subtreeJson _ (sortTexts ((children reading others
      (reading.ident (f c))).map _)))) ∈ _
    rw [← hsorted]
    have hmem := subtree_hashed hc
    rw [hmap] at hmem
    exact hmem

theorem facts_semantic {s t : ChunkSemantic} (h : factsOf sha256 s = factsOf sha256 t)
    (hcontent : s.content = t.content) : s = t := by
  rw [factsOf,factsOf,NodeFacts.mk.injEq] at h
  obtain ⟨hversion,hprovision,htype,hquality,hhash,hparser,hstart,hend,-⟩ := h
  cases s
  cases t
  rw [ChunkSemantic.mk.injEq]
  exact ⟨hversion,hprovision,htype,hquality,hcontent,hhash,hparser,hstart,hend⟩

theorem digest_told (h : Forest reading chunks) (h' : Forest reading others)
    (hsha : Set.InjOn sha256 {b | b ∈ hashedTexts chunks++hashedTexts others}) :
    Told reading (subtreeDigest sha256) chunks others := by
  intro c hc d hd hvalue
  rw [fold_eq h hc,fold_eq h' hd] at hvalue
  have hbytes := encode_inj (hsha (List.mem_append_left _ (subtree_hashed hc))
    (List.mem_append_right _ (subtree_hashed hd)) (hex_inj hvalue))
  have hsorted := dumps_inj (subtree_finite _ _) (subtree_finite _ _) hbytes
  obtain ⟨hfacts,htexts⟩ := subtree_determined hsorted
  have hactual := congrArg NodeFacts.actualTextSha256 hfacts
  have hcontent := encode_inj (hsha (List.mem_append_left _ (content_hashed hc))
    (List.mem_append_right _ (content_hashed hd)) hactual)
  have hleft := List.perm_insertionSort (· ≤ ·)
    ((childrenOf chunks c.value.id).map (fold reading (subtreeDigest sha256) chunks))
  have hright := List.perm_insertionSort (· ≤ ·)
    ((childrenOf others d.value.id).map (fold reading (subtreeDigest sha256) others))
  rw [sortTexts,sortTexts] at htexts
  rw [htexts] at hleft
  exact ⟨facts_semantic hfacts hcontent,hleft.symm.trans hright⟩

theorem root_digests (h : Forest reading chunks) :
    (((chunks.map (entryOf chunks)).filter fun e => e.ancestorPath.isEmpty).map
      Entry.subtreeSha256) =
        (roots reading chunks).map (fold reading (subtreeDigest sha256) chunks) := by
  have hroots : (chunks.filter fun c => (entryOf chunks c).ancestorPath.isEmpty) =
      roots reading chunks := List.filter_congr fun c hc => ancestorPath_root h hc
  rw [List.filter_map,List.map_map]
  change ((chunks.filter fun c => (entryOf chunks c).ancestorPath.isEmpty).map _) = _
  rw [hroots]
  apply List.map_congr_left
  intro c hc
  change ((subtree chunks).lookup c.value.id).getD "invalid_cycle" = _
  rw [subtree_lookup h (mem_roots.mp hc).1]
  rfl

theorem roots_told (h : Forest reading chunks) (h' : Forest reading others)
    (hsame : chunkSemantics chunks = chunkSemantics others) :
    ((roots reading chunks).map (fold reading (subtreeDigest sha256) chunks)).Perm
      ((roots reading others).map (fold reading (subtreeDigest sha256) others)) := by
  have hleft := List.perm_insertionSort (fun a b => dumps (entryJson a) ≤ dumps (entryJson b))
    (chunks.map (entryOf chunks))
  have hright := List.perm_insertionSort (fun a b => dumps (entryJson a) ≤ dumps (entryJson b))
    (others.map (entryOf others))
  rw [chunkSemantics,chunkSemantics,sortEntries,sortEntries] at hsame
  rw [hsame] at hleft
  rw [← root_digests h,← root_digests h']
  exact ((hleft.symm.trans hright).filter _).map _

/-- What `_chunk_semantics` returns. -/
def semanticsJson (chunks : List (LegalChunk sha256)) : Json :=
  .array ((chunkSemantics chunks).map entryJson)

theorem semanticsJson_inj (h : semanticsJson chunks = semanticsJson others) :
    chunkSemantics chunks = chunkSemantics others := by
  apply array_determined entry_determined
  exact congrArg sorted h

/-- Both canonical forms tell exactly the isomorphic graphs. -/
theorem graphs_isomorphic (printable : Char → Bool) {expected actual : List (LegalChunk sha256)}
    (hexpected : ValidGraph expected) (hactual : ValidGraph actual)
    (dexpected : Distinct reading (treeNode printable) expected)
    (dactual : Distinct reading (treeNode printable) actual)
    (hsha : Set.InjOn sha256 {b | b ∈ hashedTexts expected++hashedTexts actual}) :
    (assertChunkGraphMatches printable expected actual = .ok () ↔
      Isomorphic reading expected actual) ∧
    (semanticsJson expected = semanticsJson actual ↔ Isomorphic reading expected actual) := by
  constructor
  · exact assert_isomorphic hexpected hactual dexpected dactual
  · constructor
    · intro hsame
      have hroots := roots_told hexpected.forest hactual.forest (semanticsJson_inj hsame)
      have htold := digest_told hexpected.forest hactual.forest hsha
      have htrees : Told reading (treeNode printable) expected actual :=
        treeNode_told hexpected.forest hactual.forest
      apply isomorphic_of_roots hexpected.forest hactual.forest htrees dexpected dactual
      apply perm_coarser hroots
      intro c hc d hd
      exact fold_coarser hexpected.forest hactual.forest htold treeNode_unordered c
        (mem_roots.mp hc).1 d (mem_roots.mp hd).1
    · intro hiso
      obtain ⟨f,hf⟩ := hiso
      rw [semanticsJson,semanticsJson,chunkSemantics_image hexpected.forest hactual.forest hf]

def sampleSha256 (bytes : List UInt8) : Digest :=
  BitVec.ofNat 256 (256*(bytes.headD 0).toNat+(bytes.getD 13 0).toNat)

def sampleChunk (id : ℕ) (parent : Option ℕ) (content : List Char) :
    LegalChunk sampleSha256 where
  value := {
    id := ⟨0,3,BitVec.ofNat 62 id⟩
    versionId := ⟨0,1,0⟩
    provisionId := ⟨0,2,0⟩
    chunkType := .paragraph
    quality := .ok
    content := content
    contentHash := contentSha256 sampleSha256 content
    parentChunkId := parent.map fun n => ⟨0,3,BitVec.ofNat 62 n⟩
    parserVersion := none
    parentRelativeCharStart := none
    parentRelativeCharEnd := none }
  valid := by simp [firstError,legalChunkChecks,positionValid]

def sampleGraph : List (LegalChunk sampleSha256) :=
  [sampleChunk 0 none "a".toList,sampleChunk 1 (some 0) "b".toList]

/-- The same chunks under other identifiers and in another order. -/
def renamedGraph : List (LegalChunk sampleSha256) :=
  [sampleChunk 5 (some 4) "b".toList,sampleChunk 4 none "a".toList]

theorem pair_valid (root child : LegalChunk sha256) (hroot : root.value.parentChunkId = none)
    (hchild : child.value.parentChunkId = some root.value.id)
    (hids : root.value.id ≠ child.value.id)
    (howners : root.value.versionId = child.value.versionId ∧
      root.value.provisionId = child.value.provisionId)
    (hperm : chunks.Perm [root,child]) : ValidGraph chunks := by
  have hmem : ∀ c, c ∈ chunks ↔ c = root ∨ c = child := by
    intro c
    rw [hperm.mem_iff]
    simp
  have hparent : ∀ c ∈ chunks, ∀ id, c.value.parentChunkId = some id →
      c = child ∧ root.value.id = id := by
    intro c hc id hid
    rcases (hmem c).mp hc with rfl | rfl
    · rw [hroot] at hid
      cases hid
    · rw [hchild] at hid
      exact ⟨rfl,Option.some.inj hid⟩
  have htop : ∀ c p, ChildOf reading chunks c p → c = child ∧ p = root := by
    intro c p hcp
    obtain ⟨hc,hp,hid⟩ := hcp
    obtain ⟨hleft,hright⟩ := hparent c hc _ hid
    rcases (hmem p).mp hp with rfl | rfl
    · exact ⟨hleft,rfl⟩
    · exact absurd hright hids
  refine ⟨⟨?_,?_,?_⟩,?_⟩
  · apply (hperm.map _).nodup_iff.mpr
    simpa [reading] using hids
  · intro c hc id hid
    exact ⟨root,(hmem root).mpr (.inl rfl),(hparent c hc id hid).2⟩
  · intro c hcycle
    obtain ⟨d,hcd,-⟩ := TransGen.head'_iff.mp hcycle
    obtain ⟨e,-,hec⟩ := TransGen.tail'_iff.mp hcycle
    have hsame : child = root := (htop c d hcd).1.symm.trans (htop e c hec).2
    exact hids (by rw [hsame])
  · intro c hc p hp hid
    obtain ⟨hleft,hright⟩ := htop c p ⟨hc,hp,hid⟩
    rw [hleft,hright]
    exact howners

/-- Renamed and reordered chunks are a replay and keep the digest. -/
theorem graphs_isomorphic_renamed : Isomorphic reading sampleGraph renamedGraph ∧
    semanticsJson sampleGraph = semanticsJson renamedGraph := by
  have hsample : ValidGraph sampleGraph :=
    pair_valid (sampleChunk 0 none "a".toList) (sampleChunk 1 (some 0) "b".toList) rfl rfl
      (by decide) ⟨rfl,rfl⟩ (List.Perm.refl _)
  have hrenamed : ValidGraph renamedGraph :=
    pair_valid (sampleChunk 4 none "a".toList) (sampleChunk 5 (some 4) "b".toList) rfl rfl
      (by decide) ⟨rfl,rfl⟩ (List.Perm.swap _ _ _)
  have hnodup : ((hashedTexts sampleGraph).map sampleSha256).Nodup := by decide
  have hsiblings : ∀ F ∈ [sampleGraph,renamedGraph], (∀ p ∈ F, ((children reading F
      (reading.ident p)).map (fold reading (treeNode fun _ => true) F)).Nodup) ∧
      ((roots reading F).map (fold reading (treeNode fun _ => true) F)).Nodup := by decide
  have hdistinct : ∀ F ∈ [sampleGraph,renamedGraph], Distinct reading (treeNode fun _ => true) F :=
    fun F hF => ⟨(hsiblings F hF).1,(hsiblings F hF).2⟩
  have hfirst := hdistinct _ List.mem_cons_self
  have hsecond := hdistinct _ (List.mem_cons_of_mem _ List.mem_cons_self)
  have haccepted : assertChunkGraphMatches (fun _ => true) sampleGraph renamedGraph = .ok () := by
    decide
  obtain ⟨f,hf⟩ := (assert_isomorphic hsample hrenamed hfirst hsecond).mp haccepted
  have hmem : ∀ a ∈ hashedTexts sampleGraph++hashedTexts renamedGraph,
      a ∈ hashedTexts sampleGraph := by
    intro a ha
    rcases List.mem_append.mp ha with ha | ha
    · exact ha
    · exact hashed_image hsample.forest hrenamed.forest hf a ha
  obtain ⟨hmatch,hjson⟩ := graphs_isomorphic (fun _ => true) hsample hrenamed hfirst hsecond
    fun a ha b hb hab => List.inj_on_of_nodup_map hnodup (hmem a ha) (hmem b hb) hab
  exact ⟨hmatch.mp haccepted,hjson.mpr (hmatch.mp haccepted)⟩

end LawyerAgent.ChunkSemantics
