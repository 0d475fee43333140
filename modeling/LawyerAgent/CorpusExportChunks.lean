import LawyerAgent.CorpusExportRows

/-!
# The chunks of an export

The chunks that are prepared have identifiers of their own, every child names a
root among them, and together they cover the paragraphs of the document.
-/

set_option autoImplicit false

namespace LawyerAgent.CorpusExport
open Common ChunkStructure
open CanonicalJson (encode hex_inj)
open JsonReader (encode_inj)
open LegalArticleHeading (Text)
open LegalStructureParser (ParsedArticle ParsedInstrument ParseError)

variable {sha256 : List UInt8 → Digest} {job : ExportJob} {provisions : List Provision}
  {rows : List ChunkRow}

theorem provisionIndex_some {id : UUID7} {p : Provision} {index : ℕ}
    (h : provisionIndex provisions id = some (p,index)) :
    p.id = id ∧ provisions[index]? = some p := by
  have hmem := List.mem_of_getLast? h
  rw [List.mem_filter,List.mem_zipIdx_iff_getElem?,beq_iff_eq] at hmem
  exact hmem.symm

variable {met : List UUID7} {parentIds : List (UUID7 × ChunkKey)}
  {located : List (LocatedLegalChunk sha256)}

/-- What the first chunk becomes, and what is left of the others. -/
theorem chunkRows_cons {located : LocatedLegalChunk sha256} {rest : List (LocatedLegalChunk sha256)}
    (h : chunkRows provisions met parentIds (located::rest) = .ok rows) :
    ∃ p index parent later parents, provisions[index]? = some p ∧
      rows = derivedRow sha256 p (.chunk index (met.count p.id) located.chunk.value.content)
        parent located::later ∧
      chunkRows provisions (p.id::met) parents rest = .ok later ∧
      (∀ k ∈ parent, k ∈ parentIds.map Prod.snd) ∧
      ∀ k ∈ parents.map Prod.snd, k ∈ parentIds.map Prod.snd ∨ parent = none ∧
        k = .chunk index (met.count p.id) located.chunk.value.content := by
  rw [chunkRows] at h
  cases hindex : provisionIndex provisions located.chunk.value.provisionId with
  | none =>
    rw [hindex] at h
    cases h
  | some found =>
    obtain ⟨p,index⟩ := found
    obtain ⟨hid,hplace⟩ := provisionIndex_some hindex
    rw [hindex] at h
    simp only [← hid] at h
    cases hparent : located.chunk.value.parentChunkId with
    | none =>
      rw [hparent] at h
      obtain ⟨later,hlater,rfl⟩ := JsonDecoding.map_ok.mp h
      refine ⟨p,index,none,later,_,hplace,rfl,hlater,by simp,?_⟩
      intro k hk
      rcases List.mem_cons.mp hk with rfl | hk
      · exact .inr ⟨rfl,rfl⟩
      · exact .inl hk
    | some id =>
      rw [hparent] at h
      cases hlookup : parentIds.lookup id with
      | none =>
        simp only [hlookup] at h
        cases h
      | some k =>
        simp only [hlookup] at h
        obtain ⟨later,hlater,rfl⟩ := JsonDecoding.map_ok.mp h
        refine ⟨p,index,some k,later,parentIds,hplace,rfl,hlater,?_,fun _ hk => .inl hk⟩
        intro other hother
        cases hother
        obtain ⟨front,back,hsplit,-⟩ := List.lookup_eq_some_iff.mp hlookup
        rw [hsplit]
        simp

/-- The key counts on from the chunks that were met in its provision. -/
def CountedFrom (provisions : List Provision) (met : List UUID7) (key : ChunkKey) : Prop :=
  ∃ index sequence content p, key = .chunk index sequence content ∧
    provisions[index]? = some p ∧ met.count p.id ≤ sequence

theorem chunkRows_keys (h : chunkRows provisions met parentIds located = .ok rows) :
    (∀ row ∈ rows, CountedFrom provisions met row.key) ∧ (rows.map ChunkRow.key).Nodup := by
  induction located generalizing met parentIds rows with
  | nil =>
    cases h
    exact ⟨by simp,List.nodup_nil⟩
  | cons first located ih =>
    obtain ⟨p,index,parent,later,parents,hplace,rfl,hlater,-⟩ := chunkRows_cons h
    obtain ⟨hcounted,hnodup⟩ := ih hlater
    refine ⟨List.forall_mem_cons.mpr ⟨⟨_,_,_,p,rfl,hplace,le_refl _⟩,?_⟩,?_⟩
    · intro row hrow
      obtain ⟨other,sequence,content,q,hkey,hq,hle⟩ := hcounted row hrow
      have hmore : met.count q.id ≤ (p.id::met).count q.id := by
        rw [List.count_cons]
        omega
      exact ⟨other,sequence,content,q,hkey,hq,hmore.trans hle⟩
    · rw [List.map_cons]
      refine List.nodup_cons.mpr ⟨?_,hnodup⟩
      intro hmem
      obtain ⟨row,hrow,hsame⟩ := List.mem_map.mp hmem
      obtain ⟨other,sequence,content,q,hkey,hq,hle⟩ := hcounted row hrow
      have hequal := ChunkKey.chunk.inj (hkey.symm.trans hsame)
      obtain ⟨rfl,rfl,-⟩ := hequal
      rw [hplace] at hq
      cases hq
      rw [List.count_cons_self] at hle
      omega

def Rooted (rows : List ChunkRow) : Prop :=
  ∀ row ∈ rows, ∀ k ∈ row.parent, ∃ root ∈ rows, root.parent = none ∧ root.key = k

theorem chunkRows_rooted (h : chunkRows provisions met parentIds located = .ok rows) :
    ∀ row ∈ rows, ∀ k ∈ row.parent, k ∈ parentIds.map Prod.snd ∨
      ∃ root ∈ rows, root.parent = none ∧ root.key = k := by
  induction located generalizing met parentIds rows with
  | nil =>
    cases h
    simp
  | cons first located ih =>
    obtain ⟨p,index,parent,later,parents,-,rfl,hlater,hparent,hparents⟩ := chunkRows_cons h
    rw [List.forall_mem_cons]
    refine ⟨fun k hk => .inl (hparent k hk),?_⟩
    intro row hrow k hk
    rcases ih hlater row hrow k hk with hmem | ⟨root,hroot,hnone,hkey⟩
    · rcases hparents k hmem with hold | ⟨rfl,rfl⟩
      · exact .inl hold
      · exact .inr ⟨_,List.mem_cons_self,rfl,rfl⟩
    · exact .inr ⟨root,List.mem_cons_of_mem _ hroot,hnone,hkey⟩

theorem buildChunks_sound {newId : ℕ → UUID7} {articles : List ParsedArticle}
    {body : List ExportParagraph} (h : buildChunks sha256 job newId articles body = .ok rows) :
    (∀ row ∈ rows, ∀ n, row.key ≠ .sourceParagraph n) ∧ (rows.map ChunkRow.key).Nodup ∧
      Rooted rows := by
  unfold buildChunks at h
  by_cases hnone : articles = []
  · rw [if_pos hnone] at h
    cases h
    exact ⟨by simp,List.nodup_nil,by simp [Rooted]⟩
  · rw [if_neg hnone] at h
    obtain ⟨mapped,-,h⟩ := JsonDecoding.bind_ok.mp h
    simp only at h
    split at h
    · cases h
    · obtain ⟨hcounted,hnodup⟩ := chunkRows_keys h
      refine ⟨?_,hnodup,?_⟩
      · intro row hrow n hkey
        obtain ⟨_,_,_,_,hchunk,-⟩ := hcounted row hrow
        cases hchunk.symm.trans hkey
      · intro row hrow k hk
        exact (chunkRows_rooted h row hrow k hk).resolve_left (by simp)

theorem allChunks_sound (read : ExportDocument)
    (hchunks : ∀ row ∈ rows, ∀ n, row.key ≠ .sourceParagraph n)
    (hnodup : (rows.map ChunkRow.key).Nodup) (hrooted : Rooted rows) :
    ((allChunks read rows).map ChunkRow.key).Nodup ∧ Rooted (allChunks read rows) := by
  constructor
  · rw [allChunks,List.map_append,List.map_map]
    have hordinals : (read.paragraphs.map ExportParagraph.ordinal).Nodup := by
      rw [read.counted]
      exact List.nodup_range
    have hsource : (((read.paragraphs.filter fun p => !(covered rows).contains p.ordinal).map
        ExportParagraph.ordinal).map ChunkKey.sourceParagraph).Nodup :=
      (hordinals.sublist (List.filter_sublist.map _)).map fun _ _ => ChunkKey.sourceParagraph.inj
    rw [List.map_map] at hsource
    refine List.nodup_append'.mpr ⟨hnodup,hsource,?_⟩
    intro key hkey hother
    obtain ⟨row,hrow,rfl⟩ := List.mem_map.mp hkey
    obtain ⟨p,-,hsame⟩ := List.mem_map.mp hother
    exact hchunks row hrow p.ordinal hsame.symm
  · intro row hrow k hk
    rcases List.mem_append.mp hrow with hold | hsource
    · obtain ⟨root,hroot,hfacts⟩ := hrooted row hold k hk
      exact ⟨root,List.mem_append_left _ hroot,hfacts⟩
    · obtain ⟨p,-,rfl⟩ := List.mem_map.mp hsource
      cases hk

theorem decimal_delimited :
    Codes.Delimited (fun _ : ℕ => True) fun n => decimalText n++[Char.ofNat 0] := by
  apply Codes.delimited_until
  · intro n _ hmem
    have hdigit := Nat.isDigit_of_mem_toDigits (by decide) (by decide) hmem
    exact absurd hdigit (by decide)
  · intro a b _ _ h
    have hvalue := congrArg JsonText.decimal h
    rwa [decimalText,decimalText,JsonText.decimal_toDigits,JsonText.decimal_toDigits] at hvalue

theorem joined_last (text : Text) : [Char.ofNat 0].intercalate [text] = text := by
  simp [List.intercalate]

theorem key_inj {a b : ChunkKey} (h : idText (a.parts job) = idText (b.parts job)) : a = b := by
  have hkind : ∀ x y : List Char, "chunk".toList++x ≠ "source-paragraph".toList++y := by
    intro x y hsame
    have hhead := congrArg List.head? hsame
    have hleft : ("chunk".toList++x).head? = some 'c' := rfl
    have hright : ("source-paragraph".toList++y).head? = some 's' := rfl
    rw [hleft,hright] at hhead
    exact absurd hhead (by decide)
  cases a with
  | chunk index sequence content =>
    cases b with
    | chunk index' sequence' content' =>
      simp only [idText,ChunkKey.parts,List.intercalate_cons_cons,List.append_assoc,
        List.append_cancel_left_eq] at h
      rw [joined_last,joined_last,← List.append_assoc,← List.append_assoc (decimalText index')] at h
      obtain ⟨rfl,hrest⟩ := decimal_delimited _ _ trivial trivial _ _ h
      rw [← List.append_assoc,← List.append_assoc (decimalText sequence')] at hrest
      obtain ⟨rfl,rfl⟩ := decimal_delimited _ _ trivial trivial _ _ hrest
      rfl
    | sourceParagraph n =>
      simp only [idText,ChunkKey.parts,List.intercalate_cons_cons,List.append_assoc,
        List.append_cancel_left_eq] at h
      exact absurd h (hkind _ _)
  | sourceParagraph n =>
    cases b with
    | chunk index sequence content =>
      simp only [idText,ChunkKey.parts,List.intercalate_cons_cons,List.append_assoc,
        List.append_cancel_left_eq] at h
      exact absurd h.symm (hkind _ _)
    | sourceParagraph m =>
      simp only [idText,ChunkKey.parts,List.intercalate_cons_cons,List.append_assoc,
        List.append_cancel_left_eq] at h
      rw [joined_last,joined_last] at h
      rw [Codes.delimited_inj decimal_delimited trivial trivial (congrArg (·++[Char.ofNat 0]) h)]

/-- The texts that the identifiers of some chunks are the hashes of. -/
def hashedIds (job : ExportJob) (rows : List ChunkRow) : Set (List UInt8) :=
  {bytes | ∃ row ∈ rows, bytes = encode (idText (row.key.parts job))}

theorem chunkId_inj (h : Set.InjOn sha256 (hashedIds job rows)) {row other : ChunkRow}
    (hrow : row ∈ rows) (hother : other ∈ rows)
    (hsame : chunkId sha256 job row.key = chunkId sha256 job other.key) : row.key = other.key := by
  have hdigest := hex_inj (String.toList_injective hsame)
  exact key_inj (encode_inj (h ⟨row,hrow,rfl⟩ ⟨other,hother,rfl⟩ hdigest))

structure Sound (job : ExportJob) (p : Prepared) : Prop where
  nonempty : p.read.paragraphs ≠ []
  keys : (p.chunks.map ChunkRow.key).Nodup
  rooted : Rooted p.chunks
  coverage : (covered p.chunks).toFinset =
    (p.read.paragraphs.map ExportParagraph.ordinal).toFinset
  flags : ∀ flag ∈ conversionQualityFlags, flag ∈ p.flags ↔ flag ∈ job.conversionFlags

theorem articlesOf_flags (parsed : Except ParseError ParsedInstrument) :
    ∀ flag ∈ (articlesOf parsed).2,
      flag ∈ ["duplicate_article_number","structure_review_required"] := by
  unfold articlesOf
  split
  · simp
  · split_ifs <;> simp

theorem prepare_read {s : Surroundings} {p : Prepared} (h : prepare sha256 job s = .ok p) :
    s.read = .ok p.read := by
  obtain ⟨read,hread,h⟩ := Outcomes.bind_ok.mp h
  obtain ⟨-,-,h⟩ := Outcomes.bind_ok.mp h
  split_ifs at h
  obtain ⟨rows,-,h⟩ := Outcomes.bind_ok.mp h
  simp only at h
  split_ifs at h
  cases h
  cases hs : s.read with
  | error code =>
    rw [hs] at hread
    cases hread
  | ok found =>
    rw [hs] at hread
    cases hread
    rfl

theorem prepare_sound {s : Surroundings} {p : Prepared} (h : prepare sha256 job s = .ok p) :
    Sound job p := by
  obtain ⟨read,-,h⟩ := Outcomes.bind_ok.mp h
  obtain ⟨-,-,h⟩ := Outcomes.bind_ok.mp h
  split_ifs at h with hnone
  obtain ⟨rows,hrows,h⟩ := Outcomes.bind_ok.mp h
  simp only at h
  split_ifs at h with hcovered
  cases h
  obtain ⟨hchunks,hnodup,hrooted⟩ := buildChunks_sound hrows
  obtain ⟨hkeys,hroots⟩ := allChunks_sound read hchunks hnodup hrooted
  refine ⟨hnone,hkeys,hroots,not_ne_iff.mp hcovered,?_⟩
  intro flag hflag
  have hother : ∀ flag ∈ readerFlags++["duplicate_article_number","structure_review_required"],
      flag ∉ conversionQualityFlags := by decide
  rw [List.mem_insertionSort,List.mem_dedup,List.mem_append,List.mem_append]
  constructor
  · rintro ((hread | hconversion) | hparsed)
    · exact absurd hflag (hother _ (List.mem_append_left _ (read.flagged _ hread)))
    · exact hconversion
    · exact absurd hflag (hother _ (List.mem_append_right _ (articlesOf_flags _ _ hparsed)))
  · exact fun hconversion => .inl (.inr hconversion)

end LawyerAgent.CorpusExport
