import LawyerAgent.CorpusExportChunks

/-!
# Running an export again

What an export has stored passes the checks of a later run exactly when no file
of rows holds a line boundary. Other rows than the stored ones never pass.
-/

set_option autoImplicit false

namespace LawyerAgent.CorpusExport
open Common
open CanonicalJson (encode hex_inj)
open PythonJson (Value plainText)
open JsonDecoding (DecodeFailure)
open Outcomes.Effect (bind_done pure_done settle_done require_done)
open LegalArticleHeading (Text)

variable {sha256 : List UInt8 → Digest} {double : List Char → ℚ} {job : ExportJob}
  {s : Surroundings} {p : Prepared} {a b : Digest}

theorem isText_textValue (text : Text) : isText (textValue text) text = true :=
  beq_self_eq_true _

theorem hasFields_items {fields : Fields} {names : List String}
    (h : names.all fun name => (fields.lookup name).isSome) :
    hasFields (items fields) names = true := by
  simpa only [hasFields,item_items] using h

theorem scalar_number (n : ℕ) : scalar double (number n) = some (.number n) := by
  simp [number,scalar]

theorem items_length (fields : Fields) : (items fields).length = fields.length := by
  simp [items,JsonDecoding.entries]

theorem sameDict_items {fields : Fields} (h : ∀ f ∈ fields, fields.lookup f.1 = some f.2 ∧
    (scalar double f.2).isSome = true) : sameDict double (.dict (items fields)) fields = true := by
  rw [sameDict,items_length,beq_self_eq_true,Bool.true_and,List.all_eq_true]
  intro f hf
  obtain ⟨hlookup,hscalar⟩ := h f hf
  rw [item_items,hlookup,Option.bind_some,hscalar,beq_self_eq_true]
  rfl

theorem configuration_matches (config : ChunkStructure.Settings) :
    sameDict double (.dict (items (configurationFields config))) (configurationFields config) =
      true := by
  apply sameDict_items
  simp only [configurationFields,List.forall_mem_cons,List.not_mem_nil,false_implies,implies_true,
    and_true]
  exact ⟨⟨rfl,rfl⟩,⟨rfl,rfl⟩,rfl,rfl⟩

theorem provenance_matches (provenance : Option ConversionProvenance) :
    provenanceMatches double provenance
      (optional (fun c => .dict (items (provenanceFields c))) provenance) = true := by
  cases provenance with
  | none => rfl
  | some c =>
    have hoptional : ∀ t, (scalar double (optional textValue t)).isSome = true := by
      intro t
      cases t <;> rfl
    have hreason : (scalar double (if c.officeValidationFailed = true then
        wordValue "office_validation_failed" else .none)).isSome = true := by
      split_ifs <;> rfl
    change sameDict double (.dict (items (provenanceFields c))) (provenanceFields c) = true
    apply sameDict_items
    simp only [provenanceFields,List.forall_mem_cons,List.not_mem_nil,false_implies,implies_true,
      and_true]
    exact ⟨⟨rfl,hoptional _⟩,⟨rfl,hoptional _⟩,rfl,hreason⟩

theorem hash_matches (hash : Option Digest) :
    hashMatches hash (optional (fun d => textValue (hexText d)) hash) = true := by
  cases hash with
  | none => rfl
  | some d => exact isText_textValue _

theorem flags_document (h : Sound job p) :
    flagsMatch (.list (p.flags.map wordValue)) job.conversionFlags = true := by
  have htexts : (p.flags.map wordValue).mapM strOf =
      some (p.flags.map fun flag => plainText flag.toList) := by
    rw [Outcomes.mapM_some,List.forall₂_map_left_iff,List.forall₂_map_right_iff]
    exact List.forall₂_same.mpr fun _ _ => rfl
  rw [flagsMatch,htexts]
  simp only [List.all_eq_true]
  intro flag hflag
  rw [beq_iff_eq,Bool.eq_iff_iff,List.contains_iff_mem,List.contains_iff_mem,← h.flags flag hflag,
    List.mem_map]
  constructor
  · rintro ⟨other,hother,hsame⟩
    rwa [← String.toList_injective (DatasetFacts.plainText_inj hsame)]
  · exact fun hmem => ⟨flag,hmem,rfl⟩

theorem metadata_document (h : Sound job p) :
    metadataMatches sha256 double job (items (documentFields sha256 job p a b)) = true := by
  have htexts : [("schema_version",exportVersion.toList),("id_namespace",idNamespace.toList),
      ("source_path",job.source),("source_relative_path",job.relative),
      ("document_id",documentId sha256 job),("parser_version",parserVersion.toList),
      ("source_sha256",hexText job.sourceHash),("export_version",exportVersion.toList)].all
        (fun f => isText (field (items (documentFields sha256 job p a b)) f.1) f.2) = true := by
    simp only [List.all_cons,List.all_nil,Bool.and_true,Bool.and_eq_true,field_items]
    exact ⟨isText_textValue _,isText_textValue _,isText_textValue _,isText_textValue _,
      isText_textValue _,isText_textValue _,isText_textValue _,isText_textValue _⟩
  have hloader : [loaderVersion,numberingLoaderVersion].any (fun version =>
      isText (field (items (documentFields sha256 job p a b)) "loader_version")
        version.toList) = true := by
    rw [field_items]
    change [loaderVersion,numberingLoaderVersion].any (fun version =>
      isText (wordValue p.read.loaderVersion) version.toList) = true
    rw [List.any_eq_true]
    refine ⟨p.read.loaderVersion,?_,isText_textValue _⟩
    unfold ExportDocument.loaderVersion
    split_ifs <;> simp
  have hfields : ∀ name value, (documentFields sha256 job p a b).lookup name = some value →
      field (items (documentFields sha256 job p a b)) name = value := by
    intro name value hlookup
    rw [field_items,hlookup]
    rfl
  have hflags := hfields "quality_flags" _ rfl
  have hprovenance := hfields "conversion_provenance" _ rfl
  have hconverted := hfields "converted_sha256" _ rfl
  have hconfig := hfields "configuration" _ rfl
  rw [metadataMatches,hasFields_items (by rfl),htexts,hloader,hflags,flags_document h,hprovenance,
    provenance_matches,hconverted,hash_matches,hconfig,configuration_matches]
  rfl

theorem fileMatches_self (bytes : List UInt8) :
    fileMatches sha256 (some bytes) (some (textValue (hexText (sha256 bytes)))) = true :=
  isText_textValue _

theorem hashes_document {paragraphs chunks : List UInt8} {d : Directory}
    (hsafe : s.safe .paragraphs = true ∧ s.safe .chunks = true)
    (hparagraphs : d.paragraphs = some paragraphs) (hchunks : d.chunks = some chunks) :
    hashesMatch sha256 s (items (documentFields sha256 job p (sha256 paragraphs) (sha256 chunks)))
      d = true := by
  have hhashes : field (items (documentFields sha256 job p (sha256 paragraphs) (sha256 chunks)))
      "output_hashes" = .dict (items [("chunks.jsonl",textValue (hexText (sha256 chunks))),
        ("paragraphs.jsonl",textValue (hexText (sha256 paragraphs)))]) := by
    rw [field_items]
    rfl
  rw [hashesMatch,hhashes]
  simp only [item_items,hsafe,hparagraphs,hchunks,items_length,Bool.and_true,Bool.and_eq_true]
  exact ⟨⟨rfl,fileMatches_self paragraphs⟩,fileMatches_self chunks⟩

theorem counts_items {fields : Fields} {name : String} {n : ℕ}
    (h : fields.lookup name = some (number n)) : counts double (items fields) name n = true := by
  rw [counts,item_items,h,Option.bind_some,scalar_number,beq_self_eq_true]

theorem keys_map {α : Type} (f : α → Fields) (g : α → Scalar) (name : String) (xs : List α)
    (h : ∀ x, ((f x).lookup name).bind (scalar double) = some (g x)) :
    keys double ((xs.map f).map items) name = some (xs.map g) := by
  rw [keys,List.map_map,Outcomes.mapM_some,List.forall₂_map_left_iff,List.forall₂_map_right_iff]
  refine List.forall₂_same.mpr fun x _ => ?_
  rw [Function.comp_apply,item_items,h x]

variable {rows : List ChunkRow}

/-- The identifier of a chunk as a member of a set. -/
def idScalar (sha256 : List UInt8 → Digest) (job : ExportJob) (key : ChunkKey) : Scalar :=
  .text (plainText (chunkId sha256 job key))

theorem parent_field (c : ChunkRow) : field (items (chunkFields sha256 job c)) "parent_chunk_id" =
    optional (fun key => textValue (chunkId sha256 job key)) c.parent := by
  rw [field_items]
  rfl

theorem parent_isNone (c : ChunkRow) :
    isNone (field (items (chunkFields sha256 job c)) "parent_chunk_id") = c.parent.isNone := by
  rw [parent_field]
  cases c.parent <;> rfl

theorem rows_parents : (((rows.map (chunkFields sha256 job)).map items).filter fun row =>
      isNone (field row "parent_chunk_id")) =
    ((rows.filter fun c => c.parent.isNone).map (chunkFields sha256 job)).map items := by
  rw [List.filter_map,List.filter_map]
  congr 3
  funext c
  exact parent_isNone c

theorem rows_children : (((rows.map (chunkFields sha256 job)).map items).filter fun row =>
      !isNone (field row "parent_chunk_id")) =
    ((rows.filter fun c => c.parent.isSome).map (chunkFields sha256 job)).map items := by
  rw [List.filter_map,List.filter_map]
  congr 3
  funext c
  simp only [Function.comp_apply,parent_isNone]
  cases c.parent <;> rfl

theorem roots_nodup (hkeys : (rows.map ChunkRow.key).Nodup)
    (hids : Set.InjOn sha256 (hashedIds job rows)) :
    ((rows.filter fun c => c.parent.isNone).map fun c => idScalar sha256 job c.key).Nodup := by
  have hroots := hkeys.sublist ((List.filter_sublist (p := fun c => c.parent.isNone)).map _)
  have hscalars := hroots.map_on (f := idScalar sha256 job) (by
    intro key hkey other hother hsame
    obtain ⟨row,hrow,rfl⟩ := List.mem_map.mp hkey
    obtain ⟨second,hsecond,rfl⟩ := List.mem_map.mp hother
    exact chunkId_inj hids (List.mem_of_mem_filter hrow) (List.mem_of_mem_filter hsecond)
      (DatasetFacts.plainText_inj (Scalar.text.inj hsame)))
  rwa [List.map_map] at hscalars

theorem covered_rows :
    coveredKeys double ((rows.map (chunkFields sha256 job)).map items) =
      some ((covered rows).map fun n : ℕ => .number n) := by
  have hlists : ((rows.map (chunkFields sha256 job)).map items).mapM (fun row =>
      (item row "source_paragraph_ordinals").bind elements) =
        some (rows.map fun c => c.sourceParagraphOrdinals.map number) := by
    rw [List.map_map,Outcomes.mapM_some,List.forall₂_map_left_iff,List.forall₂_map_right_iff]
    refine List.forall₂_same.mpr fun c _ => ?_
    rw [Function.comp_apply,item_items]
    rfl
  have hflatten : (rows.map fun c => c.sourceParagraphOrdinals.map number).flatten =
      (covered rows).map number := by
    rw [covered,List.map_flatMap,List.flatMap_def]
  rw [coveredKeys,hlists,Option.bind_some,hflatten,Outcomes.mapM_some,List.forall₂_map_left_iff,
    List.forall₂_map_right_iff]
  exact List.forall₂_same.mpr fun n _ => scalar_number n

theorem paragraph_ordinal (x : ExportParagraph) :
    ((paragraphFields sha256 job x).lookup "ordinal").bind (scalar double) =
      some (.number x.ordinal) := by
  have hnumber : scalar double (number x.ordinal) = some (.number x.ordinal) := scalar_number _
  rw [← hnumber]
  unfold paragraphFields
  cases x.numberingProvenance <;> rfl

theorem children_named (hrooted : Rooted rows) :
    (((rows.filter fun c => c.parent.isSome).map (chunkFields sha256 job)).map items).all
      (fun row => ((scalar double (field row "parent_chunk_id")).map
        ((rows.filter fun c => c.parent.isNone).map
          fun c => idScalar sha256 job c.key).contains).getD false) = true := by
  rw [List.all_eq_true,List.map_map,List.forall_mem_map]
  intro c hc
  obtain ⟨hmem,hsome⟩ := List.mem_filter.mp hc
  obtain ⟨k,hk⟩ := Option.isSome_iff_exists.mp hsome
  obtain ⟨root,hroot,hnone,rfl⟩ := hrooted c hmem k hk
  rw [Function.comp_apply,parent_field,hk]
  change ((rows.filter fun c => c.parent.isNone).map
    fun c => idScalar sha256 job c.key).contains (idScalar sha256 job root.key) = true
  rw [List.contains_iff_mem]
  exact List.mem_map_of_mem (List.mem_filter.mpr ⟨hroot,by rw [hnone]; rfl⟩)

theorem covered_same (h : Sound job p) :
    ((covered p.chunks).map fun n : ℕ => Scalar.number n).toFinset =
      (p.read.paragraphs.map fun x => Scalar.number x.ordinal).toFinset := by
  have hmap : (p.read.paragraphs.map fun x => Scalar.number x.ordinal) =
      (p.read.paragraphs.map ExportParagraph.ordinal).map fun n : ℕ => Scalar.number n := by
    rw [List.map_map]
    rfl
  rw [hmap]
  ext k
  rw [List.mem_toFinset,List.mem_toFinset,List.mem_map,List.mem_map]
  have hsame : ∀ n, n ∈ covered p.chunks ↔ n ∈ p.read.paragraphs.map ExportParagraph.ordinal := by
    intro n
    rw [← List.mem_toFinset,h.coverage,List.mem_toFinset]
  simp only [hsame]

theorem number_inj : Function.Injective fun n : ℕ => Scalar.number (n : ℚ) :=
  fun _ _ h => Nat.cast_injective (Scalar.number.inj h)

theorem rowsValid_document (h : Sound job p) (hids : Set.InjOn sha256 (hashedIds job p.chunks)) :
    rowsValid double (items (documentFields sha256 job p a b))
      ((p.read.paragraphs.map (paragraphFields sha256 job)).map items)
      ((p.chunks.map (chunkFields sha256 job)).map items) = true := by
  have hchunks : p.chunks ≠ [] := by
    intro hnone
    have hcoverage := h.coverage
    rw [hnone] at hcoverage
    have hempty := (List.toFinset_eq_empty_iff _).mp hcoverage.symm
    exact h.nonempty (List.map_eq_nil_iff.mp hempty)
  have hparents : keys double (((p.chunks.filter fun c => c.parent.isNone).map
      (chunkFields sha256 job)).map items) "chunk_id" =
        some ((p.chunks.filter fun c => c.parent.isNone).map
          fun c => idScalar sha256 job c.key) :=
    keys_map _ _ _ _ fun _ => rfl
  have hordinals : keys double ((p.read.paragraphs.map (paragraphFields sha256 job)).map items)
      "ordinal" = some (p.read.paragraphs.map fun x => .number x.ordinal) :=
    keys_map _ _ _ _ paragraph_ordinal
  have hfields : ((p.chunks.map (chunkFields sha256 job)).map items).all
      (fun row => hasFields row requiredChunkFields) = true := by
    rw [List.all_eq_true,List.map_map,List.forall_mem_map]
    exact fun c _ => hasFields_items (by rfl)
  have hnodup := (roots_nodup h.keys hids).dedup
  simp only [rowsValid,rows_parents,rows_children,hparents,hordinals,covered_rows,hfields,
    children_named h.rooted,covered_same h,hnodup,List.length_map,
    List.dedup_map_of_injective number_inj,Bool.and_true,Bool.and_eq_true]
  have hsize : ∀ {name : String} {n : ℕ},
      (documentFields sha256 job p a b).lookup name = some (number n) →
        counts double (items (documentFields sha256 job p a b)) name n = true := counts_items
  refine ⟨⟨⟨⟨⟨?_,?_⟩,hsize rfl⟩,hsize rfl⟩,hsize rfl,hsize rfl⟩,beq_self_eq_true _,hsize rfl⟩
  · simp [h.nonempty]
  · simp [hchunks]

variable {I : Interpreter} {d after : Directory} {document : Value} {written : Bool}

/-- A completed export has written three files, the metadata last. -/
theorem exportAgain_done
    (h : exportAgain sha256 job s d = (.ok (document,written),after)) :
    ∃ p paragraphs chunks bytes, prepare sha256 job s = .ok p ∧
      jsonl (p.read.paragraphs.map (paragraphFields sha256 job)) = .ok paragraphs ∧
      jsonl (p.chunks.map (chunkFields sha256 job)) = .ok chunks ∧
      json (documentFields sha256 job p (sha256 paragraphs) (sha256 chunks)) = .ok bytes ∧
      (s.safe .paragraphs = true ∧ s.safe .chunks = true) ∧
      document = .dict (items (documentFields sha256 job p (sha256 paragraphs) (sha256 chunks))) ∧
      after = ⟨some bytes,some paragraphs,some chunks⟩ ∧ written = true := by
  obtain ⟨p,d₁,h₁,h⟩ := bind_done.mp h
  obtain ⟨hp,rfl⟩ := settle_done.mp h₁
  obtain ⟨_,d₂,h₂,h⟩ := bind_done.mp h
  obtain ⟨-,rfl⟩ := require_done.mp h₂
  obtain ⟨_,d₃,h₃,h⟩ := bind_done.mp h
  obtain ⟨hparagraphsSafe,rfl⟩ := require_done.mp h₃
  obtain ⟨paragraphs,d₄,h₄,h⟩ := bind_done.mp h
  obtain ⟨hparagraphs,rfl⟩ := settle_done.mp h₄
  obtain ⟨_,d₅,h₅,h⟩ := bind_done.mp h
  obtain ⟨_,d₆,h₆,h⟩ := bind_done.mp h
  obtain ⟨hchunksSafe,rfl⟩ := require_done.mp h₆
  obtain ⟨chunks,d₇,h₇,h⟩ := bind_done.mp h
  obtain ⟨hchunks,rfl⟩ := settle_done.mp h₇
  obtain ⟨_,d₈,h₈,h⟩ := bind_done.mp h
  obtain ⟨_,d₉,h₉,h⟩ := bind_done.mp h
  obtain ⟨-,rfl⟩ := settle_done.mp h₉
  obtain ⟨_,d₁₀,h₁₀,h⟩ := bind_done.mp h
  obtain ⟨-,rfl⟩ := require_done.mp h₁₀
  obtain ⟨bytes,d₁₁,h₁₁,h⟩ := bind_done.mp h
  obtain ⟨hbytes,rfl⟩ := settle_done.mp h₁₁
  obtain ⟨_,d₁₂,h₁₂,h⟩ := bind_done.mp h
  obtain ⟨hvalue,rfl⟩ := pure_done.mp h
  cases h₅
  cases h₈
  cases h₁₂
  cases hvalue
  exact ⟨p,paragraphs,chunks,bytes,hp,hparagraphs,hchunks,hbytes,⟨hparagraphsSafe,hchunksSafe⟩,
    rfl,rfl,rfl⟩

theorem exportOne_done (h : exportOne sha256 I job s d = (.ok (document,written),after)) :
    s.safe .document = true ∧
      (recognised sha256 I job s d = .ok (some document) ∧ written = false ∧ after = d ∨
        exportAgain sha256 job s d = (.ok (document,written),after)) := by
  obtain ⟨_,d₁,h₁,h⟩ := bind_done.mp h
  obtain ⟨hsafe,rfl⟩ := require_done.mp h₁
  obtain ⟨found,d₂,h₂,h⟩ := bind_done.mp h
  obtain ⟨hfound,rfl⟩ := Prod.mk.inj h₂
  refine ⟨hsafe,?_⟩
  cases found with
  | none => exact .inr h
  | some value =>
    obtain ⟨hvalue,rfl⟩ := pure_done.mp h
    cases hvalue
    exact .inl ⟨hfound,rfl,rfl⟩

theorem exportOne_runs (hsafe : s.safe .document = true) {found : Option Value}
    (hfound : recognised sha256 I job s d = .ok found) :
    exportOne sha256 I job s d = (found.map fun value => (.ok (value,false),d)).getD
      (exportAgain sha256 job s d) := by
  have hassert : assertSafe s .document d = (.ok (),d) := by
    rw [assertSafe,require_done]
    exact ⟨hsafe,rfl⟩
  rw [exportOne,Outcomes.Effect.bind_runs _ hassert]
  have hread : inspect (recognised sha256 I job s) d = (.ok found,d) := by
    rw [inspect,hfound]
  rw [Outcomes.Effect.bind_runs _ hread]
  cases found <;> rfl

theorem caught_ok {α : Type} {default a : α} {x : Except DecodeFailure α}
    (h : caught default x = .ok a) : x = .ok a ∨ a = default := by
  unfold caught at h
  split at h
  · cases h
    exact .inl rfl
  · cases h
  · cases h
    exact .inr rfl

theorem recognised_some (h : recognised sha256 I job s d = .ok (some document)) :
    ∃ bytes row, d.document = some bytes ∧ readDocument I bytes = .ok row ∧
      document = .dict row ∧ hashesMatch sha256 s row d = true ∧
      cachedRowsAreValid I row d = .ok true := by
  unfold recognised at h
  cases hbytes : d.document with
  | none =>
    rw [hbytes] at h
    cases h
  | some bytes =>
    rw [hbytes] at h
    obtain ⟨found,hfound,hvalid⟩ := JsonDecoding.bind_ok.mp h
    cases found with
    | none => cases hvalid
    | some row =>
      obtain ⟨valid,hexisting,hvalue⟩ := JsonDecoding.map_ok.mp hvalid
      split_ifs at hvalue with htrue
      cases hvalue
      rw [htrue,validExisting] at hexisting
      have hread := (caught_ok hfound).resolve_right (Option.some_ne_none row)
      obtain ⟨_,hread,hsome⟩ := JsonDecoding.map_ok.mp hread
      cases hsome
      split_ifs at hexisting with hmatch
      · obtain ⟨-,hhashes⟩ := Bool.and_eq_true_iff.mp hmatch
        exact ⟨bytes,row,rfl,hread,rfl,hhashes,
          (caught_ok hexisting).resolve_right Bool.true_eq_false_eq_False.elim⟩
      · cases hexisting

theorem recognised_found {bytes : List UInt8} {row : List (Value × Value)}
    (hbytes : d.document = some bytes) (hread : readDocument I bytes = .ok row) :
    recognised sha256 I job s d = (validExisting sha256 I job s row d).map fun valid =>
      if valid then some (.dict row) else none := by
  rw [recognised,hbytes]
  simp only [hread]
  rfl

theorem isText_unique {value : Value} {text other : Text} (h : isText value text = true)
    (k : isText value other = true) : text = other := by
  unfold isText at h k
  cases value with
  | str t => exact DatasetFacts.plainText_inj ((beq_iff_eq.mp h).symm.trans (beq_iff_eq.mp k))
  | _ => cases h

theorem fileMatches_unique {file other : Option (List UInt8)} {digest : Option Value}
    (h : fileMatches sha256 file digest = true) (k : fileMatches sha256 other digest = true)
    (hinj : Set.InjOn sha256 {bytes | file = some bytes ∨ other = some bytes}) : file = other := by
  cases file with
  | none => cases h
  | some bytes =>
    cases other with
    | none => cases k
    | some changed =>
      cases digest with
      | none => cases h
      | some value =>
        have hsame := hex_inj (String.toList_injective (isText_unique h k))
        rw [hinj (.inl rfl) (.inr rfl) hsame]

/-- No stored file of rows holds a line boundary inside of a row. -/
def Directory.Unbroken (d : Directory) : Prop :=
  ∀ bytes, d.paragraphs = some bytes ∨ d.chunks = some bytes → CorpusExport.Unbroken bytes

/-- What is recognised has been read line by line, so that no row is broken. -/
theorem recognised_unbroken (h : exportAgain sha256 job s d = (.ok (document,written),after))
    (hfound : recognised sha256 I job s after = .ok (some document)) : after.Unbroken := by
  obtain ⟨p,paragraphs,chunks,_,-,hparagraphs,hchunks,-,-,-,rfl,-⟩ := exportAgain_done h
  obtain ⟨lines,hlines,rfl⟩ := jsonl_ok hparagraphs
  obtain ⟨parts,hparts,rfl⟩ := jsonl_ok hchunks
  obtain ⟨_,_,-,-,-,-,hcached⟩ := recognised_some hfound
  obtain ⟨first,hfirst,hcached⟩ := Outcomes.bind_ok.mp hcached
  obtain ⟨second,hsecond,-⟩ := Outcomes.bind_ok.mp hcached
  rintro stored (hstored | hstored)
  · cases hstored
    exact readJsonl_unbroken hlines hfirst
  · cases hstored
    exact readJsonl_unbroken hparts hsecond

theorem unbroken_recognised (hframes : 2 ≤ I.frames)
    (hids : ∀ p, prepare sha256 job s = .ok p → Set.InjOn sha256 (hashedIds job p.chunks))
    (h : exportAgain sha256 job s d = (.ok (document,written),after))
    (hunbroken : after.Unbroken) : recognised sha256 I job s after = .ok (some document) := by
  obtain ⟨p,paragraphs,chunks,bytes,hp,hparagraphs,hchunks,hbytes,hsafe,rfl,rfl,-⟩ :=
    exportAgain_done h
  obtain ⟨lines,hlines,rfl⟩ := jsonl_ok hparagraphs
  obtain ⟨parts,hparts,rfl⟩ := jsonl_ok hchunks
  have hsound := prepare_sound hp
  have hread := json_read hbytes ((nesting_document p _ _).trans hframes)
  have hfirst := readJsonl_written hlines (hunbroken _ (.inl rfl))
    (List.forall_mem_map.mpr fun x _ => (nesting_paragraph x).trans hframes)
  have hsecond := readJsonl_written hparts (hunbroken _ (.inr rfl))
    (List.forall_mem_map.mpr fun c _ => (nesting_chunk c).trans hframes)
  have hcached : cachedRowsAreValid I (items (documentFields sha256 job p
      (sha256 (encode (JsonLines.rowLines lines))) (sha256 (encode (JsonLines.rowLines parts)))))
        ⟨some bytes,some (encode (JsonLines.rowLines lines)),
          some (encode (JsonLines.rowLines parts))⟩ = .ok true := by
    unfold cachedRowsAreValid
    simp only [Option.getD_some,hfirst,hsecond]
    exact congrArg Except.ok (rowsValid_document hsound (hids p hp))
  rw [recognised_found rfl hread,validExisting,metadata_document hsound,
    hashes_document hsafe rfl rfl,hcached]
  rfl

/-- The metadata of a completed export goes with the stored files of rows. -/
theorem completed_hashes (hframes : 2 ≤ I.frames)
    (h : exportOne sha256 I job s d = (.ok (document,written),after)) :
    ∃ bytes row, after.document = some bytes ∧ readDocument I bytes = .ok row ∧
      hashesMatch sha256 s row after = true := by
  obtain ⟨-,⟨hfound,-,rfl⟩ | hagain⟩ := exportOne_done h
  · obtain ⟨bytes,row,hbytes,hread,-,hhashes,-⟩ := recognised_some hfound
    exact ⟨bytes,row,hbytes,hread,hhashes⟩
  · obtain ⟨p,paragraphs,chunks,bytes,-,-,-,hbytes,hsafe,-,rfl,-⟩ := exportAgain_done hagain
    exact ⟨bytes,_,rfl,json_read hbytes ((nesting_document p _ _).trans hframes),
      hashes_document hsafe rfl rfl⟩

theorem hashesMatch_unique {row : List (Value × Value)} {altered : Directory} {t : Surroundings}
    (h : hashesMatch sha256 s row d = true) (k : hashesMatch sha256 t row altered = true)
    (hinj : Set.InjOn sha256 {bytes | some bytes ∈ [d.paragraphs,d.chunks,altered.paragraphs,
      altered.chunks]}) : d.paragraphs = altered.paragraphs ∧ d.chunks = altered.chunks := by
  unfold hashesMatch at h k
  cases hhashes : field row "output_hashes" with
  | dict hashes =>
    simp only [hhashes,Bool.and_eq_true] at h k
    obtain ⟨⟨⟨-,hparagraphs⟩,-⟩,hchunks⟩ := h
    obtain ⟨⟨⟨-,kparagraphs⟩,-⟩,kchunks⟩ := k
    refine ⟨fileMatches_unique hparagraphs kparagraphs (hinj.mono ?_),
      fileMatches_unique hchunks kchunks (hinj.mono ?_)⟩
    · rintro bytes (hbytes | hbytes) <;> simp [hbytes]
    · rintro bytes (hbytes | hbytes) <;> simp [hbytes]
  | _ =>
    rw [hhashes] at h
    cases h

/-- A directory whose files of rows have changed is exported again. -/
theorem altered_exported (hframes : 2 ≤ I.frames)
    (h : exportOne sha256 I job s d = (.ok (document,written),after)) {t : Surroundings}
    {altered : Directory} (hsafe : t.safe = s.safe) (hdocument : altered.document = after.document)
    (hne : altered ≠ after)
    (hinj : Set.InjOn sha256 {bytes | some bytes ∈ [after.paragraphs,after.chunks,
      altered.paragraphs,altered.chunks]}) :
    exportOne sha256 I job t altered = exportAgain sha256 job t altered := by
  obtain ⟨bytes,row,hbytes,hread,hhashes⟩ := completed_hashes hframes h
  have hmatch : hashesMatch sha256 t row altered = false := by
    rw [Bool.eq_false_iff]
    intro hmatch
    obtain ⟨hparagraphs,hchunks⟩ := hashesMatch_unique hhashes hmatch hinj
    exact hne ((Directory.mk.injEq ..).mpr ⟨hdocument,hparagraphs.symm,hchunks.symm⟩)
  have hfound : recognised sha256 I job t altered = .ok none := by
    rw [recognised_found (hdocument.trans hbytes) hread,validExisting,hmatch,Bool.and_false]
    rfl
  rw [exportOne_runs (hsafe ▸ (exportOne_done h).1) hfound]
  rfl

theorem recognised_congr {t : Surroundings} (hsafe : t.safe = s.safe) :
    recognised sha256 I job t d = recognised sha256 I job s d := by
  have hhashes : ∀ row, hashesMatch sha256 t row d = hashesMatch sha256 s row d := by
    intro row
    rw [hashesMatch,hsafe]
    rfl
  simp only [recognised,validExisting,hhashes]

variable (sha256 job s I) in
/-- Every later run returns the stored metadata and writes nothing. -/
def Kept (document : Value) (after : Directory) : Prop :=
  ∀ t : Surroundings, t.safe = s.safe →
    exportOne sha256 I job t after = (.ok (document,false),after)

variable (sha256 job s I) in
/-- Every later run that finds other files of rows exports again. -/
def Guarded (after : Directory) : Prop :=
  ∀ (t : Surroundings) (altered : Directory), t.safe = s.safe →
    altered.document = after.document → altered ≠ after →
    Set.InjOn sha256 {bytes | some bytes ∈ [after.paragraphs,after.chunks,altered.paragraphs,
      altered.chunks]} →
    exportOne sha256 I job t altered = exportAgain sha256 job t altered

theorem kept_recognised (h : Kept sha256 job s I document after) :
    recognised sha256 I job s after = .ok (some document) := by
  obtain ⟨-,⟨hfound,-,-⟩ | hagain⟩ := exportOne_done (h s rfl)
  · exact hfound
  · obtain ⟨_,_,_,_,-,-,-,-,-,-,-,hwritten⟩ := exportAgain_done hagain
    cases hwritten

/-- A completed export is kept and guarded if and only if it was recognised itself or no row
that it has written is broken. -/
theorem kept_guarded_iff (hframes : 2 ≤ I.frames)
    (hids : ∀ p, prepare sha256 job s = .ok p → Set.InjOn sha256 (hashedIds job p.chunks))
    (h : exportOne sha256 I job s d = (.ok (document,written),after)) :
    (Kept sha256 job s I document after ∧ Guarded sha256 job s I after) ↔
      written = false ∨ after.Unbroken := by
  constructor
  · rintro ⟨hkept,-⟩
    obtain ⟨-,⟨-,hwritten,-⟩ | hagain⟩ := exportOne_done h
    · exact .inl hwritten
    · exact .inr (recognised_unbroken hagain (kept_recognised hkept))
  · intro hcondition
    have hfound : recognised sha256 I job s after = .ok (some document) := by
      obtain ⟨-,⟨hfound,rfl,rfl⟩ | hagain⟩ := exportOne_done h
      · exact hfound
      · obtain ⟨_,_,_,_,-,-,-,-,-,-,-,rfl⟩ := exportAgain_done hagain
        exact unbroken_recognised hframes hids hagain (hcondition.resolve_left (by simp))
    refine ⟨fun t hsafe => ?_,fun _ _ hsafe hdocument hne hinj =>
      altered_exported hframes h hsafe hdocument hne hinj⟩
    rw [exportOne_runs (hsafe ▸ (exportOne_done h).1) ((recognised_congr hsafe).trans hfound)]
    rfl

def sampleSha256 (bytes : List UInt8) : Digest :=
  BitVec.ofNat 256 (bytes.foldl (fun n b => 31*n+b.toNat) 0)

def sampleInterpreter : Interpreter := ⟨1000,fun _ => 0⟩

def sampleJob : ExportJob := ⟨['/','a'],['a'],0,none,none,⟨600,400,60⟩⟩

def sampleRead : ExportDocument where
  paragraphs := [⟨['甲',Char.ofNat 0x2028,'乙'],0,['p'],.body,none,none⟩]
  qualityFlags := []
  counted := rfl
  flagged := by simp

def sampleSurroundings : Surroundings where
  safe _ := true
  read := .ok sampleRead
  afterRead := (0,none)
  beforeCompletion := (0,none)
  newId n := ⟨0,0,BitVec.ofNat 62 n⟩

theorem sample_run : ∃ document after, exportOne sampleSha256 sampleInterpreter sampleJob
    sampleSurroundings ⟨none,none,none⟩ = (.ok (document,true),after) := by
  have hrun : (exportOne sampleSha256 sampleInterpreter sampleJob sampleSurroundings
      ⟨none,none,none⟩).1.toOption.map Prod.snd = some true := by decide +kernel
  generalize exportOne sampleSha256 sampleInterpreter sampleJob sampleSurroundings
    ⟨none,none,none⟩ = result at hrun ⊢
  obtain ⟨_ | ⟨document,written⟩,after⟩ := result
  · cases hrun
  · cases hrun
    exact ⟨document,after,rfl⟩

theorem kept_guarded_sample : ∃ document after,
    exportOne sampleSha256 sampleInterpreter sampleJob sampleSurroundings ⟨none,none,none⟩ =
      (.ok (document,true),after) ∧
    ((Kept sampleSha256 sampleJob sampleSurroundings sampleInterpreter document after ∧
      Guarded sampleSha256 sampleJob sampleSurroundings sampleInterpreter after) ↔
        true = false ∨ after.Unbroken) := by
  obtain ⟨document,after,hrun⟩ := sample_run
  have hone : ∀ p, prepare sampleSha256 sampleJob sampleSurroundings = .ok p →
      p.chunks.length = 1 := by
    have hcheck : (match prepare sampleSha256 sampleJob sampleSurroundings with
      | .ok p => p.chunks.length == 1
      | .error _ => false) = true := by decide +kernel
    intro p hp
    rw [hp] at hcheck
    exact beq_iff_eq.mp hcheck
  refine ⟨document,after,hrun,kept_guarded_iff (by decide) ?_ hrun⟩
  rintro p hp _ ⟨row,hrow,rfl⟩ _ ⟨other,hother,rfl⟩ -
  obtain ⟨only,honly⟩ := List.length_eq_one_iff.mp (hone p hp)
  rw [honly,List.mem_singleton] at hrow hother
  rw [hrow,hother]

/-- The line separator ends a line of the file, so that the export is not recognised. -/
theorem separator_not_kept : ∃ document after,
    exportOne sampleSha256 sampleInterpreter sampleJob sampleSurroundings ⟨none,none,none⟩ =
      (.ok (document,true),after) ∧
    ¬Kept sampleSha256 sampleJob sampleSurroundings sampleInterpreter document after := by
  obtain ⟨document,after,hrun⟩ := sample_run
  refine ⟨document,after,hrun,fun hkept => ?_⟩
  obtain ⟨-,⟨-,hwritten,-⟩ | hagain⟩ := exportOne_done hrun
  · cases hwritten
  have hunbroken := recognised_unbroken hagain (kept_recognised hkept)
  obtain ⟨p,paragraphs,chunks,_,hp,hparagraphs,-,-,-,-,rfl,-⟩ := exportAgain_done hagain
  obtain ⟨lines,hlines,rfl⟩ := jsonl_ok hparagraphs
  have hplain := (unbroken_iff hlines).mp (hunbroken _ (.inl rfl))
  have hread := Except.ok.inj (prepare_read hp)
  have hcheck : ((sampleRead.paragraphs.map (paragraphFields sampleSha256 sampleJob)).mapM
      fun row => JsonLines.dumps JsonLines.inline 0 (.dict (items row))).any
        (fun parts => parts.any fun part => part.any RejoinedLines.endsLine) = true := by
    decide +kernel
  have hparts := Outcomes.mapM_some.mpr hlines
  rw [← hread] at hparts
  rw [hparts] at hcheck
  obtain ⟨part,hpart,hends⟩ := List.any_eq_true.mp hcheck
  obtain ⟨c,hc,hend⟩ := List.any_eq_true.mp hends
  rw [hplain part hpart c hc] at hend
  cases hend

end LawyerAgent.CorpusExport
