import LawyerAgent.AttuPrepared

/-!
# The prepared import and its importer

The importer takes a ready run if the batches keep to its own limits. The run
has none on the size of a batch but the configured one.
-/

set_option autoImplicit false

namespace LawyerAgent.AttuAgreement
open Common JsonReader
open AttuPreparation AttuImport AttuBatches
open AttuPrepared
open PythonText (strip)
open Outcomes (require_ok bind_ok ok_inj)
open Packing (close total pack)

variable {sha256 : List UInt8 → Digest} {config : Config} {disk : Disk}

variable {groups : List (List Json)} {entries : List Entry} {limit count size : ℕ} {w : BatchWriter}
  {s : List (List Json) × List Json}

theorem lookup_file {i : ℕ} {group : List Json} (h : groups[i]? = some group) :
    (groups.mapIdx fileOf).lookup (batchName (i+1)) = some (content group) := by
  have hsplit : groups.mapIdx fileOf = (groups.take i).mapIdx fileOf++
      (batchName (i+1),content group)::(groups.drop (i+1)).mapIdx fun k => fileOf (k+(i+1)) := by
    obtain ⟨hi,rfl⟩ := List.getElem?_eq_some_iff.mp h
    have hsame : groups = groups.take i++groups[i]::groups.drop (i+1) := by
      rw [← List.drop_eq_getElem_cons hi,List.take_append_drop]
    have hlength : (groups.take i).length = i := by
      rw [List.length_take]
      omega
    conv_lhs => rw [hsame]
    rw [List.mapIdx_append,List.mapIdx_cons,hlength,Nat.zero_add]
    simp only [fileOf,Nat.add_right_comm _ 1 i,Nat.add_assoc]
  rw [List.lookup_eq_some_iff]
  refine ⟨_,_,hsplit,?_⟩
  intro p hp
  obtain ⟨k,hk,rfl⟩ := List.mem_mapIdx.mp hp
  rw [List.length_take] at hk
  simp only [fileOf,bne_iff_ne]
  intro hname
  have := batchName_inj hname
  omega

theorem readBatch_group {i : ℕ} {group rows : List Json} (h : groups[i]? = some group)
    (hwritable : ∀ value ∈ group, finite value = true) :
    readBatch sha256 (groups.mapIdx fileOf) (batchOf sha256 i group) = .ok rows ↔
      i+1 < 100000 ∧ total recordSize group ≤ 100000000 ∧ rows = group := by
  simp only [readBatch,batchOf,lookup_file h,bind_ok,require_ok,ok_inj,read_content hwritable,
    content_length,isBatchName_iff]
  constructor
  · rintro ⟨_,hname,_,⟨-,hsize⟩,_,-,group',rfl,_,-,rfl⟩
    exact ⟨hname,hsize,rfl⟩
  · rintro ⟨hname,hsize,rfl⟩
    exact ⟨(),hname,(),⟨trivial,hsize⟩,(),⟨trivial,trivial⟩,rows,rfl,(),require_ok.mpr rfl,rfl⟩

/-- Every batch of a packing is read back, if its name and its size are within
the importer's limits. -/
theorem readBatches_groups {groups read : List (List Json)}
    (hwritable : ∀ group ∈ groups, ∀ value ∈ group, finite value = true) :
    (groups.mapIdx (batchOf sha256)).mapM (readBatch sha256 (groups.mapIdx fileOf)) = .ok read ↔
      (groups.length ≤ 99999 ∧ ∀ group ∈ groups, total recordSize group ≤ 100000000) ∧
        read = groups := by
  have hread : ∀ (i : ℕ) (hi : i < groups.length) (rows : List Json),
      readBatch sha256 (groups.mapIdx fileOf) (batchOf sha256 i groups[i]) = .ok rows ↔
        i+1 < 100000 ∧ total recordSize groups[i] ≤ 100000000 ∧ rows = groups[i] :=
    fun i hi rows => readBatch_group (List.getElem?_eq_getElem hi)
      (hwritable _ (List.getElem_mem hi))
  rw [Outcomes.mapM_ok,List.forall₂_iff_get]
  simp only [List.length_mapIdx,List.get_eq_getElem,List.getElem_mapIdx]
  constructor
  · rintro ⟨hlength,hall⟩
    have heach := fun i hi => (hread i hi _).mp (hall i hi (hlength ▸ hi))
    refine ⟨⟨?_,?_⟩,?_⟩
    · by_contra hlong
      have hlast := (heach 99999 (by omega)).1
      omega
    · intro group hgroup
      obtain ⟨i,hi,rfl⟩ := List.getElem_of_mem hgroup
      exact (heach i hi).2.1
    · refine List.ext_getElem hlength.symm fun i hi hi' => ?_
      exact (heach i hi').2.2
  · rintro ⟨⟨hcount,hsize⟩,rfl⟩
    refine ⟨rfl,fun i hi _ => (hread i hi _).mpr ⟨by omega,?_,rfl⟩⟩
    exact hsize _ (List.getElem_mem hi)

theorem checkEntries_length {values : List Json} {entries entries' : List Entry}
    (h : values.foldlM checkEntry entries = .ok entries') :
    entries'.length = entries.length+values.length := by
  induction values generalizing entries with
  | nil =>
    cases h
    rfl
  | cons value values ih =>
    rw [List.foldlM_cons,bind_ok] at h
    obtain ⟨next,hvalue,hrest⟩ := h
    have hnext : next.length = entries.length+1 := by
      simp only [checkEntry,bind_ok,require_ok] at hvalue
      obtain ⟨fields,-,_,-,_,-,_,-,hid⟩ := hvalue
      split at hid
      · cases hid
      · simp only [bind_ok,ok_inj] at hid
        obtain ⟨_,-,rfl⟩ := hid
        rw [List.length_append,List.length_singleton]
    rw [ih hrest,hnext,List.length_cons]
    omega

theorem readInventory_nonempty (h : readInventory config disk = .ok entries) : entries ≠ [] := by
  simp only [readInventory,bind_ok,require_ok] at h
  obtain ⟨_,-,values,-,_,⟨hpos,-⟩,hentries⟩ := h
  have hlength := checkEntries_length hentries
  rintro rfl
  simp only [List.length_nil] at hlength
  omega

theorem ready_valid {r : Result} (hne : entries ≠ []) (h : Ready sha256 limit disk entries r) :
    validateReport r.report = .ok () := by
  have hpos : 0 < entries.length := List.length_pos_iff.mpr hne
  have hrecords : entries.flatMap (entryRecords disk) ≠ [] := by
    obtain ⟨entry,rest,rfl⟩ := List.exists_cons_of_ne_nil hne
    rw [List.flatMap_cons]
    exact List.append_ne_nil_of_left_ne_nil (h.nonempty entry List.mem_cons_self) _
  have hflat : (pack limit recordSize (entries.flatMap (entryRecords disk))).flatten =
      entries.flatMap (entryRecords disk) := Packing.pack_flatten _
  have hgroups : pack limit recordSize (entries.flatMap (entryRecords disk)) ≠ [] := by
    intro hempty
    rw [hempty] at hflat
    exact hrecords hflat.symm
  have hcounts : ∀ groups : List (List Json),
      (groups.mapIdx (batchOf sha256)).map Batch.rows = groups.map List.length := by
    intro groups
    refine List.ext_getElem (by simp) fun i hi hi' => ?_
    simp [batchOf]
  have hnames : ∀ groups : List (List Json),
      ((groups.mapIdx (batchOf sha256)).map Batch.file).Nodup := by
    intro groups
    refine List.nodup_iff_injective_get.mpr fun i j hij => ?_
    simp only [List.get_eq_getElem,List.getElem_map,List.getElem_mapIdx,batchOf] at hij
    have := batchName_inj hij
    exact Fin.ext (by omega)
  simp only [validateReport,bind_ok,require_ok]
  refine ⟨(),h.status,(),h.clean,(),h.model,(),⟨?_,?_⟩,(),⟨?_,h.rows.2.symm⟩,(),⟨?_,?_⟩,?_⟩
  · rw [h.documents.1]
    exact hpos
  · rw [h.documents.2,h.documents.1]
  · rw [h.rows.2,h.rows.1]
    exact List.length_pos_iff.mpr hrecords
  · rw [h.batches]
    simpa using hgroups
  · rw [h.batches,hcounts,← List.length_flatten,hflat,h.rows.2,h.rows.1]
  · rw [h.batches]
    exact hnames _

/-- The records of all documents, in the order of the manifest. -/
def manifestRecords (config : Config) (disk : Disk) : List Json :=
  match readInventory config disk with
  | .ok entries => entries.flatMap (entryRecords disk)
  | .error _ => []

/-- The importer takes the report and each batch of it, and reads the records,
each under its own identifier. -/
def Imported (sha256 : List UInt8 → Digest) (r : Result) (records : List Json) : Prop :=
  validateReport r.report = .ok () ∧ ∃ folder, r.folder = some folder ∧
    ∃ groups, r.report.batches.mapM (readBatch sha256 folder) = .ok groups ∧
      groups.flatten = records ∧ (records.map recordId).Nodup

theorem ready_imported {config : Config} {disk : Disk} {r : Result}
    (hentries : readInventory config disk = .ok entries)
    (h : Ready sha256 config.batchBytes disk entries r) :
    Imported sha256 r (manifestRecords config disk) ↔
      (pack config.batchBytes recordSize (manifestRecords config disk)).length ≤ 99999 ∧
        ∀ group ∈ pack config.batchBytes recordSize (manifestRecords config disk),
          total recordSize group ≤ 100000000 := by
  have hvalid := ready_valid (readInventory_nonempty hentries) h
  have hflat : (pack config.batchBytes recordSize (entries.flatMap (entryRecords disk))).flatten =
      entries.flatMap (entryRecords disk) := Packing.pack_flatten _
  have hwritable : ∀ group ∈ pack config.batchBytes recordSize
      (entries.flatMap (entryRecords disk)), ∀ value ∈ group, finite value = true := by
    intro group hgroup value hvalue
    refine h.writable value ?_
    rw [← hflat]
    exact List.mem_flatten.mpr ⟨group,hgroup,hvalue⟩
  simp only [manifestRecords,hentries,Imported,hvalid,h.folder,h.batches,
    Option.some.injEq,true_and,exists_eq_left',readBatches_groups hwritable]
  constructor
  · rintro ⟨groups,⟨hfits,-⟩,-⟩
    exact hfits
  · intro hfits
    exact ⟨_,⟨hfits,rfl⟩,hflat,h.distinct⟩

theorem prepare_ready {config : Config} {disk : Disk} {r : Result}
    (h : prepare sha256 config disk = .ok r) (hready : r.report.status = "ready")
    (hfull : r.report.scope = "full") : ∃ entries, readInventory config disk = .ok entries ∧
      Ready sha256 config.batchBytes disk entries r := by
  simp only [prepare,bind_ok,require_ok] at h
  obtain ⟨_,-,_,-,h⟩ := h
  cases hentries : readInventory config disk with
  | error code =>
    rw [hentries] at h
    cases h
    exact absurd (show "failed" = "ready" from hready) (by decide)
  | ok entries =>
    rw [hentries] at h
    cases h
    exact ⟨entries,rfl,runEntries_ready hready hfull⟩

theorem forM_ok {α : Type} {f : α → Except String Unit} {items : List α}
    (h : ∀ a ∈ items, f a = .ok ()) : items.forM f = .ok () := by
  induction items with
  | nil => rfl
  | cons a items ih =>
    exact bind_ok.mpr ⟨(),h a List.mem_cons_self,ih fun b hb => h b (List.mem_cons_of_mem _ hb)⟩

theorem verify_written (h : Writes sha256 limit w (groups,[]))
    (hsound : ∀ group ∈ groups, ∀ value ∈ group, Sound value) :
    w.verify sha256 = .ok () := by
  unfold BatchWriter.verify
  rw [h.batches,h.files]
  refine forM_ok fun batch hbatch => ?_
  obtain ⟨i,hi,rfl⟩ := List.mem_mapIdx.mp hbatch
  have hgroup := hsound _ (List.getElem_mem hi)
  have hlines := fileLines_content fun value hvalue => (hgroup value hvalue).writable
  unfold verifyBatch
  simp only [batchOf,lookup_file (List.getElem?_eq_getElem hi),hlines,bind_ok,require_ok,
    content_length,List.length_map]
  exact ⟨(),verifyRecords_sound hgroup,trivial,trivial,trivial⟩

theorem add_fits {value : Json} (h : Writes sha256 limit w s) (hfits : recordSize value ≤ limit) :
    ∃ w', w.add sha256 value = .ok w' := by
  simp only [BatchWriter.add,bind_ok,require_ok,ok_inj,h.maxBytes]
  exact ⟨_,(),hfits,rfl⟩

theorem addRows_fits {documentId : String} {rows : List JsonObject} (h : Writes sha256 limit w s)
    (hfits : ∀ row ∈ rows, recordSize (record documentId row) ≤ limit) :
    ∃ w', addRows sha256 documentId rows w = (w',none) := by
  induction rows generalizing w s with
  | nil => exact ⟨w,rfl⟩
  | cons row rows ih =>
    obtain ⟨w₁,hrow⟩ := add_fits h (hfits row List.mem_cons_self)
    have hwrites := (add_writes h hrow).2
    obtain ⟨w₂,hrest⟩ := ih hwrites fun r hr => hfits r (List.mem_cons_of_mem _ hr)
    exact ⟨w₂,by rw [addRows,hrow]; exact hrest⟩

def sampleText (size : ℕ) : String := String.ofList (List.replicate size (Char.ofNat 1))

def sampleId (index : ℕ) : String := String.ofList (List.replicate (index+1) 'c')

def sampleRow (sha256 : List UInt8 → Digest) (size index : ℕ) : JsonObject :=
  [("chunk_id",.string (sampleId index)),("chunk_type",.string "article"),
    ("text",.string (sampleText size)),("content_sha256",
      .string (hexdigest sha256 (CanonicalJson.encode (sampleText size).toList))),
    ("vector",.array (List.replicate 1024 (.number 1)))]

def sampleRows (sha256 : List UInt8 → Digest) (size count : ℕ) : List JsonObject :=
  (List.range count).map (sampleRow sha256 size)

def sampleDocument (count : ℕ) : JsonObject :=
  [("document_id",.string "d"),("source_sha256",.string "s"),
    ("id_namespace",.string "offline-export-v1"),
    ("output_hashes",.object [("chunks.jsonl",.string "h")]),("chunk_count",.number count)]

def sampleEntry : Entry where
  fields := [("status",.string "completed"),("output_directory",.string "000000000000000000000000"),
    ("document_id",.string "d"),("source_sha256",.string "s")]
  folder := "000000000000000000000000"
  documentId := "d"

/-- A document whose rows have texts of control characters, which JSON writes in
six characters each. -/
def sampleDisk (sha256 : List UInt8 → Digest) (size count : ℕ) : Disk where
  manifest := some ⟨1,.ok [.object sampleEntry.fields]⟩
  names := [vectorName sampleEntry]
  laterNames := [vectorName sampleEntry]
  vectors := fun _ => some ⟨1,"v",.ok (.object [("model",.string model),
    ("dimensions",.number 1024),("document",.object (sampleDocument count)),
    ("chunks_sha256",.string "h"),("rows",.array ((sampleRows sha256 size count).map .object))])⟩
  documents := fun _ => some ⟨1,.ok (.object (sampleDocument count))⟩
  chunks := fun _ => some ⟨1,"h",.ok (List.replicate count (.object []))⟩
  unchanged := true
  scriptKept := true
  published := true

theorem utf8ByteSize_ofList (text : List Char) :
    (String.ofList text).utf8ByteSize = (CanonicalJson.encode text).length := by
  exact List.size_toByteArray

theorem replicate_size (n : ℕ) {c : Char} (h : c.utf8Size = 1) :
    (String.ofList (List.replicate n c)).utf8ByteSize = n := by
  rw [utf8ByteSize_ofList,CanonicalJson.encode,List.length_flatMap]
  simp [h]

theorem strip_replicate {n : ℕ} {c : Char} (hn : 0 < n) (h : PythonText.isSpace c = false) :
    strip (List.replicate n c) ≠ [] := by
  obtain ⟨m,rfl⟩ := Nat.exists_eq_add_of_lt hn
  simp [strip,List.replicate_succ,h]

theorem ones_nonzero (n : ℕ) :
    (List.replicate n (Json.number 1)).foldlM checkComponent true = .ok true := by
  induction n with
  | zero => rfl
  | succ n ih =>
    rw [List.replicate_succ,List.foldlM_cons]
    exact bind_ok.mpr ⟨true,rfl,ih⟩

theorem checkVector_ones : checkVector (.array (List.replicate 1024 (.number 1))) = .ok () := by
  unfold checkVector
  refine bind_ok.mpr ⟨_,rfl,bind_ok.mpr ⟨(),require_ok.mpr List.length_replicate,?_⟩⟩
  refine bind_ok.mpr ⟨true,?_,rfl⟩
  rw [List.replicate_succ,List.foldlM_cons]
  refine bind_ok.mpr ⟨true,?_,ones_nonzero 1023⟩
  decide

theorem stringField_replicate {n maximum : ℕ} {c : Char} (name : String) (nullable : Bool)
    (hn : 0 < n) (hlong : n ≤ maximum) (hsize : c.utf8Size = 1)
    (h : PythonText.isSpace c = false) :
    stringField (.string (String.ofList (List.replicate n c))) name maximum nullable = .ok () := by
  unfold stringField
  refine bind_ok.mpr ⟨(),require_ok.mpr ?_,require_ok.mpr ?_⟩
  · rw [String.toList_ofList]
    exact strip_replicate hn h
  · rw [replicate_size n hsize]
    exact hlong

theorem sampleId_inj {i j : ℕ} (h : sampleId i = sampleId j) : i = j := by
  have hsize := congrArg String.utf8ByteSize h
  rw [sampleId,sampleId,replicate_size _ (by decide),replicate_size _ (by decide)] at hsize
  omega

theorem sampleRow_checked {size index : ℕ} {ids : Ids} (hsize : 0 < size) (hlong : size ≤ 65535)
    (hindex : index < 256) (hids : ids.map Prod.fst = (List.range index).map sampleId) :
    checkRow sha256 "d" (index,ids) (.object (sampleRow sha256 size index),.object []) =
      .ok (index+1,ids++[(sampleId index,sampleRow sha256 size index)]) := by
  have hfresh : sampleId index ∉ ids.map Prod.fst := by
    rw [hids,List.mem_map]
    rintro ⟨i,hi,hsame⟩
    have := sampleId_inj hsame
    have := List.mem_range.mp hi
    omega
  have hid : stringField (.string (sampleId index)) "chunk_id" 256 false = .ok () :=
    stringField_replicate _ _ (by omega) (by omega) (by decide) (by decide)
  have htext : stringField (.string (sampleText size)) "text" 65535 false = .ok () :=
    stringField_replicate _ _ hsize hlong (by decide) (by decide)
  unfold checkRow
  refine bind_ok.mpr ⟨_,rfl,bind_ok.mpr ⟨_,rfl,?_⟩⟩
  refine bind_ok.mpr ⟨(),rfl,bind_ok.mpr ⟨(),rfl,?_⟩⟩
  refine bind_ok.mpr ⟨(),hid,bind_ok.mpr ⟨(),rfl,bind_ok.mpr ⟨(),htext,?_⟩⟩⟩
  refine bind_ok.mpr ⟨(),rfl,bind_ok.mpr ⟨(),rfl,bind_ok.mpr ⟨(),require_ok.mpr rfl,?_⟩⟩⟩
  refine bind_ok.mpr ⟨(),require_ok.mpr hfresh,?_⟩
  exact bind_ok.mpr ⟨(),checkVector_ones,rfl⟩

theorem sampleRows_checked (hsize : 0 < size) (hlong : size ≤ 65535) (hcount : count ≤ 256) :
    ((List.range count).map fun i => (Json.object (sampleRow sha256 size i),Json.object [])).foldlM
      (checkRow sha256 "d") (0,[]) =
        .ok (count,(List.range count).map fun i => (sampleId i,sampleRow sha256 size i)) := by
  induction count with
  | zero => rfl
  | succ count ih =>
    rw [List.range_succ,List.map_append,List.foldlM_append]
    refine bind_ok.mpr ⟨_,ih (by omega),?_⟩
    rw [List.map_singleton,List.foldlM_cons]
    refine bind_ok.mpr ⟨_,sampleRow_checked hsize hlong (by omega) ?_,?_⟩
    · rw [List.map_map]
      rfl
    · rw [List.map_append]
      rfl

theorem parents_checked {ids rows : Ids} (h : ∀ row ∈ rows, get row.2 "parent_chunk_id" = .null)
    (index : ℕ) : ∃ n, rows.foldlM (checkParent ids) index = .ok n := by
  induction rows generalizing index with
  | nil => exact ⟨index,rfl⟩
  | cons row rows ih =>
    have hrow : checkParent ids index row = .ok (index+1) := by
      unfold checkParent
      rw [h row List.mem_cons_self]
    obtain ⟨n,hn⟩ := ih (fun r hr => h r (List.mem_cons_of_mem _ hr)) (index+1)
    exact ⟨n,bind_ok.mpr ⟨_,hrow,hn⟩⟩

def sampleConfig (batchBytes : ℕ) : Config := ⟨batchBytes,1,none,false⟩

theorem sampleDocument_read (batchBytes : ℕ) (hsize : 0 < size) (hlong : size ≤ 65535)
    (hpos : 0 < count) (hcount : count ≤ 256) :
    readDocument sha256 (sampleConfig batchBytes) (sampleDisk sha256 size count) sampleEntry =
      .ok (sampleRows sha256 size count) := by
  unfold readDocument
  refine bind_ok.mpr ⟨_,bind_ok.mpr ⟨(),rfl,rfl⟩,bind_ok.mpr ⟨_,rfl,?_⟩⟩
  refine bind_ok.mpr ⟨_,bind_ok.mpr ⟨(),rfl,rfl⟩,bind_ok.mpr ⟨_,rfl,?_⟩⟩
  refine bind_ok.mpr ⟨_,bind_ok.mpr ⟨(),rfl,rfl⟩,?_⟩
  have hzip :
    ((sampleRows sha256 size count).map Json.object).zip (List.replicate count (Json.object [])) =
      (List.range count).map fun i => (Json.object (sampleRow sha256 size i),Json.object []) := by
    rw [sampleRows,List.map_map]
    refine List.ext_getElem (by simp) fun i hi hi' => ?_
    simp
  have hlength : ((sampleRows sha256 size count).map Json.object).length = count := by
    simp [sampleRows]
  unfold validateDocument
  refine bind_ok.mpr ⟨_,rfl,bind_ok.mpr ⟨_,rfl,?_⟩⟩
  refine bind_ok.mpr ⟨(),rfl,bind_ok.mpr ⟨(),rfl,bind_ok.mpr ⟨(),require_ok.mpr ?_,?_⟩⟩⟩
  · change jsonEqual (.object (sampleDocument count)) (.object (sampleDocument count)) = true
    exact (Bool.and_true _).trans (beq_self_eq_true ((count : ℤ) : ℚ))
  refine bind_ok.mpr ⟨(),rfl,bind_ok.mpr ⟨(),rfl,bind_ok.mpr ⟨(),rfl,bind_ok.mpr ⟨(),rfl,?_⟩⟩⟩⟩
  refine bind_ok.mpr ⟨(),rfl,bind_ok.mpr ⟨_,rfl,bind_ok.mpr ⟨_,rfl,?_⟩⟩⟩
  refine bind_ok.mpr ⟨(),require_ok.mpr (hlength.symm ▸ hpos),?_⟩
  refine bind_ok.mpr ⟨(),require_ok.mpr ?_,bind_ok.mpr ⟨(),rfl,?_⟩⟩
  · change (_ == List.length _ && (count : ℤ) == List.length _) = true
    rw [hlength,List.length_replicate]
    simp
  refine bind_ok.mpr ⟨_,hzip ▸ sampleRows_checked hsize hlong hcount,?_⟩
  have hparents : ∀ row ∈ (List.range count).map fun i => (sampleId i,sampleRow sha256 size i),
      get row.2 "parent_chunk_id" = .null := by
    intro row hrow
    obtain ⟨i,-,rfl⟩ := List.mem_map.mp hrow
    rfl
  obtain ⟨n,hn⟩ := parents_checked hparents 0
  refine bind_ok.mpr ⟨n,hn,?_⟩
  rw [List.map_map]
  rfl

def sampleRecords (sha256 : List UInt8 → Digest) (size count : ℕ) : List Json :=
  (sampleRows sha256 size count).map (record "d")

theorem sampleInventory (batchBytes size count : ℕ) :
    readInventory (sampleConfig batchBytes) (sampleDisk sha256 size count) = .ok [sampleEntry] :=
      rfl

theorem sampleRecords_manifest (batchBytes size count : ℕ) :
    manifestRecords (sampleConfig batchBytes) (sampleDisk sha256 size count) =
      sampleRecords sha256 size count := by
  have hrows : valueRows (.object [("model",.string model),("dimensions",.number 1024),
      ("document",.object (sampleDocument count)),("chunks_sha256",.string "h"),
      ("rows",.array ((sampleRows sha256 size count).map .object))]) =
        sampleRows sha256 size count := by
    change List.filterMap _ (List.map _ _) = _
    rw [List.filterMap_map]
    exact List.filterMap_some
  have hvectors : vectorRows (sampleDisk sha256 size count) sampleEntry =
    sampleRows sha256 size count := hrows
  rw [manifestRecords,sampleInventory]
  simp only [List.flatMap_singleton,entryRecords,hvectors]
  rfl

theorem sampleRecords_sound (size count : ℕ) :
    ∀ value ∈ sampleRecords sha256 size count, Sound value := by
  intro value hvalue
  obtain ⟨row,hrow,rfl⟩ := List.mem_map.mp hvalue
  obtain ⟨i,-,rfl⟩ := List.mem_map.mp hrow
  have hvector : checkVector (get (sampleRow sha256 size i) "vector") = .ok () := checkVector_ones
  refine ⟨?_,_,rfl,List.Perm.refl _,hvector⟩
  simp only [record,finite,finiteFields,checkVector_finite hvector,Bool.and_true,Bool.true_and]
  rfl

/-- The run over the sample ends ready when each record fits into a batch. -/
theorem sample_ready {size count batchBytes : ℕ} (hsize : 0 < size) (hlong : size ≤ 65535)
    (hpos : 0 < count) (hcount : count ≤ 256) (hbatch : 0 < batchBytes)
    (hfits : ∀ value ∈ sampleRecords sha256 size count, recordSize value ≤ batchBytes) :
    ∃ r, prepare sha256 (sampleConfig batchBytes) (sampleDisk sha256 size count) = .ok r ∧
      r.report.status = "ready" ∧ r.report.scope = "full" := by
  have hstart : startRun (sampleConfig batchBytes) (sampleDisk sha256 size count) [sampleEntry] =
      ⟨some ⟨batchBytes,none,0,0,[],[]⟩,[],0,0,[]⟩ := rfl
  have hempty : Writes sha256 batchBytes ⟨batchBytes,none,0,0,[],[]⟩ ([],[]) :=
    ⟨rfl,rfl,rfl,rfl,rfl,rfl⟩
  have hadded : ∃ w, addRows sha256 "d" (sampleRows sha256 size count)
      ⟨batchBytes,none,0,0,[],[]⟩ = (w,none) :=
    addRows_fits hempty fun row hrow => hfits _ (List.mem_map_of_mem hrow)
  obtain ⟨w,hadd⟩ := hadded
  have hclosed := close_writes (addRows_writes hempty hadd)
  have hprocess : processDocument sha256 (sampleConfig batchBytes) (sampleDisk sha256 size count)
      ⟨some ⟨batchBytes,none,0,0,[],[]⟩,[],0,0,[]⟩ sampleEntry =
        ⟨some w,(sampleRows sha256 size count).map chunkIdOf,
          1,(sampleRows sha256 size count).length,[]⟩ := by
    unfold processDocument
    rw [sampleDocument_read batchBytes hsize hlong hpos hcount]
    have hnew : (sampleRows sha256 size count).any (fun row => decide (chunkIdOf row ∈ [])) =
      false := by
      simp
    simp only [hnew,Bool.false_eq_true,if_false,writeRows,sampleEntry,hadd]
    simp
  have hverify : (w.close sha256).verify sha256 = .ok () := by
    refine verify_written hclosed fun group hgroup value hvalue => ?_
    have hflat : (pack batchBytes recordSize (sampleRecords sha256 size count)).flatten =
        sampleRecords sha256 size count := Packing.pack_flatten _
    have hmem : value ∈ sampleRecords sha256 size count := by
      rw [← hflat]
      exact List.mem_flatten.mpr ⟨group,hgroup,hvalue⟩
    exact sampleRecords_sound size count value hmem
  refine ⟨runEntries sha256 (sampleConfig batchBytes) (sampleDisk sha256 size count) [sampleEntry],
    ?_,?_,rfl⟩
  · unfold prepare
    refine bind_ok.mpr ⟨(),require_ok.mpr ⟨hbatch,Nat.one_pos⟩,bind_ok.mpr ⟨(),rfl,?_⟩⟩
    rw [sampleInventory]
  · have hselected : selectedEntries (sampleConfig batchBytes) [sampleEntry] = [sampleEntry] := rfl
    unfold runEntries
    simp only [hselected,List.foldl_cons,List.foldl_nil,hstart,hprocess,Option.map_some,
      finalErrors,verifyBatches,hverify]
    rfl

theorem sampleText_dumped (size : ℕ) :
    6*size ≤ (CanonicalJson.dumpString (sampleText size)).length := by
  have hone : (CanonicalJson.escapeChar (Char.ofNat 1)).length = 6 := by decide
  have hbody : ((List.replicate size (Char.ofNat 1)).flatMap CanonicalJson.escapeChar).length =
      size*6 := by
    rw [List.length_flatMap]
    simp [hone]
  unfold CanonicalJson.dumpString sampleText
  rw [String.toList_ofList,List.length_append,List.length_cons,hbody]
  omega

theorem separated_length {parts : List (List Char)} {part : List Char} (h : part ∈ parts) :
    part.length ≤ (CanonicalJson.separated parts).length := by
  induction parts with
  | nil => cases h
  | cons first parts ih =>
    cases parts with
    | nil =>
      obtain rfl := List.mem_singleton.mp h
      rw [separated_single]
    | cons next parts =>
      rw [separated_cons,List.length_append,List.length_cons]
      rcases List.mem_cons.mp h with rfl | h
      · omega
      · have := ih h
        omega

theorem write_field {fields : JsonObject} {key text : String}
    (h : (key,Json.string text) ∈ fields) :
    (CanonicalJson.dumpString text).length ≤ (write (.object fields)).length := by
  have hfield : (key,CanonicalJson.dumpString text) ∈ writeFields fields := by
    rw [writeFields_eq]
    exact List.mem_map.mpr ⟨_,h,rfl⟩
  have hpart := separated_length (List.mem_map_of_mem (f := CanonicalJson.dumpField) hfield)
  rw [write,List.length_append,List.length_cons]
  simp only [CanonicalJson.dumpField,List.length_append,List.length_cons] at hpart
  omega

theorem sampleRecord_size :
    ∀ value ∈ sampleRecords sha256 size count, 6*size ≤ recordSize value := by
  intro value hvalue
  obtain ⟨row,hrow,rfl⟩ := List.mem_map.mp hvalue
  obtain ⟨i,-,rfl⟩ := List.mem_map.mp hrow
  have hwrite : (CanonicalJson.dumpString (sampleText size)).length ≤
      (write (record "d" (sampleRow sha256 size i))).length := by
    apply write_field
    exact .tail _ (.tail _ (.tail _ (.head _)))
  calc 6*size ≤ (CanonicalJson.dumpString (sampleText size)).length := sampleText_dumped size
    _ ≤ (write (record "d" (sampleRow sha256 size i))).length := hwrite
    _ ≤ (CanonicalJson.encode (write (record "d" (sampleRow sha256 size i)))).length :=
      CanonicalJson.encode_length _
    _ ≤ recordSize (record "d" (sampleRow sha256 size i)) := by
      rw [recordSize,encodeJson_eq,List.length_append]
      omega

theorem sampleRecords_length (size count : ℕ) :
    (sampleRecords sha256 size count).length = count := by simp [sampleRecords,sampleRows]

/-- A batch as large as all records of the sample. -/
def sampleBytes (sha256 : List UInt8 → Digest) (size count : ℕ) : ℕ :=
  total recordSize (sampleRecords sha256 size count)

theorem sampleBytes_fits :
    ∀ value ∈ sampleRecords sha256 size count, recordSize value ≤ sampleBytes sha256 size count :=
  fun _ hvalue => Packing.le_total hvalue

theorem sampleBytes_pack (hpos : 0 < count) :
    pack (sampleBytes sha256 size count) recordSize (sampleRecords sha256 size count) =
      [sampleRecords sha256 size count] := by
  refine Packing.pack_one ?_ le_rfl
  rw [← List.length_pos_iff,sampleRecords_length]
  exact hpos

theorem sampleBytes_large :
    count*(6*size) ≤ sampleBytes sha256 size count := by
  have hall : ∀ value ∈ sampleRecords sha256 size count, 6*size ≤ recordSize value :=
    sampleRecord_size
  have htotal := Packing.total_ge hall
  rwa [sampleRecords_length] at htotal

/-- The report and the batches of a ready run of the whole manifest are imported
if and only if the records, packed up to the configured size, make at most 99999
batches of at most 100000000 bytes. -/
theorem prepared_imported (sha256 : List UInt8 → Digest) (config : Config) (disk : Disk)
    (r : Result) (h : prepare sha256 config disk = .ok r) (hready : r.report.status = "ready")
    (hfull : r.report.scope = "full") :
    Imported sha256 r (manifestRecords config disk) ↔
      (pack config.batchBytes recordSize (manifestRecords config disk)).length ≤ 99999 ∧
        ∀ group ∈ pack config.batchBytes recordSize (manifestRecords config disk),
          total recordSize group ≤ 100000000 := by
  obtain ⟨entries,hentries,hrun⟩ := prepare_ready h hready hfull
  exact ready_imported hentries hrun

/-- The importer refuses the batch of 256 texts of 65535 control characters that
a run with a large batch size has written. -/
theorem large_batch_refused : ¬ ∃ sha256 : List UInt8 → Digest, ∀ r : Result,
    prepare sha256 (sampleConfig (sampleBytes sha256 65535 256)) (sampleDisk sha256 65535 256) =
      .ok r → r.report.status = "ready" → r.report.scope = "full" →
        Imported sha256 r (manifestRecords (sampleConfig (sampleBytes sha256 65535 256))
          (sampleDisk sha256 65535 256)) := by
  rintro ⟨sha256,h⟩
  have hlarge : 256*(6*65535) ≤ sampleBytes sha256 65535 256 := sampleBytes_large
  have hpos : 0 < sampleBytes sha256 65535 256 := by omega
  obtain ⟨r,hr,hready,hfull⟩ := sample_ready (by decide : 0 < 65535) le_rfl (by decide : 0 < 256)
    le_rfl hpos sampleBytes_fits
  obtain ⟨entries,hentries,hwritten⟩ := prepare_ready hr hready hfull
  have hsizes := ((ready_imported hentries hwritten).mp (h r hr hready hfull)).2
  have hgroup := hsizes (sampleRecords sha256 65535 256) (by
    rw [sampleRecords_manifest]
    change _ ∈ pack (sampleBytes sha256 65535 256) recordSize (sampleRecords sha256 65535 256)
    rw [sampleBytes_pack (by decide)]
    exact List.mem_singleton_self _)
  change sampleBytes sha256 65535 256 ≤ 100000000 at hgroup
  omega

theorem small_batch : ∃ r : Result,
    prepare (fun _ => 0) (sampleConfig (sampleBytes (fun _ => 0) 1 1))
      (sampleDisk (fun _ => 0) 1 1) = .ok r ∧
    (Imported (fun _ => 0) r (manifestRecords (sampleConfig (sampleBytes (fun _ => 0) 1 1))
        (sampleDisk (fun _ => 0) 1 1)) ↔
      (pack (sampleBytes (fun _ => 0) 1 1) recordSize
        (manifestRecords (sampleConfig (sampleBytes (fun _ => 0) 1 1))
          (sampleDisk (fun _ => 0) 1 1))).length ≤ 99999 ∧
      ∀ group ∈ pack (sampleBytes (fun _ => 0) 1 1) recordSize
          (manifestRecords (sampleConfig (sampleBytes (fun _ => 0) 1 1))
            (sampleDisk (fun _ => 0) 1 1)), total recordSize group ≤ 100000000) := by
  have hlarge : 1*(6*1) ≤ sampleBytes (fun _ => 0) 1 1 := sampleBytes_large
  have hpos : 0 < sampleBytes (fun _ => 0) 1 1 := by omega
  obtain ⟨r,hr,hready,hfull⟩ := sample_ready (by decide : 0 < 1) (by decide) (by decide : 0 < 1)
    (by decide) hpos sampleBytes_fits
  exact ⟨r,hr,prepared_imported (fun _ => 0) _ _ r hr hready hfull⟩

end LawyerAgent.AttuAgreement
