import LawyerAgent.AttuBatches

/-!
# What a ready run has written

The loop over the documents checks every row of a document before it writes it.
A run that ends ready has written the records of all documents, packed into
batches, and reports them.
-/

set_option autoImplicit false

namespace LawyerAgent.AttuPrepared
open Common JsonReader
open AttuPreparation AttuBatches
open Outcomes (require_ok bind_ok ok_inj)
open Packing (placeAll pack)

variable {sha256 : List UInt8 → Digest}

variable {value : Json} {entries : List Entry}

theorem asObject_ok {code : String} {fields : JsonObject} (h : asObject code value = .ok fields) :
    value = .object fields := by
  cases value with
  | object fields' =>
    cases h
    rfl
  | _ => cases h

theorem asArray_ok {code : String} {items : List Json} (h : asArray code value = .ok items) :
    value = .array items := by
  cases value with
  | array items' =>
    cases h
    rfl
  | _ => cases h

theorem stringField_finite {name : String} {maximum : ℕ} {nullable : Bool} {u : Unit}
    (h : stringField value name maximum nullable = .ok u) : finite value = true := by
  cases value with
  | null => rfl
  | string s => rfl
  | _ => cases h

theorem inFloat32_finite (h : inFloat32 value = true) : finite value = true := by
  cases value with
  | number n => rfl
  | float text =>
    simp only [inFloat32,Bool.and_eq_true] at h
    exact h.1
  | _ => cases h

theorem checkComponents_finite {items : List Json} {b c : Bool}
    (h : items.foldlM checkComponent b = .ok c) : finiteItems items = true := by
  induction items generalizing b with
  | nil => rfl
  | cons item items ih =>
    rw [List.foldlM_cons,bind_ok] at h
    obtain ⟨d,hitem,hrest⟩ := h
    simp only [checkComponent,bind_ok,require_ok,ok_inj] at hitem
    obtain ⟨_,-,_,hrange,-⟩ := hitem
    rw [finiteItems,inFloat32_finite hrange,ih hrest]
    rfl

theorem checkVector_finite {u : Unit} (h : checkVector value = .ok u) :
    finite value = true := by
  simp only [checkVector,bind_ok,require_ok] at h
  obtain ⟨items,hitems,_,-,b,hb,-⟩ := h
  obtain rfl := asArray_ok hitems
  exact checkComponents_finite hb

/-- The rows that have passed, beside the values they came from. -/
structure Passed (ids : Ids) (values : List Json) : Prop where
  rows : ids.map (fun r => Json.object r.2) = values
  keys : ids.map Prod.fst = ids.map fun r => chunkIdOf r.2
  distinct : (ids.map Prod.fst).Nodup
  writable : ∀ r ∈ ids, ∀ documentId, finite (record documentId r.2) = true

theorem checkRow_passed {documentId : String} {s t : ℕ × Ids} {pair : Json × Json}
    {values : List Json} (h : Passed s.2 values)
    (hrow : checkRow sha256 documentId s pair = .ok t) : Passed t.2 (values++[pair.1]) := by
  simp only [checkRow,bind_ok,require_ok,ok_inj] at hrow
  obtain ⟨row,hobject,_,-,_,-,_,-,_,hid,_,htype,_,htext,_,harticle,_,hparent,_,-,_,hfresh,
    _,hvector,rfl⟩ := hrow
  have hvalue := asObject_ok hobject
  refine ⟨?_,?_,?_,?_⟩
  · rw [List.map_append,h.rows,hvalue]
    rfl
  · rw [List.map_append,List.map_append,h.keys]
    rfl
  · rw [List.map_append]
    exact h.distinct.append (List.nodup_singleton _) (by simpa using hfresh)
  · intro r hr d
    rcases List.mem_append.mp hr with hr | hr
    · exact h.writable r hr d
    · obtain rfl := List.mem_singleton.mp hr
      simp only [record,finite,finiteFields,checkVector_finite hvector,stringField_finite hid,
        stringField_finite htext,stringField_finite htype,stringField_finite harticle,
        stringField_finite hparent,Bool.and_true]

theorem checkRows_passed {documentId : String} {s t : ℕ × Ids} {pairs : List (Json × Json)}
    {values : List Json} (h : Passed s.2 values)
    (hrows : pairs.foldlM (checkRow sha256 documentId) s = .ok t) :
    Passed t.2 (values++pairs.map Prod.fst) := by
  induction pairs generalizing s values with
  | nil =>
    cases hrows
    rwa [List.map_nil,List.append_nil]
  | cons pair pairs ih =>
    rw [List.foldlM_cons,bind_ok] at hrows
    obtain ⟨u,hpair,hrest⟩ := hrows
    have hall := ih (checkRow_passed h hpair) hrest
    rwa [List.append_assoc] at hall

/-- The rows a vector file has under `rows`. -/
def valueRows (data : Json) : List JsonObject :=
  match data with
  | .object fields =>
    match get fields "rows" with
    | .array items => items.filterMap fun item => match item with
      | .object row => some row
      | _ => none
    | _ => []
  | _ => []

theorem validateDocument_ok {entry : JsonObject} {data document : Json} {chunks : ChunkFile}
    {rows : List JsonObject}
    (h : validateDocument sha256 entry data document chunks = .ok rows) :
    rows = valueRows data ∧ rows ≠ [] ∧ (rows.map chunkIdOf).Nodup ∧
      ∀ row ∈ rows, ∀ documentId, finite (record documentId row) = true := by
  simp only [validateDocument,bind_ok,require_ok,ok_inj] at h
  obtain ⟨fields,hdata,_,-,_,-,_,-,_,-,_,-,_,-,_,-,_,-,_,-,originals,-,items,hitems,_,hpos,
    _,hcount,_,-,s,hrows,_,-,rfl⟩ := h
  have hstart : Passed [] [] := ⟨rfl,rfl,List.nodup_nil,by simp⟩
  have hpassed := checkRows_passed (s := (0,[])) hstart hrows
  have hlength : items.length = originals.length := by
    split at hcount
    · simp only [Bool.and_eq_true,beq_iff_eq] at hcount
      exact hcount.1
    · cases hcount
  rw [List.nil_append,List.map_fst_zip hlength.le] at hpassed
  obtain rfl := asObject_ok hdata
  have hvalues : valueRows (.object fields) = s.2.map Prod.snd := by
    rw [valueRows,asArray_ok hitems]
    simp only
    rw [← hpassed.rows,List.filterMap_map]
    exact congrFun List.filterMap_eq_map s.2
  refine ⟨hvalues.symm,?_,?_,?_⟩
  · intro hempty
    have hzero : s.2 = [] := List.map_eq_nil_iff.mp hempty
    rw [← hpassed.rows,hzero] at hpos
    exact absurd hpos (by decide)
  · rw [List.map_map]
    exact hpassed.keys ▸ hpassed.distinct
  · intro row hrow
    obtain ⟨r,hr,rfl⟩ := List.mem_map.mp hrow
    exact hpassed.writable r hr

variable {config : Config} {disk : Disk}

def vectorRows (disk : Disk) (entry : Entry) : List JsonObject :=
  match disk.vectors (vectorName entry) with
  | some file =>
    match file.content.2 with
    | .ok data => valueRows data
    | .error _ => []
  | none => []

def entryRecords (disk : Disk) (entry : Entry) : List Json :=
  (vectorRows disk entry).map (record entry.documentId)

def recordId : Json → String
  | .object fields => chunkIdOf fields
  | _ => ""

theorem readFile_ok {α : Type} {file : Option (InputFile α)} {a : α}
    (h : readFile config file = .ok a) : ∃ f, file = some f ∧ f.content = a := by
  cases file with
  | none => cases h
  | some f =>
    simp only [readFile,bind_ok,require_ok,ok_inj] at h
    obtain ⟨_,-,hcontent⟩ := h
    exact ⟨f,rfl,hcontent⟩

theorem readDocument_ok {entry : Entry} {rows : List JsonObject}
    (h : readDocument sha256 config disk entry = .ok rows) :
    rows = vectorRows disk entry ∧ rows ≠ [] ∧ (rows.map chunkIdOf).Nodup ∧
      ∀ row ∈ rows, ∀ documentId, finite (record documentId row) = true := by
  simp only [readDocument,bind_ok] at h
  obtain ⟨vectors,hread,data,hdata,_,-,_,-,_,-,hrows⟩ := h
  obtain ⟨file,hfile,rfl⟩ := readFile_ok hread
  have hvector : vectorRows disk entry = valueRows data := by
    rw [vectorRows,hfile]
    simp only [hdata]
  rw [hvector]
  exact validateDocument_ok hrows

/-- A run without errors so far, after the given entries. -/
structure Done (sha256 : List UInt8 → Digest) (limit : ℕ) (disk : Disk) (entries : List Entry)
    (s : Preparation) : Prop where
  writer : ∃ w, s.writer = some w ∧ Writes sha256 limit w
    (placeAll limit recordSize (entries.flatMap (entryRecords disk)))
  rows : s.validatedRows = (entries.flatMap (entryRecords disk)).length
  documents : s.validatedDocuments = entries.length
  seen : s.seen = (entries.flatMap (entryRecords disk)).map recordId
  distinct : s.seen.Nodup
  nonempty : ∀ entry ∈ entries, entryRecords disk entry ≠ []
  writable : ∀ value ∈ entries.flatMap (entryRecords disk), finite value = true

theorem processDocument_done {limit : ℕ} {entry : Entry} {s : Preparation}
    (h : s.errors = [] → Done sha256 limit disk entries s)
    (hclean : (processDocument sha256 config disk s entry).errors = []) :
    Done sha256 limit disk (entries++[entry]) (processDocument sha256 config disk s entry) := by
  unfold processDocument at hclean ⊢
  cases hread : readDocument sha256 config disk entry with
  | error code => simp [hread] at hclean
  | ok rows =>
    simp only [hread] at hclean ⊢
    obtain ⟨hrows,hne,hdistinct,hwritable⟩ := readDocument_ok hread
    split at hclean
    · simp at hclean
    · next hfresh =>
      rw [if_neg hfresh]
      cases hwrite : writeRows sha256 entry rows s.writer with
      | mk writer code =>
        cases code with
        | some code => simp [hwrite] at hclean
        | none =>
          simp only [hwrite] at hclean ⊢
          have hdone := h hclean
          obtain ⟨w,hw,hwrites⟩ := hdone.writer
          have hrecords : (entries++[entry]).flatMap (entryRecords disk) =
              entries.flatMap (entryRecords disk)++rows.map (record entry.documentId) := by
            rw [List.flatMap_append,List.flatMap_singleton,entryRecords,hrows]
          have hadd : ∃ w', writer = some w' ∧ addRows sha256 entry.documentId rows w =
            (w',none) := by
            rw [hw] at hwrite
            simp only [writeRows] at hwrite
            cases hrows' : addRows sha256 entry.documentId rows w with
            | mk w' code =>
              rw [hrows'] at hwrite
              obtain ⟨rfl,rfl⟩ := Prod.mk.inj hwrite
              exact ⟨w',rfl,rfl⟩
          obtain ⟨w',rfl,hadd⟩ := hadd
          have hids : rows.map chunkIdOf = (rows.map (record entry.documentId)).map recordId := by
            rw [List.map_map]
            rfl
          refine ⟨⟨w',rfl,?_⟩,?_,?_,?_,?_,?_,?_⟩
          · rw [hrecords,placeAll,List.foldl_append]
            exact addRows_writes hwrites hadd
          · rw [hrecords,List.length_append,List.length_map,hdone.rows]
          · rw [List.length_append,hdone.documents]
            rfl
          · rw [hrecords,List.map_append,← hids,← hdone.seen]
          · refine hdone.distinct.append hdistinct ?_
            intro id hold hnew
            obtain ⟨row,hrow,rfl⟩ := List.mem_map.mp hnew
            exact hfresh (List.any_eq_true.mpr ⟨row,hrow,by simpa using hold⟩)
          · intro e he
            rcases List.mem_append.mp he with he | he
            · exact hdone.nonempty e he
            · obtain rfl := List.mem_singleton.mp he
              rw [entryRecords,← hrows]
              simpa using hne
          · intro value hvalue
            rw [hrecords] at hvalue
            rcases List.mem_append.mp hvalue with hvalue | hvalue
            · exact hdone.writable value hvalue
            · obtain ⟨row,hrow,rfl⟩ := List.mem_map.mp hvalue
              exact hwritable row hrow _

theorem processDocuments_done {limit : ℕ} {s : Preparation}
    (hstart : s.errors = [] → Done sha256 limit disk [] s)
    (hclean : (entries.foldl (processDocument sha256 config disk) s).errors = []) :
    Done sha256 limit disk entries (entries.foldl (processDocument sha256 config disk) s) := by
  induction entries using List.reverseRecOn with
  | nil => exact hstart hclean
  | append_singleton entries entry ih =>
    rw [List.foldl_append,List.foldl_cons,List.foldl_nil] at hclean ⊢
    exact processDocument_done ih hclean

theorem runStatus_ready {errors : List (String × Option String)} (hfull : config.limit = none)
    (h : runStatus config errors = "ready") : errors = [] ∧ config.checkOnly = false := by
  unfold runStatus at h
  split at h
  · exact absurd h (by decide)
  · next hne =>
    refine ⟨not_not.mp hne,?_⟩
    rw [hfull] at h
    cases hcheck : config.checkOnly with
    | false => rfl
    | true =>
      rw [hcheck] at h
      exact absurd h (by decide)

theorem scopeOf_full (h : scopeOf config = "full") : config.limit = none := by
  unfold scopeOf at h
  split at h
  · exact absurd h (by decide)
  · next hlimit => simpa using hlimit

/-- What a ready run of the whole manifest has written. -/
structure Ready (sha256 : List UInt8 → Digest) (limit : ℕ) (disk : Disk) (entries : List Entry)
    (r : Result) : Prop where
  status : r.report.status = "ready" ∧ r.report.scope = "full"
  clean : r.report.errorCount = 0
  model : r.report.model = model ∧ r.report.dimensions = 1024
  documents : r.report.expectedDocuments = entries.length ∧
    r.report.validatedDocuments = entries.length
  rows : r.report.validatedRows = (entries.flatMap (entryRecords disk)).length ∧
    r.report.exportedRows = r.report.validatedRows
  batches : r.report.batches =
    (pack limit recordSize (entries.flatMap (entryRecords disk))).mapIdx (batchOf sha256)
  folder : r.folder = some
    ((pack limit recordSize (entries.flatMap (entryRecords disk))).mapIdx fileOf)
  distinct : ((entries.flatMap (entryRecords disk)).map recordId).Nodup
  nonempty : ∀ entry ∈ entries, entryRecords disk entry ≠ []
  writable : ∀ value ∈ entries.flatMap (entryRecords disk), finite value = true

theorem runEntries_ready (hstatus : (runEntries sha256 config disk entries).report.status = "ready")
    (hscope : (runEntries sha256 config disk entries).report.scope = "full") :
    Ready sha256 config.batchBytes disk entries (runEntries sha256 config disk entries) := by
  have hfull : config.limit = none := scopeOf_full hscope
  have hselected : selectedEntries config entries = entries := by
    rw [selectedEntries,hfull]
    rfl
  simp only [runEntries,hselected] at hstatus
  generalize hs : entries.foldl (processDocument sha256 config disk)
    (startRun config disk entries) = s at hstatus
  split at hstatus
  · exact absurd hstatus (by decide)
  · next hpublish =>
    obtain ⟨herrors,hcheck⟩ := runStatus_ready hfull hstatus
    have hverified : ∃ batches, verifyBatches sha256 (s.writer.map fun w => w.close sha256) =
        .ok batches ∧ s.errors = [] := by
      unfold finalErrors at herrors
      cases hv : verifyBatches sha256 (s.writer.map fun w => w.close sha256) with
      | error code => simp [hv,bind,Except.bind] at herrors
      | ok batches =>
        refine ⟨batches,rfl,?_⟩
        split at herrors
        · simp at herrors
        · exact herrors
    obtain ⟨batches,hbatches,hclean⟩ := hverified
    have hdone : Done sha256 config.batchBytes disk entries s := by
      rw [← hs]
      refine processDocuments_done (fun _ => ?_) (hs ▸ hclean)
      have hempty : Writes sha256 config.batchBytes ⟨config.batchBytes,none,0,0,[],[]⟩ ([],[]) :=
        ⟨rfl,rfl,rfl,rfl,rfl,rfl⟩
      refine ⟨⟨_,?_,hempty⟩,rfl,rfl,rfl,List.nodup_nil,by simp,by simp⟩
      simp only [startRun,hcheck,Bool.false_eq_true,if_false]
    obtain ⟨w,hw,hwrites⟩ := hdone.writer
    have hclosed := close_writes hwrites
    have hnames : batches = (w.close sha256).batches := by
      rw [hw] at hbatches
      simp only [verifyBatches,Option.map_some,bind_ok,ok_inj] at hbatches
      obtain ⟨_,-,rfl⟩ := hbatches
      rfl
    have hready : runStatus config [] = "ready" := herrors ▸ hstatus
    have hpublished : publishes "ready" (s.writer.map fun w => w.close sha256) = true := by
      rw [hw]
      rfl
    have hdisk : disk.published = true := by
      rw [hstatus,hpublished] at hpublish
      simpa using hpublish
    have hrun : runEntries sha256 config disk entries = runEntries sha256 config disk entries := rfl
    conv_rhs at hrun => unfold runEntries
    simp only [hselected,hs,herrors,hready,hpublished,hdisk,hbatches,Bool.not_true,Bool.and_false,
      Bool.false_eq_true,if_false,Bool.and_true,if_true] at hrun
    rw [hrun]
    refine ⟨⟨rfl,hscope⟩,rfl,⟨rfl,rfl⟩,⟨rfl,hdone.documents⟩,⟨hdone.rows,rfl⟩,?_,?_,
      hdone.seen ▸ hdone.distinct,hdone.nonempty,hdone.writable⟩
    · rw [pack,← hclosed.batches,← hnames]
      rfl
    · rw [pack,← hclosed.files,hw]
      rfl

end LawyerAgent.AttuPrepared
