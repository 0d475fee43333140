import LawyerAgent.WindowRelease

/-!
# What a release's windows cover

The windows the splitter cuts pass every check a release makes of windows.
Conversely a release that is read to its end has, for each document, slices of
its text that go through the whole text. Two neighbours share the 200 characters
the checks are about when neither of them is shorter than that.
-/

set_option autoImplicit false

namespace LawyerAgent.WindowCoverage
open Regex (slice)
open CanonicalJson (hex)
open Common CharWindows WindowRelease
open Outcomes (require require_ok bind_ok ok_inj Ends ends_bind ends_mono ends_error)
open Spans (Overlaps Continues finish)

/-- A slice of a text, at the offsets it names. -/
def ExactSlice (text : List Char) (c : Chunk) : Prop :=
  0 ≤ c.startChar ∧ c.startChar < c.endChar ∧ c.endChar ≤ text.length ∧
    c.text = slice text c.startChar.toNat c.endChar.toNat ∧ c.text.length ≤ 1000

/-- A document's windows as the corpus needs them. -/
structure Windowed (text : List Char) (chunks : List Chunk) : Prop where
  slices : ∀ c ∈ chunks, ExactSlice text c
  order : chunks.map Chunk.chunkIndex = (List.range chunks.length).map Nat.cast
  overlap : chunks.IsChain (Overlaps Chunk.startChar Chunk.endChar 200)
  covers : ∀ p : ℕ, p < text.length → ∃ c ∈ chunks, c.startChar ≤ p ∧ p < c.endChar

/-- Windows that pass the checks one after the other, from the place `cursor`
and the ordinal `n` on. -/
def Accepted (text : List Char) : ℤ → ℤ → List Chunk → Prop
  | _, _, [] => True
  | cursor, n, c::cs => ExactSlice text c ∧ c.chunkIndex = n ∧
    (if n = 0 then c.startChar = 0 else cursor-c.startChar = 200) ∧
    Accepted text c.endChar (n+1) cs

variable {chunks : List Chunk} {r : Release}

theorem accepted_slices {text : List Char} {cursor n : ℤ} (h : Accepted text cursor n chunks) :
    ∀ c ∈ chunks, ExactSlice text c := by
  induction chunks generalizing cursor n with
  | nil => simp
  | cons c cs ih =>
    obtain ⟨hc,-,-,hcs⟩ := h
    intro d hd
    rcases List.mem_cons.mp hd with rfl | hd
    · exact hc
    · exact ih hcs d hd

theorem accepted_order {text : List Char} {cursor : ℤ} {n : ℕ} (h : Accepted text cursor n chunks) :
    chunks.map Chunk.chunkIndex = (List.range' n chunks.length).map Nat.cast := by
  induction chunks generalizing cursor n with
  | nil => rfl
  | cons c cs ih =>
    obtain ⟨-,hindex,-,hcs⟩ := h
    have hrest := ih (n := n+1) (by exact_mod_cast hcs)
    simp only [List.map_cons,List.length_cons,List.range'_succ]
    rw [hindex,hrest]

theorem accepted_steps {text : List Char} {cursor n : ℤ} (hn : 0 ≤ n)
    (h : Accepted text cursor n chunks) :
    chunks.IsChain fun a b => a.endChar-b.startChar = 200 := by
  induction chunks generalizing cursor n with
  | nil => exact .nil
  | cons c cs ih =>
    obtain ⟨-,-,-,hcs⟩ := h
    have hrest := ih (by omega) hcs
    cases cs with
    | nil => exact .singleton c
    | cons d ds =>
      obtain ⟨-,-,hgap,-⟩ := hcs
      rw [if_neg (by omega)] at hgap
      exact .cons_cons hgap hrest

theorem accepted_continues {text : List Char} {cursor n : ℤ} (hn : 0 ≤ n) (hcursor : 0 ≤ cursor)
    (h : Accepted text cursor n chunks) :
    Continues Chunk.startChar Chunk.endChar cursor chunks := by
  induction chunks generalizing cursor n with
  | nil => trivial
  | cons c cs ih =>
    obtain ⟨hc,-,hgap,hcs⟩ := h
    obtain ⟨hlow,hlt,-⟩ := hc
    refine ⟨?_,ih (by omega) (by omega) hcs⟩
    split at hgap <;> omega

variable {files : Files} {release : String} {entry : Entry} {folder : Folder} {text : List Char}

theorem pySlice_text {start stop : ℤ} (hstart : 0 ≤ start) (hstop : 0 ≤ stop) :
    pySlice text start stop = slice text start.toNat stop.toNat := by
  rw [← pySlice_natCast,Int.toNat_of_nonneg hstart,Int.toNat_of_nonneg hstop]

theorem checkWindow_ok {cursor n : ℤ} {c : Chunk} {u : Unit}
    (h : checkWindow folder text cursor n c = .ok u) :
    ExactSlice text c ∧ c.chunkIndex = n ∧
      (if n = 0 then c.startChar = 0 else cursor-c.startChar = 200) := by
  simp only [checkWindow,bind_ok,require_ok] at h
  obtain ⟨_,⟨htext,-,-,hindex,hlow,hlt,hhigh,hsize⟩,hgap⟩ := h
  rw [pySlice_text hlow (by omega)] at htext
  refine ⟨⟨hlow,hlt,hhigh,htext,?_⟩,hindex,hgap⟩
  rw [htext,Regex.slice_length]
  omega

theorem buildRow_ok {chunk : Chunk} {vector : VectorLine} {row : Row}
    (h : buildRow files chunk vector entry release = .ok row) : row.toChunk = chunk := by
  simp only [buildRow,bind_ok,require_ok,ok_inj] at h
  obtain ⟨_,-,_,-,_,-,_,-,_,-,_,-,rfl⟩ := h
  rfl

/-- What the loop over a document's windows has done when it ends. -/
structure Read (text : List Char) (chunks : List Chunk) (s t : Reading) : Prop where
  accepted : Accepted text s.cursor s.docCount chunks
  cursor : t.cursor = finish Chunk.endChar s.cursor chunks
  docCount : t.docCount = s.docCount+chunks.length
  seen : t.seen = s.seen++chunks.map Chunk.chunkId
  distinct : s.seen.Nodup → t.seen.Nodup
  rows : t.rows.map Row.toChunk = s.rows.map Row.toChunk++chunks

theorem readWindow_ok {pair : Option Chunk × Option VectorLine} {s t : Reading}
    (h : readWindow files release entry folder text s pair = .ok t) :
    ∃ chunk vector, pair = (some chunk,some vector) ∧ Read text [chunk] s t := by
  obtain ⟨c?,v?⟩ := pair
  cases c? with
  | none => cases v? <;> cases h
  | some chunk =>
    cases v? with
    | none => cases h
    | some vector =>
      simp only [readWindow,bind_ok,require_ok,ok_inj] at h
      obtain ⟨_,hcheck,_,hfresh,row,hrow,rfl⟩ := h
      obtain ⟨hslice,hindex,hgap⟩ := checkWindow_ok hcheck
      refine ⟨chunk,vector,rfl,⟨⟨hslice,hindex,hgap,trivial⟩,rfl,rfl,rfl,?_,?_⟩⟩
      · intro hseen
        exact hseen.append (List.nodup_singleton _) (by simpa using hfresh)
      · simp [buildRow_ok hrow]

theorem read_nil (s : Reading) : Read text [] s s :=
  ⟨trivial,rfl,by simp,by simp,id,by simp⟩

theorem read_cons {chunk : Chunk} {s t u : Reading} (hst : Read text [chunk] s t)
    (htu : Read text chunks t u) :
    Read text (chunk::chunks) s u := by
  obtain ⟨hslice,hindex,hgap,-⟩ := hst.accepted
  have hcursor : t.cursor = chunk.endChar := hst.cursor
  have hcount : t.docCount = s.docCount+1 := hst.docCount
  refine ⟨⟨hslice,hindex,hgap,?_⟩,?_,?_,?_,fun h => htu.distinct (hst.distinct h),?_⟩
  · rw [← hcursor,← hcount]
    exact htu.accepted
  · rw [htu.cursor,hcursor]
    rfl
  · rw [htu.docCount,hcount,List.length_cons]
    push_cast
    omega
  · rw [htu.seen,hst.seen,List.append_assoc]
    rfl
  · rw [htu.rows,hst.rows,List.append_assoc]
    rfl

theorem readWindows_ok {vectors : List VectorLine} {s t : Reading}
    (h : (zipLongest chunks vectors).foldlM (readWindow files release entry folder text) s = .ok t)
    : Read text chunks s t := by
  induction chunks generalizing vectors s with
  | nil =>
    cases vectors with
    | nil =>
      rw [zipLongest,List.map_nil,List.foldlM_nil] at h
      cases h
      exact read_nil _
    | cons v vs =>
      rw [zipLongest,List.map_cons,List.foldlM_cons,bind_ok] at h
      obtain ⟨_,hstep,-⟩ := h
      cases hstep
  | cons chunk chunks ih =>
    rw [zipLongest,List.foldlM_cons,bind_ok] at h
    obtain ⟨u,hstep,hrest⟩ := h
    obtain ⟨chunk',_,hpair,hread⟩ := readWindow_ok hstep
    obtain rfl : chunk = chunk' := Option.some.inj (Prod.mk.inj hpair).1
    exact read_cons hread (ih hrest)

def windowErrors : List String :=
  ["release_slice_changed","release_window_gap","release_document_incomplete"]

abbrev Passes {α : Type} (P : α → Prop) (x : Except String α) : Prop :=
  Ends (fun e => e ∉ windowErrors) P x

theorem passes_require {condition : Prop} [Decidable condition] {code : String}
    (h : code ∉ windowErrors) : Passes (fun _ => condition) (require condition code) := by
  unfold require
  split
  · exact .ok ‹_›
  · exact .error h

theorem require_passes {condition : Prop} [Decidable condition] {code : String}
    (h : code ∉ windowErrors) : Passes (fun _ => True) (require condition code) :=
  ends_mono (passes_require h) fun _ _ => trivial

theorem passes_of_ok {α : Type} {P : α → Prop} {x : Except String α} {a : α}
    (h : x = .ok a) (ha : P a) : Passes P x := by
  rw [h]
  exact .ok ha

theorem validateVector_passes (vector : List Component) :
    Passes (fun _ => True) (validateVector vector) := by
  unfold validateVector
  refine ends_bind (passes_require (by decide)) fun _ _ => ?_
  refine ends_bind (passes_require (by decide)) fun _ _ => ?_
  refine ends_bind (passes_require (by decide)) fun _ _ => ?_
  exact ends_bind (passes_require (by decide)) fun _ _ => .ok trivial

theorem buildRow_passes (chunk : Chunk) (vector : VectorLine) :
    Passes (fun _ => True) (buildRow files chunk vector entry release) := by
  unfold buildRow
  refine ends_bind (passes_require (by decide)) fun _ _ => ?_
  refine ends_bind (passes_require (by decide)) fun _ _ => ?_
  refine ends_bind (passes_require (by decide)) fun _ _ => ?_
  refine ends_bind (passes_require (by decide)) fun _ _ => ?_
  refine ends_bind (validateVector_passes _) fun _ _ => ?_
  exact ends_bind (passes_require (by decide)) fun _ _ => .ok trivial

/-- A document's files hold the windows of a source. -/
structure Holds (sha256 : List UInt8 → Digest) (source : Source) (folder : Folder) : Prop where
  documentId : folder.documentId = source.documentId
  fulltextSha256 : folder.fulltextSha256 = digestText sha256 source.text
  fulltext : folder.fulltext = source.text
  chunks : windows sha256 source 1000 200 = .ok folder.chunks

variable {sha256 : List UInt8 → Digest} {source : Source}

theorem checkWindow_window {start stop index : ℕ} {cursor : ℤ}
    (hfolder : Holds sha256 source folder)
    (hlt : start < stop) (hstop : stop ≤ source.text.length) (hsize : stop ≤ start+1000)
    (hgap : index = 0 ∧ start = 0 ∨ 0 < index ∧ cursor = start+200) :
    checkWindow folder source.text cursor index
      (window sha256 source 1000 200 start stop index) = .ok () := by
  simp only [checkWindow,bind_ok,require_ok]
  refine ⟨(),⟨?_,hfolder.fulltextSha256.symm,hfolder.documentId.symm,rfl,?_,?_,?_,?_⟩,?_⟩
  · rw [window,pySlice_natCast]
  · simp [window]
  · simpa [window] using hlt
  · simpa [window] using hstop
  · simp only [window]
    omega
  · simp only [window]
    split <;> omega

theorem readWindow_window {start stop index : ℕ} {s : Reading} {v? : Option VectorLine}
    (hcheck : checkWindow folder text s.cursor s.docCount
      (window sha256 source 1000 200 start stop index) = .ok ()) :
    Passes (fun t : Reading => t.cursor = stop ∧ t.docCount = s.docCount+1)
      (readWindow files release entry folder text s
        (some (window sha256 source 1000 200 start stop index),v?)) := by
  cases v? with
  | none => exact .error (by decide)
  | some v =>
    refine ends_bind (P := fun _ => True) (passes_of_ok hcheck trivial) fun _ _ => ?_
    refine ends_bind (passes_require (by decide)) fun _ _ => ?_
    exact ends_bind (buildRow_passes _ _) fun _ _ => .ok ⟨rfl,rfl⟩

theorem readWindows_rest {s : Reading} (vectors : List VectorLine) :
    Passes (fun t => t = s)
      ((zipLongest [] vectors).foldlM (readWindow files release entry folder text) s) := by
  cases vectors with
  | nil => exact .ok rfl
  | cons v vs => exact .error (by decide)

theorem readWindows_windows {start index : ℕ} {rows : List Chunk} {vectors : List VectorLine}
    {s : Reading} (hfolder : Holds sha256 source folder)
    (hrows : windowsFrom sha256 source 1000 200 (by decide) start index = .ok rows)
    (hstart : start < source.text.length) (hcount : s.docCount = index)
    (hgap : index = 0 ∧ start = 0 ∨ 0 < index ∧ s.cursor = start+200) :
    Passes (fun t : Reading => t.cursor = source.text.length ∧ t.docCount = index+rows.length)
      ((zipLongest rows vectors).foldlM
        (readWindow files release entry folder source.text) s) := by
  induction rows generalizing start index vectors s with
  | nil => rcases windowsFrom_cases hrows hstart with ⟨-,h⟩ | ⟨-,_,-,h⟩ <;> cases h
  | cons row rest ih =>
    rw [zipLongest,List.foldlM_cons]
    rcases windowsFrom_cases hrows hstart with ⟨hlast,h⟩ | ⟨hmore,rest',hrest,h⟩
    · obtain ⟨rfl,rfl⟩ := List.cons.inj h
      have hcheck := checkWindow_window hfolder hstart (Nat.le_refl _) hlast
        hgap
      rw [← hcount] at hcheck
      refine ends_bind (readWindow_window hcheck) fun t ht => ?_
      refine ends_mono (readWindows_rest _) ?_
      rintro u rfl
      exact ⟨ht.1,by rw [ht.2,hcount]; rfl⟩
    · obtain ⟨rfl,rfl⟩ := List.cons.inj h
      have hcheck := checkWindow_window hfolder (by omega)
        (Nat.le_of_lt hmore) (Nat.le_refl (start+1000)) hgap
      rw [← hcount] at hcheck
      refine ends_bind (readWindow_window hcheck) fun t ht => ?_
      have hindex : t.docCount = ((index+1 : ℕ) : ℤ) := by
        rw [ht.2,hcount]
        rfl
      have hcursor : t.cursor = ((start+800 : ℕ) : ℤ)+200 := by
        rw [ht.1]
        omega
      refine ends_mono (ih hrest (by omega) hindex (.inr ⟨by omega,hcursor⟩)) ?_
      rintro u ⟨hu,hn⟩
      refine ⟨hu,?_⟩
      rw [hn,List.length_cons]
      omega

theorem checkConfig_passes (root : BatchRoot) : Passes (fun _ => True) (checkConfig root) := by
  unfold checkConfig
  refine ends_bind (passes_require (by decide)) fun _ _ => ?_
  exact require_passes (by decide)

theorem readConfig_passes (configs : List String) (root : String) :
    Passes (fun _ => True) (readConfig files configs root) := by
  unfold readConfig
  split
  · exact .ok trivial
  · exact ends_bind (checkConfig_passes _) fun _ _ => .ok trivial

theorem checkDocument_passes :
    Passes (fun _ => True) (checkDocument files entry folder text) := by
  unfold checkDocument
  refine ends_bind (passes_require (by decide)) fun _ _ => ?_
  refine ends_bind (passes_require (by decide)) fun _ _ => ?_
  refine ends_bind (passes_require (by decide)) fun _ _ => ?_
  refine ends_bind (passes_require (by decide)) fun _ _ => ?_
  exact require_passes (by decide)

/-- A release that fails on a document with the splitter's windows does not
fail by a check of these windows against the text. -/
theorem readDocument_passes (r : Release) (s : Progress) (hplain : '\r' ∉ source.text)
    (hfolder : Holds files.sha256 source (files.folder entry.directory))
    (hchunks : entry.chunks = (files.folder entry.directory).chunks.length) :
    Passes (fun _ => True) (readDocument files r s entry) := by
  have hrows := hfolder.chunks
  rw [windows] at hrows
  split at hrows
  · rename_i hvalid
    have hpos : 0 < source.text.length := by
      refine List.length_pos_iff.mpr ?_
      rintro hempty
      exact hvalid.2.1 (by rw [hempty]; rfl)
    have htext : readText (files.folder entry.directory).fulltext = source.text := by
      rw [hfolder.fulltext,readText_plain hplain]
    unfold readDocument
    refine ends_bind (passes_require (by decide)) fun _ _ => ?_
    refine ends_bind (readConfig_passes _ _) fun _ _ => ?_
    refine ends_bind checkDocument_passes fun _ _ => ?_
    rw [htext]
    refine ends_bind (readWindows_windows hfolder hrows hpos rfl (.inl ⟨rfl,rfl⟩)) ?_
    rintro t ⟨hcursor,hcount⟩
    refine ends_bind (P := fun _ => True) (passes_of_ok (a :=
      ()) (require_ok.mpr ⟨hcursor,?_⟩) trivial)
      fun _ _ => .ok trivial
    rw [hcount,hchunks]
    simp
  · cases hrows

def documentText (files : Files) (entry : Entry) : List Char :=
  readText (files.folder entry.directory).fulltext

def documentChunks (files : Files) (entry : Entry) : List Chunk :=
  (files.folder entry.directory).chunks

theorem readDocument_ok {s t : Progress} (h : readDocument files r s entry = .ok t) :
    ∃ u : Reading, Read (documentText files entry) (documentChunks files entry)
      ⟨s.seen,s.count,0,0,s.rows⟩ u ∧ u.cursor = (documentText files entry).length ∧
      t.seen = u.seen ∧ t.rows = u.rows := by
  simp only [readDocument,bind_ok,require_ok,ok_inj] at h
  obtain ⟨_,-,_,-,_,-,u,hread,_,⟨hcursor,-⟩,rfl⟩ := h
  exact ⟨u,readWindows_ok hread,hcursor,rfl,rfl⟩

def Complete (files : Files) (entry : Entry) : Prop :=
  Accepted (documentText files entry) 0 0 (documentChunks files entry) ∧
    finish Chunk.endChar 0 (documentChunks files entry) = (documentText files entry).length

theorem readDocuments_ok {entries : List Entry} {s t : Progress}
    (h : entries.foldlM (readDocument files r) s = .ok t) :
    (∀ entry ∈ entries, Complete files entry) ∧
      (s.seen.Nodup → t.seen.Nodup) ∧
      t.seen = s.seen++(entries.flatMap (documentChunks files)).map Chunk.chunkId ∧
      t.rows.map Row.toChunk = s.rows.map Row.toChunk++entries.flatMap (documentChunks files) := by
  induction entries generalizing s with
  | nil =>
    cases h
    simp
  | cons entry entries ih =>
    rw [List.foldlM_cons,bind_ok] at h
    obtain ⟨m,hfirst,hrest⟩ := h
    obtain ⟨u,hread,hcursor,hseen,hrows⟩ := readDocument_ok hfirst
    obtain ⟨hcomplete,hdistinct,hmore,hout⟩ := ih hrest
    refine ⟨?_,?_,?_,?_⟩
    · intro e he
      rcases List.mem_cons.mp he with rfl | he
      · exact ⟨hread.accepted,hread.cursor.symm.trans hcursor⟩
      · exact hcomplete e he
    · intro hs
      exact hdistinct (hseen ▸ hread.distinct hs)
    · rw [hmore,hseen,hread.seen,List.append_assoc,List.flatMap_cons,List.map_append]
    · rw [hout,hrows,hread.rows,List.append_assoc,List.flatMap_cons]

theorem rows_ok {out : List Row} (h : r.rows files = .ok out) :
    (∀ entry ∈ r.report.rows, Complete files entry) ∧
      ((r.report.rows.flatMap (documentChunks files)).map Chunk.chunkId).Nodup ∧
      out.map Row.toChunk = r.report.rows.flatMap (documentChunks files) := by
  simp only [Release.rows,bind_ok,require_ok,ok_inj] at h
  obtain ⟨s,hread,_,-,rfl⟩ := h
  obtain ⟨hcomplete,hdistinct,hseen,hrows⟩ := readDocuments_ok hread
  rw [List.nil_append] at hseen
  exact ⟨hcomplete,hseen ▸ hdistinct List.nodup_nil,by simpa using hrows⟩

theorem complete_windowed (h : Complete files entry) :
    Windowed (documentText files entry) (documentChunks files entry) ↔
      (1 < (documentChunks files entry).length →
        ∀ c ∈ documentChunks files entry, 200 ≤ c.endChar-c.startChar) := by
  obtain ⟨haccepted,hfinish⟩ := h
  rw [← Spans.overlaps_iff (accepted_steps (Int.le_refl 0) haccepted)]
  constructor
  · exact fun hwindowed => hwindowed.overlap
  · intro hoverlap
    refine ⟨accepted_slices haccepted,?_,hoverlap,?_⟩
    · rw [accepted_order (n := 0) haccepted,List.range_eq_range']
    · intro p hp
      exact Spans.covers_finish
        (accepted_continues (Int.le_refl 0) (Int.le_refl 0) haccepted) p (by omega) (by omega)

theorem empty_complete (h : Complete files entry) (hempty : documentText files entry = []) :
    documentChunks files entry = [] := by
  refine List.eq_nil_iff_forall_not_mem.mpr fun c hc => ?_
  obtain ⟨hlow,hlt,hhigh,-⟩ := accepted_slices h.1 c hc
  rw [hempty,List.length_nil] at hhigh
  omega

/-- What the corpus needs of a release that was read to its end: each row is a
window of its document, and no identifier stands for two windows. -/
structure Covered (files : Files) (entries : List Entry) (out : List Row) : Prop where
  rows : out.map Row.toChunk = entries.flatMap (documentChunks files)
  windowed : ∀ entry ∈ entries, documentText files entry ≠ [] →
    Windowed (documentText files entry) (documentChunks files entry)
  distinct : (out.map fun row => row.chunkId).Nodup

theorem rows_covered {out : List Row} (h : r.rows files = .ok out) :
    Covered files r.report.rows out ↔ ∀ entry ∈ r.report.rows,
      1 < (documentChunks files entry).length →
        ∀ c ∈ documentChunks files entry, 200 ≤ c.endChar-c.startChar := by
  obtain ⟨hcomplete,hdistinct,hrows⟩ := rows_ok h
  constructor
  · intro hcovered entry he hmany
    have hne : documentText files entry ≠ [] := by
      intro hempty
      rw [empty_complete (hcomplete entry he) hempty] at hmany
      simp at hmany
    exact (complete_windowed (hcomplete entry he)).mp (hcovered.windowed entry he hne) hmany
  · intro hlong
    refine ⟨hrows,fun entry he _ => (complete_windowed (hcomplete entry he)).mpr (hlong entry he),
      ?_⟩
    have hids : (out.map fun row => row.chunkId) = (out.map Row.toChunk).map Chunk.chunkId := by
      simp
    rw [hids,hrows]
    exact hdistinct

/-- The splitter's windows pass the verify loop and a release's checks of
windows; a release that was read to its end covers its documents in steps of
200 shared characters if and only if no document of several windows has a
window shorter than that. -/
theorem release_windows (files : Files) :
    (∀ (source : Source) (rows : List Chunk), '\r' ∉ source.text →
      windows files.sha256 source 1000 200 = .ok rows →
      (∀ vectors, List.Forall₂ VectorOf rows vectors →
        verifyDocument files.sha256 source.title (readText source.text) rows vectors
          rows.length = .ok ()) ∧
      ∀ (r : Release) (s : Progress) (entry : Entry) (e : String),
        Holds files.sha256 source (files.folder entry.directory) →
        entry.chunks = rows.length → readDocument files r s entry = .error e →
          e ∉ windowErrors) ∧
    ∀ (r : Release) (out : List Row), r.rows files = .ok out →
      (Covered files r.report.rows out ↔ ∀ entry ∈ r.report.rows,
        1 < (documentChunks files entry).length →
          ∀ c ∈ documentChunks files entry, 200 ≤ c.endChar-c.startChar) := by
  refine ⟨?_,fun r out h => rows_covered h⟩
  intro source rows hplain hrows
  refine ⟨fun vectors hvectors => windows_verified hplain hrows hvectors,?_⟩
  intro r s entry e hfolder hchunks herror
  obtain rfl : rows = (files.folder entry.directory).chunks :=
    ok_inj.mp (hrows.symm.trans hfolder.chunks)
  have hpasses := readDocument_passes r s hplain hfolder hchunks
  rw [herror] at hpasses
  exact ends_error (E := fun e => e ∉ windowErrors) hpasses

def sampleRoot : BatchRoot where
  config := .object [("model",.object [("model",.string model),("dimensions",.number 1024)]),
    ("size",.number 1000),("overlap",.number 200),
    ("embedding_template",.string "法律名称：\x7bdocument_name\x7d\n正文：\x7btext\x7d"),
    ("sources_sha256",.string "sources"),("script_sha256",.string "runner")]
  sourcesSha256 := "sources"
  runnerSha256 := "runner"

def sampleSource (length : ℕ) : Source := ⟨"document","法".toList,List.replicate length '法'⟩

def sampleChunks (length : ℕ) (cuts : List (ℕ × ℕ)) : List Chunk :=
  cuts.zipIdx.map fun cut =>
    {window (fun _ => 0) (sampleSource length) 1000 200 cut.1.1 cut.1.2 cut.2 with
      chunkId := String.ofList (List.replicate cut.2 'c')}

def sampleVector (chunk : Chunk) : VectorLine :=
  ⟨chunk.chunkId,chunk.embeddingTextSha256,List.replicate 1024 (.number 1)⟩

def sampleFiles (length : ℕ) (cuts : List (ℕ × ℕ)) : Files where
  sha256 := fun _ => 0
  floats := fun _ => []
  pathName := id
  root := fun _ => sampleRoot
  folder := fun _ => {
    root := "batch"
    completedSha256 := "completed"
    identity := hex 0
    dataSha256 := hex 0
    data := .object [("output_hashes",.object []),("status",.string "completed"),
      ("document_id",.string "document")]
    artifact := fun _ => none
    documentId := "document"
    fulltextSha256 := hex 0
    source := .object [("id",.string "entry"),("source_sha256",.string "source")]
    fulltext := (sampleSource length).text
    chunks := sampleChunks length cuts
    vectors := (sampleChunks length cuts).map sampleVector }

def sampleEntry (chunks : ℕ) : Entry where
  id := "entry"
  directory := "batch/documents/entry"
  title := "法".toList
  chunks := chunks
  sourceRelativePath := "法律/法.docx".toList
  sourceSha256 := "source"
  needsReview := false
  oldQualityFlags := .array []
  pictures := .number 0
  sourceXmlParagraphsNotVerbatimContained := .number 0

def sampleRelease (chunks : ℕ) : Release where
  sha256 := "release"
  report := ⟨"passed",[],1,1,chunks,[sampleEntry chunks]⟩
  completions := none
  verified := ⟨rfl,rfl,rfl,rfl⟩
  distinct := List.nodup_singleton _
  counted := by simp [sampleEntry]

theorem rows_exist (length chunks : ℕ) (cuts : List (ℕ × ℕ))
    (h : ((sampleRelease chunks).rows (sampleFiles length cuts)).toOption.isSome = true) :
    ∃ out, (sampleRelease chunks).rows (sampleFiles length cuts) = .ok out := by
  cases hrows : (sampleRelease chunks).rows (sampleFiles length cuts) with
  | error e =>
    rw [hrows] at h
    cases h
  | ok out => exact ⟨out,rfl⟩

theorem sample_windows : windows (fun _ => 0) (sampleSource 3) 1000 200 =
    .ok [window (fun _ => 0) (sampleSource 3) 1000 200 0 3 0] := by
  rw [windows,dif_pos (by decide),windowsFrom]
  rfl

/-- Two windows of 201 characters that share 200. -/
theorem sample_covered :
    verifyDocument (fun _ => 0) (sampleSource 3).title (readText (sampleSource 3).text)
      [window (fun _ => 0) (sampleSource 3) 1000 200 0 3 0]
      [sampleVector (window (fun _ => 0) (sampleSource 3) 1000 200 0 3 0)] 1 = .ok () ∧
    ∃ out, (sampleRelease 2).rows (sampleFiles 201 [(0,201),(1,201)]) = .ok out ∧
      Covered (sampleFiles 201 [(0,201),(1,201)]) [sampleEntry 2] out := by
  obtain ⟨hsplit,hread⟩ := release_windows (sampleFiles 201 [(0,201),(1,201)])
  constructor
  · refine (hsplit (sampleSource 3) _ (by decide) sample_windows).1 _ (.cons ?_ .nil)
    exact ⟨rfl,rfl,List.length_replicate,by decide +kernel,by decide +kernel⟩
  · obtain ⟨out,hout⟩ := rows_exist 201 2 [(0,201),(1,201)]
      (by decide +kernel)
    refine ⟨out,hout,(hread _ out hout).mpr ?_⟩
    intro entry _ _
    have hall : ((sampleChunks 201 [(0,201),(1,201)]).all fun c =>
        decide (200 ≤ c.endChar-c.startChar)) = true := by decide +kernel
    exact each_of_all hall

/-- Three windows of a text of 201 characters, of which the second goes back by
one: the release is read to its end, and the second shares 199 characters with
the others. -/
theorem short_window_read :
    ¬∀ (files : Files) (r : Release) (out : List Row), r.rows files = .ok out →
      Covered files r.report.rows out := by
  intro hall
  obtain ⟨out,hout⟩ := rows_exist 201 3 [(0,201),(1,200),(0,201)] (by decide +kernel)
  have hlong := (rows_covered hout).mp (hall _ _ _ hout) (sampleEntry 3)
    (List.mem_singleton.mpr rfl) (by decide)
  have hmem : (sampleChunks 201 [(0,201),(1,200),(0,201)])[1] ∈
      sampleChunks 201 [(0,201),(1,200),(0,201)] := List.getElem_mem _
  exact absurd (hlong _ hmem) (by decide)

end LawyerAgent.WindowCoverage
