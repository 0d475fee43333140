import LawyerAgent.CanonicalJson
import LawyerAgent.PythonText
import LawyerAgent.Regex.Matches
import LawyerAgent.Spans.Tiles
import Mathlib.Data.Rat.Defs

/-!
# Character windows

The splitter of the offline corpus batch, and the loop with which the batch
verifies the windows it has written against the text they were cut from.
-/

set_option autoImplicit false

namespace LawyerAgent.CharWindows
open Regex (slice)
open Common CanonicalJson PythonText

/-- A slice bound: negative ones count from the end. -/
def sliceBound (length : ℕ) (i : ℤ) : ℕ := if i < 0 then (length+i).toNat else i.toNat

def pySlice (text : List Char) (start stop : ℤ) : List Char :=
  slice text (sliceBound text.length start) (sliceBound text.length stop)

/-- Universal newlines; a line feed after a carriage return belongs to it. -/
def newlines : Bool → List Char → List Char
  | _, [] => []
  | afterReturn, c::rest =>
    if c = '\r' then '\n'::newlines true rest
    else if c = '\n' ∧ afterReturn then newlines false rest
    else c::newlines false rest

/-- `read_text` of a file with this text. -/
def readText (text : List Char) : List Char := newlines false text

theorem sliceBound_natCast (length n : ℕ) : sliceBound length n = n := by
  simp [sliceBound]

theorem pySlice_natCast (text : List Char) (start stop : ℕ) :
    pySlice text start stop = slice text start stop := by
  rw [pySlice,sliceBound_natCast,sliceBound_natCast]

theorem readText_plain {text : List Char} (h : '\r' ∉ text) : readText text = text := by
  induction text with
  | nil => rfl
  | cons c rest ih =>
    have hc : c ≠ '\r' := fun hcr => List.ne_of_not_mem_cons h hcr.symm
    have hrest := ih (List.not_mem_of_not_mem_cons h)
    rw [readText] at hrest ⊢
    rw [newlines,if_neg hc,if_neg (by simp),hrest]

variable (sha256 : List UInt8 → Digest)

def digestText (text : List Char) : String := hex (sha256 (encode text))

def digestValue (value : Json) : String := hex (digestJson sha256 value)

/-- A line of `chunks.jsonl`. -/
structure Chunk where
  chunkId : String
  documentId : String
  documentName : List Char
  chunkIndex : ℤ
  startChar : ℤ
  endChar : ℤ
  text : List Char
  embeddingText : List Char
  embeddingTextSha256 : String
  fulltextSha256 : String
deriving DecidableEq

def version : String := "legal-char-window-bulk-v2"

/-- `法律名称：{title}\n正文：{body}` -/
def embeddingInput (title body : List Char) : List Char :=
  "法律名称：".toList++title++"\n正文：".toList++body

/-- What the windows of one document have in common. -/
structure Source where
  documentId : String
  title : List Char
  text : List Char

def window (source : Source) (size overlap start stop index : ℕ) : Chunk :=
  let body := slice source.text start stop
  let embeddingText := embeddingInput source.title body
  { chunkId := digestValue sha256 (.array [.string version,.string source.documentId,
      .number size,.number overlap,.number start,.number stop])
    documentId := source.documentId
    documentName := source.title
    chunkIndex := index
    startChar := start
    endChar := stop
    text := body
    embeddingText := embeddingText
    embeddingTextSha256 := digestText sha256 embeddingText
    fulltextSha256 := digestText sha256 source.text }

/-- The loop of `windows`: `start` is the next window's first character and
`index` the number of windows before it. -/
def windowsFrom (source : Source) (size overlap : ℕ) (h : overlap < size) (start index : ℕ) :
    Except String (List Chunk) :=
  if start < source.text.length then
    let stop := min (start+size) source.text.length
    if strip (slice source.text start stop) = [] then .error "empty_window"
    else if stop = source.text.length then
      .ok [window sha256 source size overlap start stop index]
    else (windowsFrom source size overlap h (start+(size-overlap)) (index+1)).map
      (window sha256 source size overlap start stop index::·)
  else .ok []
termination_by source.text.length-start
decreasing_by omega

def windows (source : Source) (size overlap : ℕ) : Except String (List Chunk) :=
  if h : overlap < size ∧ strip source.text ≠ [] ∧ strip source.title ≠ [] then
    windowsFrom sha256 source size overlap h.1 0 0
  else .error "invalid_window_or_empty_document"

/-- A number of a stored vector; JSON also has infinities and `NaN`. -/
inductive Component where
  | number (value : ℚ)
  | notFinite
deriving DecidableEq

def Component.isFinite : Component → Bool
  | .number _ => true
  | .notFinite => false

def Component.isNonzero : Component → Bool
  | .number value => value ≠ 0
  | .notFinite => true

/-- A line of `vectors.jsonl`. -/
structure VectorLine where
  chunkId : String
  embeddingTextSha256 : String
  vector : List Component

structure Rebuild where
  cursor : ℤ
  rebuild : List Char

def verifyRow (title text : List Char) (s : Rebuild) (pair : Chunk × VectorLine) :
    Except String Rebuild :=
  let (row,v) := pair
  if row.text ≠ pySlice text row.startChar row.endChar ∨
      row.embeddingText ≠ embeddingInput title row.text then
    .error "slice_or_input_mismatch"
  else if row.fulltextSha256 ≠ digestText sha256 text ∨
      row.embeddingTextSha256 ≠ digestText sha256 row.embeddingText then
    .error "text_digest_mismatch"
  else if row.startChar > s.cursor ∨ (s.cursor ≠ 0 ∧ s.cursor-row.startChar ≠ 200) then
    .error "window_coverage_gap"
  else if row.chunkId ≠ v.chunkId ∨ row.embeddingTextSha256 ≠ v.embeddingTextSha256 then
    .error "vector_identity_mismatch"
  else if v.vector.length ≠ 1024 ∨ ¬v.vector.all Component.isFinite ∨
      ¬v.vector.any Component.isNonzero then
    .error "invalid_vector"
  else .ok ⟨row.endChar,s.rebuild++pySlice row.text (s.cursor-row.startChar) row.text.length⟩

/-- What `verify` does with one document's text, rows, vectors and the number
of windows its receipt names. -/
def verifyDocument (title text : List Char) (rows : List Chunk) (vectors : List VectorLine)
    (receiptChunks : ℤ) : Except String Unit := do
  if rows.length ≠ vectors.length ∨ (rows.length : ℤ) ≠ receiptChunks then
    .error "counts_mismatch"
  else
    let s ← (rows.zip vectors).foldlM (verifyRow sha256 title text) ⟨0,[]⟩
    if s.rebuild ≠ text then .error "fulltext_not_reconstructed" else .ok ()

/-- A vector that `validate_vectors` returns for a row. -/
structure VectorOf (row : Chunk) (v : VectorLine) : Prop where
  chunkId : v.chunkId = row.chunkId
  input : v.embeddingTextSha256 = row.embeddingTextSha256
  length : v.vector.length = 1024
  finite : v.vector.all Component.isFinite = true
  nonzero : v.vector.any Component.isNonzero = true

variable {sha256}

variable {rows : List Chunk} {source : Source}

/-- A nonempty text's windows from `start` on: the last one reaches the end,
any other has the full size. -/
theorem windowsFrom_cases {size overlap start index : ℕ} {h : overlap < size}
    (hrows : windowsFrom sha256 source size overlap h start index = .ok rows)
    (hstart : start < source.text.length) :
    (source.text.length ≤ start+size ∧
      rows = [window sha256 source size overlap start source.text.length index]) ∨
    (start+size < source.text.length ∧ ∃ rest,
      windowsFrom sha256 source size overlap h (start+(size-overlap)) (index+1) = .ok rest ∧
      rows = window sha256 source size overlap start (start+size) index::rest) := by
  rw [windowsFrom,if_pos hstart] at hrows
  dsimp only at hrows
  split at hrows
  · cases hrows
  · split at hrows
    · rename_i hstop
      cases hrows
      exact .inl ⟨by omega,by rw [hstop]⟩
    · rename_i hstop
      have hsize : min (start+size) source.text.length = start+size := by omega
      rw [hsize] at hrows hstop
      cases hrest : windowsFrom sha256 source size overlap h (start+(size-overlap)) (index+1) with
      | error e =>
        rw [hrest] at hrows
        cases hrows
      | ok rest =>
        rw [hrest] at hrows
        cases hrows
        exact .inr ⟨by omega,rest,rfl,rfl⟩

theorem slice_rest {text : List Char} {start cursor stop : ℕ} (h : start ≤ cursor) :
    slice (slice text start stop) (cursor-start) (slice text start stop).length =
      slice text cursor stop := by
  rw [slice,List.take_length,slice,List.drop_drop,Nat.add_sub_cancel' h,slice]

/-- A window that starts 200 characters before the place reached, or at the
front, carries the text on to its end. -/
theorem verifyRow_window {start stop cursor index : ℕ} {v : VectorLine}
    (hv : VectorOf (window sha256 source 1000 200 start stop index) v)
    (hcursor : cursor = start+200 ∨ cursor = 0 ∧ start = 0) (hstop : cursor ≤ stop) :
    verifyRow sha256 source.title source.text ⟨cursor,source.text.take cursor⟩
      (window sha256 source 1000 200 start stop index,v) =
      .ok ⟨stop,source.text.take stop⟩ := by
  have hstart : start ≤ cursor := by omega
  have hrest : pySlice (slice source.text start stop) ((cursor : ℤ)-start)
      (slice source.text start stop).length = slice source.text cursor stop := by
    rw [← Nat.cast_sub hstart,pySlice_natCast,slice_rest hstart]
  have hrebuild : source.text.take cursor++slice source.text cursor stop =
      source.text.take stop := by
    have happend := Regex.slice_append source.text (Nat.zero_le cursor) hstop
    simpa [slice] using happend
  have hslice : ¬((window sha256 source 1000 200 start stop index).text ≠
      pySlice source.text start stop ∨
      (window sha256 source 1000 200 start stop index).embeddingText ≠
        embeddingInput source.title (window sha256 source 1000 200 start stop index).text) := by
    simp [window,pySlice_natCast]
  have hdigest : ¬((window sha256 source 1000 200 start stop index).fulltextSha256 ≠
      digestText sha256 source.text ∨
      (window sha256 source 1000 200 start stop index).embeddingTextSha256 ≠
        digestText sha256 (window sha256 source 1000 200 start stop index).embeddingText) := by
    simp [window]
  have hgap : ¬((start : ℤ) > cursor ∨ (cursor : ℤ) ≠ 0 ∧ (cursor : ℤ)-start ≠ 200) := by omega
  have hvector : ¬(v.vector.length ≠ 1024 ∨ ¬v.vector.all Component.isFinite ∨
      ¬v.vector.any Component.isNonzero) := by
    simp only [hv.length,hv.finite,hv.nonzero]
    decide
  have hids : ¬((window sha256 source 1000 200 start stop index).chunkId ≠ v.chunkId ∨
      (window sha256 source 1000 200 start stop index).embeddingTextSha256 ≠
        v.embeddingTextSha256) := by
    simp [hv.chunkId,hv.input]
  unfold verifyRow
  refine (if_neg hslice).trans ((if_neg hdigest).trans ((if_neg hgap).trans
    ((if_neg hids).trans ((if_neg hvector).trans ?_))))
  rw [← hrebuild,← hrest]
  rfl

theorem verifyRows_windows {start cursor index : ℕ} {vectors : List VectorLine}
    (hrows : windowsFrom sha256 source 1000 200 (by decide) start index = .ok rows)
    (hstart : start < source.text.length) (hvectors : List.Forall₂ VectorOf rows vectors)
    (hcursor : cursor = start+200 ∨ cursor = 0 ∧ start = 0)
    (hlength : cursor ≤ source.text.length) :
    (rows.zip vectors).foldlM (verifyRow sha256 source.title source.text)
      ⟨cursor,source.text.take cursor⟩ = .ok ⟨source.text.length,source.text⟩ := by
  induction rows generalizing start cursor index vectors with
  | nil => rcases windowsFrom_cases hrows hstart with ⟨-,h⟩ | ⟨-,_,-,h⟩ <;> cases h
  | cons row rest ih =>
    cases hvectors with
    | cons hv hvs =>
    rcases windowsFrom_cases hrows hstart with ⟨-,h⟩ | ⟨hmore,rest',hrest,h⟩
    · obtain ⟨rfl,rfl⟩ := List.cons.inj h
      cases hvs
      rw [List.zip_cons_cons,List.foldlM_cons,verifyRow_window hv hcursor hlength,
        List.take_length]
      rfl
    · obtain ⟨rfl,rfl⟩ := List.cons.inj h
      rw [List.zip_cons_cons,List.foldlM_cons,verifyRow_window hv hcursor (by omega)]
      exact ih hrest (by omega) hvs (.inl (by omega)) (by omega)

theorem windows_verified {vectors : List VectorLine} (hplain : '\r' ∉ source.text)
    (hrows : windows sha256 source 1000 200 = .ok rows)
    (hvectors : List.Forall₂ VectorOf rows vectors) :
    verifyDocument sha256 source.title (readText source.text) rows vectors rows.length =
      .ok () := by
  rw [windows] at hrows
  split at hrows
  · rename_i hvalid
    have hpos : 0 < source.text.length := by
      refine List.length_pos_iff.mpr ?_
      rintro hempty
      exact hvalid.2.1 (by rw [hempty]; rfl)
    have hfold := verifyRows_windows hrows hpos hvectors (.inr ⟨rfl,rfl⟩) (Nat.zero_le _)
    rw [List.take_zero] at hfold
    rw [readText_plain hplain,verifyDocument,if_neg (by simp [hvectors.length_eq])]
    have hcast : ((0 : ℕ) : ℤ) = 0 := rfl
    rw [hcast] at hfold
    simp [hfold,Bind.bind,Except.bind]
  · cases hrows

end LawyerAgent.CharWindows
