import LawyerAgent.BinaryWordChains

/-!
# The reader on arbitrary bytes

Whatever the bytes, the reader ends with a document or with its own error. An
accepted document has disjoint pieces inside its stream, and its raw text is its
visible text with the markup of the fields put back.
-/

set_option autoImplicit false

namespace LawyerAgent.BinaryWordText
open Common
open LegalArticleHeading (Text)
open Regex (slice)

@[simp] theorem finishes_tableSlice (table : Bytes) (pair : ℕ × ℕ) :
    Finishes (tableSlice table pair) := by
  simp [tableSlice]

@[simp] theorem finishes_cpAt (cps : List ℕ) (index : ℕ) : Finishes (cpAt cps index) := by
  unfold cpAt
  split <;> simp

@[simp] theorem finishes_pairAt (fib : Fib) (index : ℕ) : Finishes (pairAt fib index) := by
  unfold pairAt
  split <;> simp

@[simp] theorem finishes_streamOf (file : CompoundFile) (name : String) :
    Finishes (streamOf file name) := by
  unfold streamOf
  split <;> simp

@[simp] theorem finishes_checkMarkers (fieldTable : Bytes) (count : ℕ)
    (markers : List ((ℕ × ℕ) × ℕ)) : Finishes (checkMarkers fieldTable count markers) := by
  induction markers with
  | nil => exact finishes_ok ()
  | cons marker markers ih => simp [checkMarkers,ih]

@[simp] theorem finishes_checkFieldTable (raw : Text) (fieldTable : Bytes) (totalCp : ℕ) :
    Finishes (checkFieldTable raw fieldTable totalCp) := by
  simp [checkFieldTable]

@[simp] theorem finishes_fieldBounds (raw : Text) (cursor : ℕ) :
    Finishes (fieldBounds raw cursor) := by
  unfold fieldBounds
  split <;> simp

@[simp] theorem finishes_readField (raw : Text) (cps : List ℕ) (cursor : ℕ) :
    Finishes (readField raw cps cursor) := by
  simp [readField]

@[simp] theorem finishes_readPair (word : Bytes) (index : ℕ) : Finishes (readPair word index) := by
  simp [readPair]

@[simp] theorem finishes_checkFlags (word : Bytes) : Finishes (checkFlags word) := by
  simp [checkFlags,finishes_both]

@[simp] theorem finishes_readPairs (word : Bytes) : Finishes (readPairs word) := by
  simp [readPairs,finishes_mapM (finishes_readPair word)]

@[simp] theorem finishes_readFib (word : Bytes) : Finishes (readFib word) := by
  simp [readFib,countAt]

@[simp] theorem finishes_readPieceTable (table : Bytes) (fib : Fib) :
    Finishes (readPieceTable table fib) := by
  simp [readPieceTable]

@[simp] theorem finishes_readPieceCps (plc : Bytes) (count expected : ℕ) :
    Finishes (readPieceCps plc count expected) := by
  simp [readPieceCps]

@[simp] theorem finishes_readPiece (plc : Bytes) (count : ℕ) (cps : List ℕ) (fib : Fib)
    (intervals : List (ℕ × ℕ)) (index : ℕ) :
    Finishes (readPiece plc count cps fib intervals index) := by
  simp [readPiece]

@[simp] theorem finishes_readPieces (plc : Bytes) (count : ℕ) (cps : List ℕ) (fib : Fib)
    (indexes : List ℕ) (intervals : List (ℕ × ℕ)) :
    Finishes (readPieces plc count cps fib indexes intervals) := by
  induction indexes generalizing intervals with
  | nil => exact finishes_ok intervals
  | cons index indexes ih => simp [readPieces,ih]

@[simp] theorem finishes_textPieces (table : Bytes) (fib : Fib) :
    Finishes (textPieces table fib) := by
  simp [textPieces]

@[simp] theorem finishes_checkHeaderPositions (hdd : Bytes) (headerCp : ℕ) :
    Finishes (checkHeaderPositions hdd headerCp) := by
  simp [checkHeaderPositions]

theorem find_ok {raw : Text} {c : Char} {start i : ℕ} (h : find raw c start = some i) :
    start ≤ i ∧ raw[i]? = some c := by
  unfold find at h
  obtain ⟨k,hk,rfl⟩ := Option.map_eq_some_iff.mp h
  obtain ⟨hlt,heq,-⟩ := List.findIdx?_eq_some_iff_getElem.mp hk
  refine ⟨Nat.le_add_right _ _,?_⟩
  rw [← List.getElem?_drop,List.getElem?_eq_getElem hlt]
  simpa using heq

theorem fieldBounds_ok {raw : Text} {cursor : ℕ} {bounds : ℕ × ℕ}
    (h : fieldBounds raw cursor = .ok bounds) :
    cursor < bounds.1 ∧ bounds.1 < bounds.2 ∧ raw[bounds.1]? = some fieldSeparator ∧
    raw[bounds.2]? = some fieldEnd := by
  unfold fieldBounds at h
  split at h
  · rename_i separator stop hseparator hstop
    simp only [attempt_bind_ok,attempt_pure_ok,check_ok,Bool.and_eq_true,decide_eq_true_eq] at h
    obtain ⟨-,⟨hlt,hlt'⟩,rfl⟩ := h
    exact ⟨hlt,hlt',(find_ok hseparator).2,(find_ok hstop).2⟩
  · cases h

/-- A piece of a story: a character of the text, or a field. -/
inductive Part
  | plain (c : Char)
  | field (instruction result : Text)

def Part.raw : Part → Text
  | .plain c => [c]
  | .field instruction result =>
    fieldBegin::instruction++fieldSeparator::result++[fieldEnd]

def Part.visible : Part → Text
  | .plain c => [c]
  | .field _ result => result

def Part.Clean : Part → Prop
  | .plain c => isFieldControl c = false
  | .field instruction result => ∀ c ∈ instruction++result, isFieldControl c = false

def Part.field? : Part → Option (Text × Text)
  | .plain _ => none
  | .field instruction result => some (instruction,result)

theorem drop_of_getElem? {raw : Text} {i : ℕ} {c : Char} (h : raw[i]? = some c) :
    raw.drop i = c::raw.drop (i+1) := by
  obtain ⟨hlt,rfl⟩ := List.getElem?_eq_some_iff.mp h
  exact List.drop_eq_getElem_cons hlt

theorem drop_slice {raw : Text} {i j : ℕ} (h : i ≤ j) : raw.drop i = slice raw i j++raw.drop j := by
  have hsplit := Regex.slice_append raw h (Nat.le_max_left j raw.length)
  have hall : ∀ k, slice raw k (max j raw.length) = raw.drop k := by
    intro k
    rw [slice,List.take_of_length_le (Nat.le_max_right _ _)]
  rwa [hall,hall,eq_comm] at hsplit

variable {cps : List ℕ} {fib : Fib}

theorem readField_ok {raw : Text} {cursor : ℕ} {found : BinaryWordField × ℕ}
    (h : readField raw cps cursor = .ok found) (hbegin : raw[cursor]? = some fieldBegin) :
    ∃ part : Part, part.Clean ∧ part.field? = some (found.1.instruction,found.1.result) ∧
      part.visible = found.1.result ∧ cursor < found.2 ∧ found.2 ≤ raw.length ∧
      raw.drop cursor = part.raw++raw.drop found.2 := by
  simp only [readField,attempt_bind_ok,attempt_pure_ok,check_ok] at h
  obtain ⟨bounds,hbounds,-,hclean,-,-,-,-,startCp,-,endCp,-,rfl⟩ := h
  obtain ⟨hlt,hlt',hseparator,hend⟩ := fieldBounds_ok hbounds
  have hlength := (List.getElem?_eq_some_iff.mp hend).1
  refine ⟨.field (slice raw (cursor+1) bounds.1) (slice raw (bounds.1+1) bounds.2),?_,rfl,rfl,
    by change cursor < bounds.2+1; omega,hlength,?_⟩
  · intro c hc
    by_contra hne
    simp only [Bool.not_eq_true',List.any_eq_false] at hclean
    exact hclean c hc (by simpa using hne)
  · rw [drop_of_getElem? hbegin,drop_slice (show cursor+1 ≤ bounds.1 by omega),
      drop_of_getElem? hseparator,drop_slice (show bounds.1+1 ≤ bounds.2 by omega),
      drop_of_getElem? hend]
    simp [Part.raw]

theorem storyFrom_ok {raw : Text} {fuel cursor : ℕ} {found : Text × List BinaryWordField}
    (h : storyFrom raw cps fuel cursor = .ok found) :
    ∃ parts : List Part, (∀ p ∈ parts, p.Clean) ∧ raw.drop cursor = parts.flatMap Part.raw ∧
      found.1 = parts.flatMap Part.visible ∧
      (found.2.map fun f => (f.instruction,f.result)) = parts.filterMap Part.field? := by
  induction fuel generalizing cursor found with
  | zero =>
    unfold storyFrom at h
    split at h
    · rename_i hnone
      cases h
      exact ⟨[],by simp,by simpa using List.getElem?_eq_none_iff.mp hnone,rfl,rfl⟩
    · cases h
  | succ fuel ih =>
    unfold storyFrom at h
    split at h
    · rename_i hnone
      cases h
      exact ⟨[],by simp,by simpa using List.getElem?_eq_none_iff.mp hnone,rfl,rfl⟩
    · rename_i c hc
      simp only at h
      split at h
      · simp only [attempt_bind_ok,attempt_pure_ok,check_ok,Bool.not_eq_true'] at h
        obtain ⟨-,hcontrol,later,hlater,rfl⟩ := h
        obtain ⟨parts,hclean,hraw,hvisible,hfields⟩ := ih hlater
        refine ⟨.plain c::parts,?_,?_,by simp [hvisible,Part.visible],
          hfields.trans (List.filterMap_cons_none rfl).symm⟩
        · intro p hp
          rcases List.mem_cons.mp hp with rfl | hp
          · exact hcontrol
          · exact hclean p hp
        · rw [drop_of_getElem? hc,hraw]
          rfl
      · rename_i hbegin
        obtain rfl : c = fieldBegin := not_not.mp hbegin
        simp only [attempt_bind_ok,attempt_pure_ok] at h
        obtain ⟨field,hfield,later,hlater,rfl⟩ := h
        obtain ⟨part,hpart,hpair,hshown,-,-,hdrop⟩ := readField_ok hfield hc
        obtain ⟨parts,hclean,hraw,hvisible,hfields⟩ := ih hlater
        refine ⟨part::parts,?_,?_,by simp [hvisible,hshown],by simp [hfields,hpair]⟩
        · intro p hp
          rcases List.mem_cons.mp hp with rfl | hp
          · exact hpart
          · exact hclean p hp
        · rw [hdrop,hraw]
          rfl

/-- Every turn of the loop moves on, so it ends with the text. -/
theorem storyFrom_finishes {raw : Text} (cps : List ℕ) {fuel cursor : ℕ}
    (hfuel : raw.length ≤ cursor+fuel) : Finishes (storyFrom raw cps fuel cursor) := by
  induction fuel generalizing cursor with
  | zero =>
    unfold storyFrom
    split
    · exact finishes_ok _
    · rename_i c hc
      have := (List.getElem?_eq_some_iff.mp hc).1
      omega
  | succ fuel ih =>
    unfold storyFrom
    split
    · exact finishes_ok _
    · rename_i c hc
      simp only
      split
      · simp only [finishes_bind,finishes_check,finishes_pure,true_and,implies_true,and_true]
        exact fun _ _ => ih (by omega)
      · rename_i hbegin
        obtain rfl : c = fieldBegin := not_not.mp hbegin
        simp only [finishes_bind,finishes_readField,finishes_pure,true_and,implies_true,and_true]
        intro field hfield
        obtain ⟨-,-,-,-,hlt,-,-⟩ := readField_ok hfield hc
        exact ih (by omega)

@[simp] theorem finishes_story (raw : Text) (fieldTable : Bytes) (totalCp : ℕ) :
    Finishes (story raw fieldTable totalCp) := by
  simp only [story,finishes_bind,finishes_check,finishes_checkFieldTable,finishes_pure,true_and,
    implies_true,and_true]
  exact fun _ _ _ _ _ _ _ _ => storyFrom_finishes _ (by omega)

/-- The raw text of a story is its visible text and the markup of its fields. -/
def BinaryWordStory.Decomposed (s : BinaryWordStory) : Prop :=
  ∃ parts : List Part, (∀ p ∈ parts, p.Clean) ∧ s.rawText = parts.flatMap Part.raw ∧
    s.visibleText = parts.flatMap Part.visible ∧
    (s.fields.map fun f => (f.instruction,f.result)) = parts.filterMap Part.field?

theorem story_ok {raw : Text} {fieldTable : Bytes} {totalCp : ℕ} {s : BinaryWordStory}
    (h : story raw fieldTable totalCp = .ok s) : s.rawText = raw ∧ s.Decomposed := by
  simp only [story,attempt_bind_ok,attempt_pure_ok] at h
  obtain ⟨-,-,-,-,-,-,-,-,found,hfound,rfl⟩ := h
  obtain ⟨parts,hclean,hraw,hvisible,hfields⟩ := storyFrom_ok hfound
  exact ⟨rfl,parts,hclean,by simpa using hraw,hvisible,hfields⟩

/-- The pieces lie behind the header of the stream, inside it and apart. -/
structure PiecesApart (word : Bytes) (fib : Fib) (pieces : List (ℕ × ℕ)) : Prop where
  inside : ∀ p ∈ pieces, fib.fibEnd ≤ p.1 ∧ p.1 < p.2 ∧ p.2 ≤ word.length
  apart : pieces.Pairwise fun p q => p.2 ≤ q.1 ∨ q.2 ≤ p.1

theorem readPiece_ok {plc : Bytes} {count : ℕ} {intervals : List (ℕ × ℕ)} {index : ℕ}
    {piece : ℕ × ℕ} (h : readPiece plc count cps fib intervals index = .ok piece) :
    fib.fibEnd ≤ piece.1 ∧ piece.1 < piece.2 ∧ piece.2 ≤ fib.cbMac ∧
    ∀ other ∈ intervals, piece.2 ≤ other.1 ∨ other.2 ≤ piece.1 := by
  simp only [readPiece,attempt_bind_ok,attempt_pure_ok,check_ok] at h
  obtain ⟨-,-,-,-,fc,-,-,-,-,-,nextCp,-,cp,-,-,hinside,-,hapart,rfl⟩ := h
  simp only [Bool.and_eq_true,decide_eq_true_eq] at hinside
  refine ⟨hinside.1.1,hinside.1.2,hinside.2,?_⟩
  intro other hother
  simpa using List.all_eq_true.mp hapart other hother

theorem readPieces_ok {word plc : Bytes} {count : ℕ} (hmac : fib.cbMac ≤ word.length)
    (indexes : List ℕ) {intervals pieces : List (ℕ × ℕ)}
    (h : readPieces plc count cps fib indexes intervals = .ok pieces)
    (hintervals : PiecesApart word fib intervals) : PiecesApart word fib pieces := by
  induction indexes generalizing intervals with
  | nil =>
    cases h
    exact hintervals
  | cons index indexes ih =>
    simp only [readPieces,attempt_bind_ok] at h
    obtain ⟨piece,hpiece,h⟩ := h
    obtain ⟨hlow,hlt,hhigh,hapart⟩ := readPiece_ok hpiece
    refine ih h ⟨?_,List.pairwise_append.mpr ⟨hintervals.apart,List.pairwise_singleton _ _,?_⟩⟩
    · intro p hp
      rcases List.mem_append.mp hp with hp | hp
      · exact hintervals.inside p hp
      · rw [List.mem_singleton.mp hp]
        exact ⟨hlow,hlt,by omega⟩
    · intro p hp q hq
      rw [List.mem_singleton.mp hq]
      exact (hapart p hp).symm

theorem readFib_ok {word : Bytes} (h : readFib word = .ok fib) :
    fib.cbMac ≤ word.length := by
  simp only [readFib,attempt_bind_ok,attempt_pure_ok,check_ok] at h
  obtain ⟨flags,-,found,-,cbMac,-,-,hmac,counts,-,-,-,mainCp,-,headerCp,-,-,-,rfl⟩ := h
  simp only [Bool.and_eq_true,decide_eq_true_eq] at hmac
  exact hmac.2

theorem textPieces_ok {word table : Bytes} {pieces : List (ℕ × ℕ)} (hmac : fib.cbMac ≤ word.length)
    (h : textPieces table fib = .ok pieces) :
    PiecesApart word fib pieces := by
  simp only [textPieces,attempt_bind_ok] at h
  obtain ⟨found,-,cps,-,hpieces⟩ := h
  exact readPieces_ok hmac _ hpieces ⟨by simp,List.Pairwise.nil⟩

theorem finishes_readDocument (sha256 : Bytes → Digest) (payload : Bytes) :
    Finishes (readDocument sha256 payload) := by
  simp only [readDocument,finishes_bind,finishes_compoundFile,finishes_streamOf,finishes_readFib,
    finishes_textPieces,finishes_check,finishes_decodeUtf16,finishes_pairAt,finishes_tableSlice,
    finishes_checkHeaderPositions,finishes_story,finishes_pure,implies_true,and_true]

/-- What the reader went through on the way to a document. -/
structure Recovered (payload : Bytes) (document : BinaryWordTextDocument) : Prop where
  file : ∃ file word fib table pieces,
    compoundFile payload = .ok file ∧ streamOf file "WordDocument" = .ok word ∧
    readFib word = .ok fib ∧
    streamOf file (if fib.flags &&& 0x200 != 0 then "1Table" else "0Table") = .ok table ∧
    textPieces table fib = .ok pieces ∧
    decodeUtf16 ((pieceBytes word pieces).take (fib.mainCp*2)) = .ok document.main.rawText ∧
    file.storage.Sound file.volume file.mini ∧ PiecesApart word fib pieces
  main : document.main.Decomposed
  header : document.header.Decomposed

theorem readDocument_ok {sha256 : Bytes → Digest} {payload : Bytes}
    {document : BinaryWordTextDocument} (h : readDocument sha256 payload = .ok document) :
    Recovered payload document := by
  simp only [readDocument,attempt_bind_ok,attempt_pure_ok] at h
  obtain ⟨file,hfile,word,hword,fib,hfib,table,htable,pieces,hpieces,-,-,mainRaw,hmainRaw,
    headerRaw,-,_,-,_,-,-,-,_,-,_,-,main,hmain,_,-,_,-,header,hheader,-,-,rfl⟩ := h
  obtain ⟨hraw,hmainParts⟩ := story_ok hmain
  have hpiecesApart := textPieces_ok (readFib_ok hfib) hpieces
  refine ⟨⟨file,word,fib,table,pieces,hfile,hword,hfib,htable,hpieces,?_,compoundFile_ok hfile,
    hpiecesApart⟩,hmainParts,(story_ok hheader).2⟩
  rw [hmainRaw]
  exact congrArg Except.ok hraw.symm

/-- The reader ends on all bytes, with a document recovered from disjoint chains
and pieces or with its own error. -/
theorem reader_safe (sha256 : Bytes → Digest) (payload : Bytes) :
    (∃ document, readBinaryWordText sha256 payload = .ok document ∧
      Recovered payload document) ∨
    ∃ code, readBinaryWordText sha256 payload = .error (.binaryWord code) := by
  have hfinishes := finishes_readDocument sha256 payload
  unfold readBinaryWordText
  cases h : readDocument sha256 payload with
  | ok document => exact .inl ⟨document,rfl,readDocument_ok h⟩
  | error e =>
    refine .inr ?_
    cases e with
    | binaryWord code => exact ⟨code,rfl⟩
    | structError => exact ⟨_,rfl⟩
    | unicodeError => exact ⟨_,rfl⟩
    | indexError => exact ⟨_,rfl⟩
    | keyError => exact ⟨_,rfl⟩
    | unfinished => exact absurd h hfinishes

end LawyerAgent.BinaryWordText
