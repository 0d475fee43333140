import LawyerAgent.AttuPreparation
import LawyerAgent.Packing.Greedy

/-!
# Batch files and their reader

The writer packs the records greedily: its files are the texts of the groups of
a packing. A file of a group is read back as the group.
-/

set_option autoImplicit false

namespace LawyerAgent.AttuBatches
open Common CanonicalJson JsonReader
open AttuPreparation AttuImport
open Datetimes (digits_length digits_inj digits_mem)
open Envelope (digit digits)
open Outcomes (require_ok bind_ok ok_inj)
open Packing (place close total total_snoc)

theorem utf8_low {c : Char} (h : 32 ≤ c.toNat) : ∀ b ∈ String.utf8EncodeChar c, 32 ≤ b.toNat := by
  have hv : 32 ≤ c.val.toNat := h
  intro b hb
  simp only [String.utf8EncodeChar] at hb
  split at hb
  · obtain rfl := List.mem_singleton.mp hb
    rw [UInt8.toNat_ofNat']
    omega
  split at hb
  · simp only [List.mem_cons,List.not_mem_nil,or_false] at hb
    rcases hb with rfl | rfl <;> rw [UInt8.toNat_ofNat'] <;> omega
  split at hb
  · simp only [List.mem_cons,List.not_mem_nil,or_false] at hb
    rcases hb with rfl | rfl | rfl <;> rw [UInt8.toNat_ofNat'] <;> omega
  · simp only [List.mem_cons,List.not_mem_nil,or_false] at hb
    rcases hb with rfl | rfl | rfl | rfl <;> rw [UInt8.toNat_ofNat'] <;> omega

def Line (line : List UInt8) : Prop := ∀ b ∈ line, 32 ≤ b.toNat

theorem encode_line {text : List Char} (h : Visible text) : Line (encode text) := by
  intro b hb
  obtain ⟨c,hc,hb⟩ := List.mem_flatMap.mp hb
  exact utf8_low (h c hc) b hb

theorem encodeJson_eq (value : Json) : encodeJson value = encode (write value)++[10] := by
  rw [encodeJson,encode,encode,List.flatMap_append]
  rfl

theorem splitLines_line {line : List UInt8} (h : Line line) (front rest : List UInt8) :
    splitLines front false (line++10::rest) = (front++line)::splitLines [] false rest := by
  induction line generalizing front with
  | nil => simp [splitLines]
  | cons b line ih =>
    have hb := h b List.mem_cons_self
    have hfeed : b ≠ 10 := by
      rintro rfl
      exact absurd hb (by decide)
    have hreturn : b ≠ 13 := by
      rintro rfl
      exact absurd hb (by decide)
    rw [List.cons_append,splitLines,if_neg hfeed,if_neg hreturn,
      ih (fun d hd => h d (List.mem_cons_of_mem _ hd)) _,List.append_assoc]
    rfl

theorem splitLines_lines {lines : List (List UInt8)} (h : ∀ line ∈ lines, Line line) :
    splitLines [] false (lines.flatMap (·++[10])) = lines := by
  induction lines with
  | nil => rfl
  | cons line lines ih =>
    rw [List.flatMap_cons,List.append_assoc,List.singleton_append,
      splitLines_line (h line List.mem_cons_self) _ _,List.nil_append,
      ih fun l hl => h l (List.mem_cons_of_mem _ hl)]

theorem readLine_write {value : Json} (h : finite value = true) :
    readLine (encode (write value)) = .ok value := by
  rw [readLine,readRecord,decode_encode,Option.bind_some,loads_write value h]

def content (group : List Json) : List UInt8 := group.flatMap encodeJson

variable {group : List Json}

theorem mapM_readLine (h : ∀ value ∈ group, finite value = true) :
    (group.map fun value => encode (write value)).mapM readLine = .ok group := by
  induction group with
  | nil => rfl
  | cons value group ih =>
    rw [List.map_cons,List.mapM_cons,readLine_write (h value List.mem_cons_self),
      ih fun v hv => h v (List.mem_cons_of_mem _ hv)]
    rfl

theorem read_content (h : ∀ value ∈ group, finite value = true) :
    (splitLines [] false (content group)).mapM readLine = .ok group := by
  have hlines : content group =
    (group.map fun value => encode (write value)).flatMap (·++[10]) := by
    rw [List.flatMap_map,content]
    exact List.flatMap_congr fun value _ => encodeJson_eq value
  rw [hlines,splitLines_lines,mapM_readLine h]
  intro line hline
  obtain ⟨value,hvalue,rfl⟩ := List.mem_map.mp hline
  exact encode_line (write_visible value (h value hvalue))

theorem fileLines_line {line : List UInt8} (h : Line line) (front rest : List UInt8) :
    fileLines front (line++10::rest) = (front++line)::fileLines [] rest := by
  induction line generalizing front with
  | nil => simp [fileLines]
  | cons b line ih =>
    have hfeed : b ≠ 10 := by
      rintro rfl
      exact absurd (h 10 List.mem_cons_self) (by decide)
    rw [List.cons_append,fileLines,if_neg hfeed,
      ih (fun d hd => h d (List.mem_cons_of_mem _ hd)) _,List.append_assoc]
    rfl

theorem fileLines_content (h : ∀ value ∈ group, finite value = true) :
    fileLines [] (content group) = group.map fun value => encode (write value) := by
  induction group with
  | nil => rfl
  | cons value group ih =>
    have hline := encode_line (write_visible value (h value List.mem_cons_self))
    rw [content,List.flatMap_cons,encodeJson_eq,List.append_assoc,List.singleton_append,
      fileLines_line hline,List.nil_append,List.map_cons]
    exact congrArg _ (ih fun v hv => h v (List.mem_cons_of_mem _ hv))

def numberText (number : ℕ) : List Char :=
  if number < 100000 then digits 10 5 number else Nat.toDigits 10 number

theorem batchName_toList (number : ℕ) :
    (batchName number).toList = "import_".toList++numberText number++".jsonl".toList := by
  unfold batchName numberText
  exact String.toList_ofList

theorem numberText_length (number : ℕ) :
    5 ≤ (numberText number).length ∧ ((numberText number).length ≤ 5 ↔ number < 100000) := by
  unfold numberText
  split
  · next h => exact ⟨by rw [digits_length],by rw [digits_length]; simpa using h⟩
  · next h =>
    have hlong := Nat.length_toDigits_le_iff (n := number) (k := 5) (by decide : 1 < 10) (by decide)
    exact ⟨by omega,hlong⟩

theorem numberText_digits {number : ℕ} (h : number < 100000) :
    ∀ c ∈ numberText number, c.isDigit = true := by
  have hdigit : ∀ k < 10, (digit k).isDigit = true := by decide
  intro c hc
  rw [numberText,if_pos h] at hc
  obtain ⟨k,hk,rfl⟩ := digits_mem (by decide) hc
  exact hdigit k hk

theorem numberText_inj {n m : ℕ} (h : numberText n = numberText m) : n = m := by
  have hn := numberText_length n
  have hm := numberText_length m
  rw [h] at hn
  have hsame : n < 100000 ↔ m < 100000 := hn.2.symm.trans hm.2
  unfold numberText at h
  by_cases hlow : n < 100000
  · rw [if_pos hlow,if_pos (hsame.mp hlow)] at h
    exact digits_inj (by decide) (by decide) hlow (hsame.mp hlow) h
  · rw [if_neg hlow,if_neg (mt hsame.mpr hlow)] at h
    have hdecimal := congrArg JsonText.decimal h
    rwa [JsonText.decimal_toDigits,JsonText.decimal_toDigits] at hdecimal

theorem isBatchName_iff (number : ℕ) :
    isBatchName (batchName number) = true ↔ number < 100000 := by
  have hlength := numberText_length number
  have hfront : (batchName number).toList.take 7 = "import_".toList := by
    rw [batchName_toList,List.append_assoc]
    exact List.take_left' rfl
  have hrest : (batchName number).toList.drop 7 = numberText number++".jsonl".toList := by
    rw [batchName_toList,List.append_assoc]
    exact List.drop_left' rfl
  have hend : (batchName number).toList.drop 12 = (numberText number++".jsonl".toList).drop 5 := by
    rw [← hrest,List.drop_drop]
  have htake : (numberText number++".jsonl".toList).take 5 = (numberText number).take 5 :=
    List.take_append_of_le_length hlength.1
  simp only [isBatchName,hfront,hrest,hend,htake,beq_self_eq_true,Bool.true_and,
    Bool.and_eq_true,beq_iff_eq]
  constructor
  · rintro ⟨htail,-⟩
    refine hlength.2.mp ?_
    have hsame := congrArg List.length htail
    rw [List.length_drop,List.length_append] at hsame
    omega
  · intro h
    have hfive : (numberText number).length = 5 :=
      Nat.le_antisymm (hlength.2.mpr h) hlength.1
    refine ⟨List.drop_left' hfive,List.all_eq_true.mpr fun c hc => ?_⟩
    exact numberText_digits h c (List.mem_of_mem_take hc)

theorem batchName_inj {n m : ℕ} (h : batchName n = batchName m) : n = m := by
  have htext := congrArg String.toList h
  rw [batchName_toList,batchName_toList] at htext
  exact numberText_inj (List.append_cancel_left (List.append_cancel_right htext))

variable {sha256 : List UInt8 → Digest}

def recordSize (record : Json) : ℕ := (encodeJson record).length

theorem content_length (group : List Json) : (content group).length = total recordSize group := by
  rw [content,List.length_flatMap]
  rfl

theorem content_snoc (group : List Json) (record : Json) :
    content (group++[record]) = content group++encodeJson record := by simp [content]

def batchOf (sha256 : List UInt8 → Digest) (index : ℕ) (group : List Json) : Batch :=
  ⟨batchName (index+1),group.length,total recordSize group,hexdigest sha256 (content group)⟩

def fileOf (index : ℕ) (group : List Json) : String × List UInt8 :=
  (batchName (index+1),content group)

/-- A writer that has written the closed groups of a packing and holds the open
one. -/
structure Writes (sha256 : List UInt8 → Digest) (limit : ℕ) (w : BatchWriter)
    (s : List (List Json) × List Json) : Prop where
  maxBytes : w.maxBytes = limit
  handle : w.handle = if s.2 = [] then none else some (batchName (s.1.length+1),content s.2)
  size : w.size = total recordSize s.2
  count : w.count = s.2.length
  batches : w.batches = s.1.mapIdx (batchOf sha256)
  files : w.files = s.1.mapIdx fileOf

variable {limit : ℕ} {w w' : BatchWriter} {s : List (List Json) × List Json}

theorem close_writes (h : Writes sha256 limit w s) :
    Writes sha256 limit (w.close sha256) (close s,[]) := by
  obtain ⟨groups,group⟩ := s
  by_cases hgroup : group = []
  · subst hgroup
    have hhandle : w.handle = none := h.handle
    have hclose : w.close sha256 = w := by rw [BatchWriter.close,hhandle]
    rw [hclose,close,if_pos rfl]
    exact ⟨h.maxBytes,hhandle,h.size,h.count,h.batches,h.files⟩
  · have hhandle := h.handle
    rw [if_neg hgroup] at hhandle
    have hbatches := h.batches
    have hfiles := h.files
    have hsize := h.size
    have hcount := h.count
    simp only at hhandle hbatches hfiles hsize hcount
    have hclose : w.close sha256 = { w with
        handle := none
        size := 0
        count := 0
        batches := (groups++[group]).mapIdx (batchOf sha256)
        files := (groups++[group]).mapIdx fileOf } := by
      simp only [BatchWriter.close,hhandle,hbatches,hfiles,hsize,hcount,List.mapIdx_concat]
      rfl
    rw [hclose,close,if_neg hgroup]
    exact ⟨h.maxBytes,rfl,rfl,rfl,rfl,rfl⟩

theorem append_writes {groups : List (List Json)} (h : Writes sha256 limit w (groups,group))
    (record : Json) :
    Writes sha256 limit (w.ensureOpen.append (encodeJson record)) (groups,group++[record]) := by
  have hne : group++[record] ≠ [] := by simp
  have hhandle := h.handle
  have hsize := h.size
  have hcount := h.count
  have hbatches := h.batches
  simp only at hhandle hsize hcount hbatches
  by_cases hgroup : group = []
  · subst hgroup
    rw [if_pos rfl] at hhandle
    have hopen : w.ensureOpen = {w with handle := some (batchName (groups.length+1),[])} := by
      rw [BatchWriter.ensureOpen,hhandle]
      simp only [hbatches,List.length_mapIdx]
    rw [hopen]
    refine ⟨h.maxBytes,?_,?_,?_,h.batches,h.files⟩
    · simp [BatchWriter.append,content]
    · simp only [BatchWriter.append,hsize]
      rw [total_snoc,recordSize]
    · simp [BatchWriter.append,hcount]
  · rw [if_neg hgroup] at hhandle
    have hopen : w.ensureOpen = w := by rw [BatchWriter.ensureOpen,hhandle]
    rw [hopen]
    refine ⟨h.maxBytes,?_,?_,?_,h.batches,h.files⟩
    · simp only [BatchWriter.append,hhandle,if_neg hne,Option.map_some,content_snoc]
    · simp only [BatchWriter.append,hsize]
      rw [total_snoc,recordSize]
    · simp [BatchWriter.append,hcount]

theorem add_writes {record : Json} (h : Writes sha256 limit w s)
    (hadd : w.add sha256 record = .ok w') :
    recordSize record ≤ limit ∧ Writes sha256 limit w' (place limit recordSize s record) := by
  obtain ⟨groups,group⟩ := s
  simp only [BatchWriter.add,bind_ok,require_ok,ok_inj] at hadd
  obtain ⟨_,hfits,rfl⟩ := hadd
  rw [h.maxBytes] at hfits
  refine ⟨hfits,?_⟩
  have hopen : w.handle.isSome = true ↔ group ≠ [] := by
    rw [h.handle]
    by_cases hgroup : group = [] <;> simp [hgroup]
  have hwhen : (w.handle.isSome = true ∧ w.maxBytes < w.size+(encodeJson record).length) ↔
      group ≠ [] ∧ limit < total recordSize group+recordSize record := by
    rw [hopen,h.maxBytes,h.size]
    rfl
  unfold place
  by_cases hfull : group ≠ [] ∧ limit < total recordSize group+recordSize record
  · rw [if_pos (hwhen.mpr hfull),if_pos hfull]
    have hclosed := close_writes h
    rw [close,if_neg hfull.1] at hclosed
    exact append_writes hclosed record
  · rw [if_neg (mt hwhen.mp hfull),if_neg hfull]
    exact append_writes h record

theorem addRows_writes {documentId : String} {rows : List JsonObject}
    (h : Writes sha256 limit w s) (hadd : addRows sha256 documentId rows w = (w',none)) :
    Writes sha256 limit w' ((rows.map (record documentId)).foldl (place limit recordSize) s) := by
  induction rows generalizing w s with
  | nil =>
    cases hadd
    exact h
  | cons row rows ih =>
    rw [addRows] at hadd
    cases hrow : w.add sha256 (record documentId row) with
    | error code =>
      rw [hrow] at hadd
      cases hadd
    | ok u =>
      rw [hrow] at hadd
      exact ih (add_writes h hrow).2 hadd

/-- A record as the writer's check reads it back. -/
structure Sound (value : Json) : Prop where
  writable : finite value = true
  fields : ∃ fields : JsonObject, value = .object fields ∧
    (fields.map Prod.fst).Perm importFields ∧ checkVector (get fields "vector") = .ok ()

theorem verifyRecord_sound {value : Json} (h : Sound value) :
    verifyRecord (encode (write value)) = .ok () := by
  obtain ⟨fields,rfl,hkeys,hvector⟩ := h.fields
  unfold verifyRecord readRecord
  rw [decode_encode,Option.bind_some,loads_write _ h.writable]
  simp only [bind_ok,require_ok]
  exact ⟨(),hkeys,hvector⟩

theorem verifyRecords_sound (h : ∀ value ∈ group, Sound value) :
    (group.map fun value => encode (write value)).forM verifyRecord = .ok () := by
  induction group with
  | nil => rfl
  | cons value group ih =>
    exact bind_ok.mpr ⟨(),verifyRecord_sound (h value List.mem_cons_self),
      ih fun v hv => h v (List.mem_cons_of_mem _ hv)⟩

end LawyerAgent.AttuBatches
