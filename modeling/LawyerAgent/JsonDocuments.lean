import LawyerAgent.Outcomes.Except
import LawyerAgent.JsonTexts

/-!
# JSON documents in parts

One statement serializes a stored JSON value once and returns it in parts of
128 KiB. The reader puts the parts together again and decodes the document.
-/

set_option autoImplicit false

namespace LawyerAgent.JsonDocuments
open Outcomes Common CanonicalJson
open JsonReader (decode decode_encode)
open PythonJson JsonLoads JsonTexts

def partBytes : ℕ := 128*1024

def maxBytes : ℕ := 64*1024*1024

/-- A value the driver hands over; a `bool` or `NULL` is no `int`. -/
inductive Cell where
  | int (value : ℤ)
  | bytes (data : List UInt8)
  | other

abbrev PartRow : Type := List Cell

def partRow (data : List UInt8) (index : ℕ) : PartRow :=
  [.int index,.int data.length,
    .bytes (if data.length ≤ maxBytes then (data.drop (index*partBytes)).take partBytes else [])]

def partRows (data : List UInt8) : List PartRow :=
  ((List.range (maxBytes/partBytes)).filter fun index =>
    decide (index = 0 ∨ index*partBytes < data.length)).map (partRow data)

/-- `_parts_statement` over the rows of a one-column statement; the length of
`NULL` is `NULL`, and only the first part stays. -/
def partsStatement : List (Option (List UInt8)) → List PartRow
  | [] => []
  | none::_ => [[.int 0,.other,.bytes []]]
  | some data::_ => partRows data

structure Reading where
  data : List UInt8
  expectedTotal : Option ℤ
  index : ℕ

def startReading : Reading := ⟨[],none,0⟩

def readRow (s : Reading) : PartRow → Except String Reading
  | [.int ordinal,.int total,.bytes part] =>
    if ordinal ≠ s.index ∨ maxBytes/partBytes ≤ s.index ∨ ¬(0 < total ∧ total ≤ maxBytes) ∨
        total ≤ s.data.length ∨ (s.expectedTotal ≠ none ∧ s.expectedTotal ≠ some total) ∨
        (part.length : ℤ) ≠ min (partBytes : ℤ) (total-s.data.length) then
      .error "json_document_invalid"
    else .ok ⟨s.data++part,some total,s.index+1⟩
  | _ => .error "json_document_invalid"

def storedDepth : ℕ := 100

/-- How many containers `json.loads` can nest before a `RecursionError`. -/
structure Interpreter where
  frames : ℕ
  enough : storedDepth ≤ frames

variable (sha256 : List UInt8 → Digest) (python : Interpreter)

def decodeDocument (data : List UInt8) : Option Value := (decode data).bind (loads python.frames)

def readJsonDocument (expectedSha256 : Option String) (rows : List PartRow) :
    Except String (Option Value) := do
  require (expectedSha256.all (fun digest => isHex 64 digest.toList) = true) "json_document_invalid"
  let s ← rows.foldlM readRow startReading
  match s.expectedTotal with
  | none => return none
  | some total =>
    require ((s.data.length : ℤ) = total) "json_document_invalid"
    require (expectedSha256.all (fun digest => digest == hex (sha256 s.data)) = true)
      "json_document_changed"
    match decodeDocument python s.data with
    | some (.dict fields) => return some (.dict fields)
    | _ => throw "json_document_invalid"

def slice (data : List UInt8) (index : ℕ) : List UInt8 :=
  (data.drop (index*partBytes)).take partBytes

theorem slice_append {data : List UInt8} {index : ℕ} (h : (index+1)*partBytes ≤ data.length)
    (more : List UInt8) : slice (data++more) index = slice data index := by
  rw [Nat.succ_mul] at h
  rw [slice,slice,List.drop_append_of_le_length (by omega)]
  apply List.take_append_of_le_length
  rw [List.length_drop]
  omega

/-- The last part ends with the data. -/
theorem slice_last {data part : List UInt8} {index : ℕ} (h : data.length = index*partBytes)
    (hpart : part.length ≤ partBytes) : slice (data++part) index = part := by
  rw [slice,← h,List.drop_left,List.take_of_length_le hpart]

theorem slice_length (data : List UInt8) (index : ℕ) :
    (slice data index).length = min partBytes (data.length-index*partBytes) := by
  rw [slice,List.length_take,List.length_drop]

structure Accepted (s : Reading) (total : ℕ) (part : List UInt8) : Prop where
  places : s.index < maxBytes/partBytes
  positive : 0 < total
  bounded : total ≤ maxBytes
  missing : s.data.length < total
  same : s.expectedTotal = none ∨ s.expectedTotal = some (total : ℤ)
  size : part.length = min partBytes (total-s.data.length)

theorem readRow_ok {s t : Reading} {row : PartRow} : readRow s row = .ok t ↔
    ∃ total part, row = [.int s.index,.int (total : ℕ),.bytes part] ∧ Accepted s total part ∧
      t = ⟨s.data++part,some (total : ℤ),s.index+1⟩ := by
  constructor
  · intro h
    unfold readRow at h
    split at h
    · next ordinal total part =>
      split at h
      · cases h
      · next hno =>
        simp only [not_or,not_not] at hno
        obtain ⟨hordinal,hplaces,⟨hpositive,hbounded⟩,hmissing,hsame,hsize⟩ := hno
        obtain ⟨total,rfl⟩ := Int.eq_ofNat_of_zero_le hpositive.le
        refine ⟨total,part,
          by rw [hordinal],⟨not_le.mp hplaces,by omega,by omega,by omega,?_,by omega⟩,
          (ok_inj.mp h).symm⟩
        by_cases hnone : s.expectedTotal = none
        · exact Or.inl hnone
        · exact Or.inr (not_not.mp fun hother => hsame ⟨hnone,hother⟩)
    · cases h
  · rintro ⟨total,part,rfl,h,rfl⟩
    have hplaces := h.places
    have hpositive := h.positive
    have hbounded := h.bounded
    have hmissing := h.missing
    have hsize := h.size
    have hsame : ¬(s.expectedTotal ≠ none ∧ s.expectedTotal ≠ some (total : ℤ)) := by
      rintro ⟨hsome,hother⟩
      exact h.same.elim hsome hother
    rw [readRow]
    apply if_neg
    rintro (hordinal | hlate | hrange | hfull | hother | hlength)
    · exact hordinal rfl
    · exact absurd hplaces (not_lt.mpr hlate)
    · omega
    · omega
    · exact hsame hother
    · omega

/-- The rows of one document up to here, in order. -/
structure Collected (rows : List PartRow) (total : ℕ) (s : Reading) : Prop where
  positive : 0 < total
  bounded : total ≤ maxBytes
  index : s.index = rows.length
  expected : s.expectedTotal = some (total : ℤ)
  length : s.data.length = min (rows.length*partBytes) total
  places : rows.length ≤ maxBytes/partBytes
  begun : (rows.length-1)*partBytes < total
  inOrder : rows = (List.range rows.length).map fun index =>
    [.int index,.int total,.bytes (slice s.data index)]

variable {rows : List PartRow}

theorem rows_collected {s : Reading} (h : rows.foldlM readRow startReading = .ok s) :
    (rows = [] ∧ s = startReading) ∨ (rows ≠ [] ∧ ∃ total, Collected rows total s) := by
  induction rows using List.reverseRecOn generalizing s with
  | nil => exact Or.inl ⟨rfl,(ok_inj.mp h).symm⟩
  | append_singleton rows row ih =>
    rw [List.foldlM_append,bind_ok] at h
    obtain ⟨r,hrows,hrow⟩ := h
    rw [List.foldlM_cons,bind_ok] at hrow
    obtain ⟨t,hrow,hlast⟩ := hrow
    have hts : t = s := ok_inj.mp hlast
    obtain ⟨total,part,rfl,haccepted,rfl⟩ := readRow_ok.mp hrow
    subst hts
    refine Or.inr ⟨by simp,total,?_⟩
    have hplaces := haccepted.places
    have hsize := haccepted.size
    have hmissing := haccepted.missing
    have hcount : r.index = rows.length ∧ r.data.length = rows.length*partBytes ∧
        rows = (List.range rows.length).map fun index =>
          [.int index,.int total,.bytes (slice r.data index)] := by
      rcases ih hrows with ⟨rfl,rfl⟩ | ⟨-,other,hold⟩
      · exact ⟨rfl,rfl,rfl⟩
      · have htotal : other = total := by
          have hsame := haccepted.same
          rw [hold.expected] at hsame
          rcases hsame with hnone | hsome
          · cases hnone
          · exact Int.ofNat.inj (Option.some_inj.mp hsome)
        subst htotal
        have hlength := hold.length
        exact ⟨hold.index,by omega,hold.inOrder⟩
    obtain ⟨hindex,hdata,hrows⟩ := hcount
    have hlength : (rows++[[Cell.int r.index,Cell.int total,Cell.bytes part]]).length =
        rows.length+1 := by simp
    constructor
    · exact haccepted.positive
    · exact haccepted.bounded
    · rw [hlength,hindex]
    · rfl
    · rw [hlength,List.length_append,Nat.succ_mul]
      omega
    · rw [hlength]
      omega
    · rw [hlength]
      simp only [Nat.add_sub_cancel]
      omega
    · rw [hlength,List.range_succ,List.map_append,List.map_singleton]
      have hpart : slice (r.data++part) rows.length = part := slice_last hdata (by omega)
      have hfront : rows = (List.range rows.length).map fun index =>
          [.int index,.int total,.bytes (slice (r.data++part) index)] := by
        conv_lhs => rw [hrows]
        apply List.map_congr_left
        intro index hindex
        have hlt := List.mem_range.mp hindex
        have hroom : (index+1)*partBytes ≤ r.data.length := by
          rw [hdata]
          exact Nat.mul_le_mul_right _ hlt
        rw [slice_append hroom]
      rw [hpart,hindex]
      exact congrArg (·++[[Cell.int rows.length,Cell.int total,Cell.bytes part]]) hfront

theorem partRow_eq {data : List UInt8} (h : data.length ≤ maxBytes) (index : ℕ) :
    partRow data index = [.int index,.int data.length,.bytes (slice data index)] := by
  rw [partRow,if_pos h,slice]

/-- As many parts as the bytes fill. -/
def partCount (data : List UInt8) : ℕ := (data.length+(partBytes-1))/partBytes

theorem partCount_bounds {data : List UInt8} (hpos : 0 < data.length)
    (hmax : data.length ≤ maxBytes) :
    0 < partCount data ∧ partCount data ≤ maxBytes/partBytes ∧
      (partCount data-1)*partBytes < data.length ∧ data.length ≤ partCount data*partBytes := by
  unfold partCount partBytes maxBytes at *
  omega

theorem partRows_eq {data : List UInt8} (hpos : 0 < data.length) (hmax : data.length ≤ maxBytes) :
    partRows data = (List.range (partCount data)).map (partRow data) := by
  obtain ⟨hone,hcount,hlow,hhigh⟩ := partCount_bounds hpos hmax
  rw [partRows]
  have hsplit : maxBytes/partBytes = partCount data+(maxBytes/partBytes-partCount data) := by omega
  rw [hsplit,List.range_add,List.filter_append]
  have hfront : (List.range (partCount data)).filter
      (fun index => decide (index = 0 ∨ index*partBytes < data.length)) =
        List.range (partCount data) := by
    apply List.filter_eq_self.mpr
    intro index hindex
    have hlt := List.mem_range.mp hindex
    have hle : index*partBytes ≤ (partCount data-1)*partBytes :=
      Nat.mul_le_mul_right _ (by omega)
    exact decide_eq_true (Or.inr (by omega))
  have hback : ((List.range (maxBytes/partBytes-partCount data)).map (partCount data+·)).filter
      (fun index => decide (index = 0 ∨ index*partBytes < data.length)) = [] := by
    apply List.filter_eq_nil_iff.mpr
    intro index hindex
    obtain ⟨k,-,rfl⟩ := List.mem_map.mp hindex
    have hle : partCount data*partBytes ≤ (partCount data+k)*partBytes :=
      Nat.mul_le_mul_right _ (by omega)
    rw [decide_eq_true_iff]
    omega
  rw [hfront,hback,List.append_nil]

theorem parts_read {data : List UInt8} (hmax : data.length ≤ maxBytes) {count : ℕ}
    (h : count ≤ partCount data) (hpos : 0 < data.length) :
    ((List.range count).map (partRow data)).foldlM readRow startReading =
      .ok ⟨data.take (count*partBytes),if count = 0 then none else some (data.length : ℤ),
        count⟩ := by
  obtain ⟨-,hplaces,hlow,-⟩ := partCount_bounds hpos hmax
  induction count with
  | zero => simp [startReading]; rfl
  | succ count ih =>
    have hbegun : count*partBytes ≤ (partCount data-1)*partBytes :=
      Nat.mul_le_mul_right _ (by omega)
    rw [List.range_succ,List.map_append,List.foldlM_append,ih (by omega),List.map_singleton,
      partRow_eq hmax]
    have hmissing : (data.take (count*partBytes)).length = count*partBytes := by
      rw [List.length_take]
      omega
    have haccepted : Accepted ⟨data.take (count*partBytes),
        if count = 0 then none else some (data.length : ℤ),
          count⟩ data.length (slice data count) := by
      constructor
      · exact Nat.lt_of_lt_of_le h hplaces
      · exact hpos
      · exact hmax
      · dsimp only
        omega
      · dsimp only
        split
        · exact Or.inl rfl
        · exact Or.inr rfl
      · rw [slice_length,hmissing]
    have hrow := readRow_ok.mpr ⟨_,_,rfl,haccepted,rfl⟩
    have hdata : data.take (count*partBytes)++slice data count =
      data.take ((count+1)*partBytes) := by
      rw [slice,Nat.succ_mul,List.take_add]
    simp only [List.foldlM_cons,List.foldlM_nil,bind,Except.bind]
    rw [hrow]
    simp only [hdata]
    rfl

theorem document_read {data : List UInt8} (hpos : 0 < data.length) (hmax : data.length ≤ maxBytes) :
    (partRows data).foldlM readRow startReading =
      .ok ⟨data,some (data.length : ℤ),partCount data⟩ := by
  obtain ⟨hone,-,-,hhigh⟩ := partCount_bounds hpos hmax
  rw [partRows_eq hpos hmax,parts_read hmax le_rfl hpos,List.take_of_length_le hhigh,
    if_neg (Nat.pos_iff_ne_zero.mp hone)]

theorem collected_parts {total : ℕ} {s : Reading} (hne : rows ≠ []) (h : Collected rows total s)
    (hfull : s.data.length = total) : rows = partRows s.data := by
  have hlength := h.length
  have hbegun := h.begun
  have hpos := h.positive
  have hmax : s.data.length ≤ maxBytes := hfull ▸ h.bounded
  have hcount : partCount s.data = rows.length := by
    have hrows := List.length_pos_of_ne_nil hne
    unfold partCount partBytes at *
    omega
  rw [partRows_eq (by omega) hmax,hcount]
  conv_lhs => rw [h.inOrder]
  apply List.map_congr_left
  intro index _
  rw [partRow_eq hmax,hfull]

/-- An object of a JSON column with a text the server may print for it. -/
structure StoredObject where
  fields : List (Value × Value)
  text : List Char
  spelled : Spells (.dict fields) text
  depth : nesting (.dict fields) ≤ storedDepth

def StoredObject.data (d : StoredObject) : List UInt8 := encode d.text

theorem StoredObject.data_pos (d : StoredObject) : 0 < d.data.length := by
  have hlength := encode_length d.text
  obtain ⟨c,tail,htext,-⟩ := spells_head d.spelled
  rw [htext,List.length_cons] at hlength
  rw [StoredObject.data,htext]
  omega

variable {sha256} {python}

theorem decodeDocument_stored (d : StoredObject) :
    decodeDocument python d.data = some (.dict d.fields) := by
  rw [decodeDocument,StoredObject.data,decode_encode,Option.bind_some]
  exact loads_spells d.spelled (d.depth.trans python.enough)

/-- What a reading that returns an object has seen. -/
structure Returned (sha256 : List UInt8 → Digest) (python : Interpreter)
    (expectedSha256 : Option String) (rows : List PartRow) (value : Value) : Prop where
  document : ∃ data, 0 < data.length ∧ data.length ≤ maxBytes ∧ rows = partRows data ∧
    (∀ digest, expectedSha256 = some digest → digest = hex (sha256 data)) ∧
    decodeDocument python data = some value
  object : ∃ fields, value = .dict fields

theorem readJsonDocument_some {expectedSha256 : Option String} {value : Value}
    (h : readJsonDocument sha256 python expectedSha256 rows = .ok (some value)) :
    Returned sha256 python expectedSha256 rows value := by
  simp only [readJsonDocument,bind_ok,require_ok] at h
  obtain ⟨_,-,s,hrows,h⟩ := h
  rcases rows_collected hrows with ⟨-,rfl⟩ | ⟨hne,total,hcollected⟩
  · cases h
  · rw [hcollected.expected] at h
    simp only [bind_ok,require_ok] at h
    obtain ⟨_,hfull,_,hdigest,h⟩ := h
    have hfull : s.data.length = total := Int.ofNat.inj hfull
    have hpos := hcollected.positive
    split at h
    · next fields hdecode =>
      have hvalue : Value.dict fields = value := Option.some_inj.mp (ok_inj.mp h)
      rw [hvalue] at hdecode
      refine ⟨⟨s.data,by omega,hfull ▸ hcollected.bounded,collected_parts hne hcollected hfull,?_,
        hdecode⟩,fields,hvalue.symm⟩
      rintro digest rfl
      exact beq_iff_eq.mp hdigest
    · cases h

theorem readJsonDocument_none {expectedSha256 : Option String}
    (h : readJsonDocument sha256 python expectedSha256 rows = .ok none) : rows = [] := by
  simp only [readJsonDocument,bind_ok,require_ok] at h
  obtain ⟨_,-,s,hrows,h⟩ := h
  rcases rows_collected hrows with ⟨hnil,-⟩ | ⟨hne,total,hcollected⟩
  · exact hnil
  · rw [hcollected.expected] at h
    simp only [bind_ok,require_ok] at h
    obtain ⟨_,-,_,-,h⟩ := h
    split at h
    · cases h
    · cases h

/-- The parts of a stored object give it back, and nothing but the parts of one
byte string in their order gives an object. -/
theorem documents_reassembled (sha256 : List UInt8 → Digest) (python : Interpreter) :
    (∀ d : StoredObject, d.data.length ≤ maxBytes →
      ∀ expectedSha256, expectedSha256 = none ∨ expectedSha256 = some (hex (sha256 d.data)) →
        readJsonDocument sha256 python expectedSha256 (partsStatement [some d.data]) =
          .ok (some (.dict d.fields))) ∧
      ∀ (rows : List PartRow) (expectedSha256 : Option String),
        (∀ value, readJsonDocument sha256 python expectedSha256 rows = .ok (some value) →
          Returned sha256 python expectedSha256 rows value) ∧
        (readJsonDocument sha256 python expectedSha256 rows = .ok none → rows = []) := by
  refine ⟨?_,fun rows expectedSha256 =>
    ⟨fun value => readJsonDocument_some,readJsonDocument_none⟩⟩
  intro d hmax expectedSha256 hexpected
  have hformat : expectedSha256.all (fun digest => isHex 64 digest.toList) = true := by
    rcases hexpected with rfl | rfl
    · rfl
    · rw [Option.all_some]
      exact hex_isHex (sha256 d.data)
  have hdigest : expectedSha256.all (fun digest => digest == hex (sha256 d.data)) = true := by
    rcases hexpected with rfl | rfl
    · rfl
    · rw [Option.all_some]
      exact beq_self_eq_true _
  have hread := document_read d.data_pos hmax
  rw [partsStatement,readJsonDocument]
  refine bind_ok.mpr ⟨(),require_ok.mpr hformat,bind_ok.mpr ⟨_,hread,?_⟩⟩
  refine bind_ok.mpr ⟨(),require_ok.mpr rfl,bind_ok.mpr ⟨(),require_ok.mpr hdigest,?_⟩⟩
  rw [decodeDocument_stored d]
  rfl

/-- `{"a": 1}` as MySQL prints it. -/
def smallObject : StoredObject where
  fields := [(.str (plainText ['a']),.int 1)]
  text := "\x7b\"a\": 1\x7d".toList
  spelled := by
    have hname : StringText ['a'] ['a','"'] :=
      .char (.raw (by decide) (by decide) (by decide)) .close
    rw [Spells]
    refine ⟨[],"\"a\": 1\x7d".toList,by simp [Blanks],by simp,?_,rfl⟩
    rw [SpellsFields]
    refine ⟨['a'],['a','"'],[],[' '],['1'],[],['\x7d'],rfl,hname,by simp [Blanks],
      by simp [Blanks,isBlank],
      ?_,by simp [Blanks],rfl,Or.inl ⟨rfl,rfl⟩⟩
    rw [Spells]
    exact ⟨⟨by decide,by decide⟩,by decide⟩
  depth := by decide

theorem small_reassembled : readJsonDocument (fun _ => 0) ⟨100,le_rfl⟩ none
    (partsStatement [some smallObject.data]) = .ok (some (.dict smallObject.fields)) :=
  (documents_reassembled (fun _ => 0) ⟨100,le_rfl⟩).1 smallObject (by decide) none (Or.inl rfl)

end LawyerAgent.JsonDocuments
