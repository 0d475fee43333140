import LawyerAgent.Codes.Delimited
import LawyerAgent.JsonReader

/-!
# Ids of blocks

The ids that the parser formats for blocks and anchors, and the places they name.
-/

set_option autoImplicit false

namespace LawyerAgent.PdfIds
open JsonText (decimal decimal_toDigits)
open JsonReader (intText intText_nat digits_isDigit)

def padded (width n : ℕ) : List Char :=
  List.replicate (width-(Nat.toDigits 10 n).length) '0'++Nat.toDigits 10 n

def pageId (page : ℕ) : List Char := 'p'::padded 3 page

def tableId (page table : ℕ) : List Char := pageId page++"-table".toList++padded 3 table

def cellId (page table row column : ℕ) : List Char :=
  tableId page table++"-r".toList++padded 3 row++"-c".toList++padded 3 column

def lineId (page line : ℕ) : List Char := pageId page++"-line".toList++padded 4 line

def regionPart : Option ℕ → List Char
  | none => []
  | some region => "-region".toList++padded 3 region

def ocrId (page : ℕ) (region : Option ℕ) (index : ℕ) : List Char :=
  pageId page++regionPart region++"-ocr".toList++padded 4 index

def cornerPart : Option (ℤ × ℤ) → List Char
  | none => []
  | some corner => '-'::intText corner.1++ '-'::intText corner.2

def imageId (page : ℕ) (corner : Option (ℤ × ℤ)) : List Char :=
  pageId page++"-image-unrecognized".toList++cornerPart corner

/-- Lines of a block have numbered anchors, other blocks have one. -/
def anchorPart : Option ℕ → List Char
  | none => "-anchor".toList
  | some line => "-anchor".toList++padded 3 line

inductive Place where
  | cell (page table row column : ℕ)
  | line (page line : ℕ)
  | ocr (page : ℕ) (region : Option ℕ) (index : ℕ)
  | image (page : ℕ) (corner : Option (ℕ × ℕ))
deriving DecidableEq

def Place.page : Place → ℕ
  | .cell page _ _ _ => page
  | .line page _ => page
  | .ocr page _ _ => page
  | .image page _ => page

def Place.isImage : Place → Bool
  | .image _ _ => true
  | _ => false

def Place.isNative : Place → Bool
  | .cell _ _ _ _ => true
  | .line _ _ => true
  | _ => false

def Place.id : Place → List Char
  | .cell page table row column => cellId page table row column
  | .line page number => lineId page number
  | .ocr page region index => ocrId page region index
  | .image page none => imageId page none
  | .image page (some corner) => imageId page (some (corner.1,corner.2))

def Place.fields : Place → List (List Char)
  | .cell page table row column => [pageId page,"table".toList++padded 3 table,
      'r'::padded 3 row,'c'::padded 3 column]
  | .line page number => [pageId page,"line".toList++padded 4 number]
  | .ocr page none index => [pageId page,"ocr".toList++padded 4 index]
  | .ocr page (some region) index => [pageId page,"region".toList++padded 3 region,
      "ocr".toList++padded 4 index]
  | .image page none => [pageId page,"image".toList,"unrecognized".toList]
  | .image page (some corner) => [pageId page,"image".toList,"unrecognized".toList,
      Nat.toDigits 10 corner.1,Nat.toDigits 10 corner.2]

def anchorField : Option ℕ → List Char
  | none => "anchor".toList
  | some line => "anchor".toList++padded 3 line

def readFields : List (List Char) → Option Place
  | [page,rest] =>
    if rest.head? = some 'l' then some (.line (decimal page.tail) (decimal (rest.drop 4)))
    else some (.ocr (decimal page.tail) none (decimal (rest.drop 3)))
  | [page,region,rest] =>
    if region.head? = some 'r' then
      some (.ocr (decimal page.tail) (some (decimal (region.drop 6))) (decimal (rest.drop 3)))
    else some (.image (decimal page.tail) none)
  | [page,table,row,column] =>
    some (.cell (decimal page.tail) (decimal (table.drop 5)) (decimal row.tail)
      (decimal column.tail))
  | [page,_,_,x0,top] => some (.image (decimal page.tail) (some (decimal x0,decimal top)))
  | _ => none

theorem decimal_zeros (count : ℕ) (digits : List Char) :
    decimal (List.replicate count '0'++digits) = decimal digits := by
  rw [decimal,List.foldl_append]
  congr 1
  induction count with
  | zero => rfl
  | succ count ih =>
    rw [List.replicate_succ,List.foldl_cons]
    exact ih

theorem decimal_padded (width n : ℕ) : decimal (padded width n) = n := by
  rw [padded,decimal_zeros,decimal_toDigits]

theorem padded_no_dash (width n : ℕ) : '-' ∉ padded width n := by
  intro h
  rcases List.mem_append.mp h with h | h
  · exact absurd (List.eq_of_mem_replicate h) (by decide)
  · exact absurd (digits_isDigit h) (by decide)

theorem digits_no_dash (n : ℕ) : '-' ∉ Nat.toDigits 10 n := fun h =>
  absurd (digits_isDigit h) (by decide)

theorem readFields_fields (place : Place) : readFields place.fields = some place := by
  cases place with
  | cell page table row column =>
    have htable : ("table".toList++padded 3 table).drop 5 = padded 3 table := rfl
    simp only [Place.fields,readFields,htable,pageId,List.tail_cons,decimal_padded]
  | line page line =>
    have hhead : ("line".toList++padded 4 line).head? = some 'l' := rfl
    have hline : ("line".toList++padded 4 line).drop 4 = padded 4 line := rfl
    simp only [Place.fields,readFields,hhead,hline,pageId,List.tail_cons,decimal_padded,if_true]
  | ocr page region index =>
    have hindex : ("ocr".toList++padded 4 index).drop 3 = padded 4 index := rfl
    cases region with
    | none =>
      have hhead : ("ocr".toList++padded 4 index).head? ≠ some 'l' := by
        intro h
        exact absurd (Option.some.inj h) (by decide)
      simp only [Place.fields,readFields,if_neg hhead,hindex,pageId,List.tail_cons,decimal_padded]
    | some region =>
      have hhead : ("region".toList++padded 3 region).head? = some 'r' := rfl
      have hregion : ("region".toList++padded 3 region).drop 6 = padded 3 region := rfl
      simp only [Place.fields,readFields,hhead,hregion,hindex,pageId,List.tail_cons,decimal_padded,
        if_true]
  | image page corner =>
    cases corner with
    | none =>
      have hhead : "image".toList.head? ≠ some 'r' := by decide
      simp only [Place.fields,readFields,if_neg hhead,pageId,List.tail_cons,decimal_padded]
    | some corner =>
      simp only [Place.fields,readFields,pageId,List.tail_cons,decimal_padded,decimal_toDigits]

theorem fields_inj {place other : Place} (h : place.fields = other.fields) : place = other := by
  have hread := readFields_fields place
  rw [h,readFields_fields] at hread
  exact (Option.some.inj hread).symm

theorem fields_ne_nil (place : Place) : place.fields ≠ [] := by
  cases place with
  | cell => simp [Place.fields]
  | line => simp [Place.fields]
  | ocr page region index => cases region <;> simp [Place.fields]
  | image page corner => cases corner <;> simp [Place.fields]

theorem pageId_no_dash (page : ℕ) : '-' ∉ pageId page := by
  rw [pageId,List.mem_cons,not_or]
  exact ⟨by decide,padded_no_dash 3 page⟩

theorem labelled_no_dash {label digits : List Char} (hlabel : '-' ∉ label) (h : '-' ∉ digits) :
    '-' ∉ label++digits := by
  rw [List.mem_append,not_or]
  exact ⟨hlabel,h⟩

theorem fields_no_dash (place : Place) : ∀ field ∈ place.fields, '-' ∉ field := by
  cases place with
  | cell page table row column =>
    have hrow : '-' ∉ ['r'] := by decide
    have hcolumn : '-' ∉ ['c'] := by decide
    simp only [Place.fields,List.forall_mem_cons]
    exact ⟨pageId_no_dash page,labelled_no_dash (by decide) (padded_no_dash 3 table),
      labelled_no_dash hrow (padded_no_dash 3 row),
      labelled_no_dash hcolumn (padded_no_dash 3 column),by simp⟩
  | line page line =>
    simp only [Place.fields,List.forall_mem_cons]
    exact ⟨pageId_no_dash page,labelled_no_dash (by decide) (padded_no_dash 4 line),by simp⟩
  | ocr page region index =>
    cases region with
    | none =>
      simp only [Place.fields,List.forall_mem_cons]
      exact ⟨pageId_no_dash page,labelled_no_dash (by decide) (padded_no_dash 4 index),by simp⟩
    | some region =>
      simp only [Place.fields,List.forall_mem_cons]
      exact ⟨pageId_no_dash page,labelled_no_dash (by decide) (padded_no_dash 3 region),
        labelled_no_dash (by decide) (padded_no_dash 4 index),by simp⟩
  | image page corner =>
    cases corner with
    | none =>
      simp only [Place.fields,List.forall_mem_cons]
      exact ⟨pageId_no_dash page,by decide,by decide,by simp⟩
    | some corner =>
      simp only [Place.fields,List.forall_mem_cons]
      exact ⟨pageId_no_dash page,by decide,by decide,digits_no_dash _,digits_no_dash _,by simp⟩

theorem joined_cons (field next : List Char) (fields : List (List Char)) :
    ['-'].intercalate (field::next::fields) = field++ '-'::['-'].intercalate (next::fields) := by
  rw [List.intercalate_cons_cons,List.append_assoc,List.singleton_append]

theorem id_fields (place : Place) : place.id = ['-'].intercalate place.fields := by
  cases place with
  | cell page table row column =>
    simp only [Place.fields,joined_cons,List.intercalate_singleton]
    rw [Place.id,cellId,tableId,List.append_assoc,List.append_assoc,List.append_assoc,
      List.append_assoc,List.append_assoc]
    rfl
  | line page number =>
    simp only [Place.fields,joined_cons,List.intercalate_singleton]
    rw [Place.id,lineId,List.append_assoc]
    rfl
  | ocr page region index =>
    cases region with
    | none =>
      simp only [Place.fields,joined_cons,List.intercalate_singleton]
      change pageId page++[]++"-ocr".toList++padded 4 index = _
      rw [List.append_nil,List.append_assoc]
      rfl
    | some region =>
      simp only [Place.fields,joined_cons,List.intercalate_singleton]
      change pageId page++("-region".toList++padded 3 region)++"-ocr".toList++padded 4 index = _
      rw [List.append_assoc,List.append_assoc,List.append_assoc]
      rfl
  | image page corner =>
    cases corner with
    | none =>
      simp only [Place.fields,joined_cons,List.intercalate_singleton]
      rw [Place.id,imageId,cornerPart,List.append_nil]
      rfl
    | some corner =>
      simp only [Place.fields,joined_cons,List.intercalate_singleton]
      rw [Place.id,imageId,cornerPart,intText_nat,intText_nat,List.append_assoc]
      rfl

theorem id_inj {place other : Place} (h : place.id = other.id) : place = other := by
  rw [id_fields,id_fields] at h
  exact fields_inj (Codes.joined_inj (fields_no_dash place) (fields_no_dash other)
    (fields_ne_nil place) (fields_ne_nil other) h)

theorem joined_append (fields : List (List Char)) (hne : fields ≠ []) (last : List Char) :
    ['-'].intercalate (fields++[last]) = ['-'].intercalate fields++ '-'::last := by
  induction fields with
  | nil => exact absurd rfl hne
  | cons field fields ih =>
    cases fields with
    | nil =>
      rw [List.cons_append,List.nil_append,joined_cons,List.intercalate_singleton,
        List.intercalate_singleton]
    | cons next fields =>
      rw [List.cons_append,List.cons_append,joined_cons,joined_cons,List.append_assoc]
      rw [List.cons_append] at ih
      rw [ih (List.cons_ne_nil _ _)]
      rfl

theorem anchor_fields (place : Place) (line : Option ℕ) :
    place.id++anchorPart line = ['-'].intercalate (place.fields++[anchorField line]) := by
  rw [joined_append _ (fields_ne_nil place),← id_fields]
  cases line with
  | none => rfl
  | some line => rfl

theorem anchorField_no_dash (line : Option ℕ) : '-' ∉ anchorField line := by
  cases line with
  | none =>
    have hlabel : '-' ∉ "anchor".toList := by decide
    exact hlabel
  | some line => exact labelled_no_dash (by decide) (padded_no_dash 3 line)

theorem anchorField_inj {line other : Option ℕ} (h : anchorField line = anchorField other) :
    line = other := by
  have hne : ∀ n : ℕ, anchorField none ≠ anchorField (some n) := by
    intro n hn
    have hempty : padded 3 n = [] := (List.self_eq_append_right.mp hn)
    have hzero := congrArg List.length hempty
    rw [padded,List.length_append] at hzero
    have hdigits : Nat.toDigits 10 n ≠ [] := Nat.toDigits_ne_nil
    have hpositive := List.length_pos_of_ne_nil hdigits
    simp only [List.length_nil] at hzero
    omega
  cases line with
  | none =>
    cases other with
    | none => rfl
    | some n => exact absurd h (hne n)
  | some line =>
    cases other with
    | none => exact absurd h.symm (hne line)
    | some n =>
      have hdigits : padded 3 line = padded 3 n := List.append_cancel_left h
      rw [← decimal_padded 3 line,hdigits,decimal_padded]

theorem anchor_inj {place other : Place} {line next : Option ℕ}
    (h : place.id++anchorPart line = other.id++anchorPart next) : place = other ∧ line = next := by
  rw [anchor_fields,anchor_fields] at h
  have hclean : ∀ (p : Place) (l : Option ℕ), ∀ field ∈ p.fields++[anchorField l], '-' ∉ field := by
    intro p l field hfield
    rcases List.mem_append.mp hfield with hfield | hfield
    · exact fields_no_dash p field hfield
    · rw [List.mem_singleton.mp hfield]
      exact anchorField_no_dash l
  have hfields := Codes.joined_inj (hclean place line) (hclean other next)
    (List.append_ne_nil_of_right_ne_nil _ (List.cons_ne_nil _ _))
    (List.append_ne_nil_of_right_ne_nil _ (List.cons_ne_nil _ _)) h
  obtain ⟨hplace,hline⟩ := List.append_inj' hfields rfl
  exact ⟨fields_inj hplace,anchorField_inj (List.singleton_inj.mp hline)⟩

end LawyerAgent.PdfIds
