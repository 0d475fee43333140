import LawyerAgent.CanonicalJson
import LawyerAgent.JsonText

/-!
# Reading compact JSON

`write` is the compact text with the keys in the order given; the canonical
text is the `write` of the document with sorted keys. The reader undoes
`write`, so a canonical text determines the document up to the order of keys.
-/

set_option autoImplicit false

namespace LawyerAgent.JsonReader
open Common CanonicalJson Envelope
open JsonText (decimal decimal_toDigits)
open Datetimes (digits_mem)

def numberChar (c : Char) : Bool := c.isDigit || decide (c ∈ ['-','+','.','e'])

def fractional (text : List Char) : Bool := text.any fun c => decide (c ∈ ['.','e'])

/-- The form of `float.__repr__` on finite values. -/
def floatText (text : String) : Bool := text.toList.all numberChar && fractional text.toList

def readInt (text : List Char) : ℤ :=
  match text with
  | '-'::digits => -(decimal digits : ℤ)
  | digits => (decimal digits : ℤ)

def intText (n : ℤ) : List Char := (toString n).toList

theorem intText_nat (n : ℕ) : intText n = Nat.toDigits 10 n := by
  change (Nat.repr n).toList = _
  rw [Nat.repr,String.toList_ofList]

theorem intText_negSucc (n : ℕ) : intText (Int.negSucc n) = '-'::Nat.toDigits 10 (n+1) := by
  change ("-"++Nat.repr (n+1)).toList = _
  rw [Nat.repr,String.toList_append,String.toList_ofList,String.toList_ofList]
  rfl

theorem digits_isDigit {n : ℕ} {c : Char} (h : c ∈ Nat.toDigits 10 n) : c.isDigit = true :=
  Nat.isDigit_of_mem_toDigits (by decide) (by decide) h

theorem intText_chars (n : ℤ) : ∀ c ∈ intText n, c.isDigit = true ∨ c = '-' := by
  intro c hc
  cases n with
  | ofNat m =>
    rw [Int.ofNat_eq_natCast,intText_nat] at hc
    exact Or.inl (digits_isDigit hc)
  | negSucc m =>
    rw [intText_negSucc] at hc
    rcases List.mem_cons.mp hc with rfl | hc
    · exact Or.inr rfl
    · exact Or.inl (digits_isDigit hc)

theorem readInt_text (n : ℤ) : readInt (intText n) = n := by
  cases n with
  | ofNat m =>
    rw [Int.ofNat_eq_natCast,intText_nat]
    unfold readInt
    split
    · rename_i digits hd
      have hminus := digits_isDigit (c := '-') (n := m) (by rw [hd]; exact List.mem_cons_self)
      exact absurd hminus (by decide)
    · rw [decimal_toDigits]
  | negSucc m =>
    rw [intText_negSucc]
    simp only [readInt,decimal_toDigits]
    omega

def readChars : List Char → Option (List Char × List Char)
  | [] => none
  | '"'::rest => some ([],rest)
  | '\\':: '"'::rest => (readChars rest).map fun p => ('"'::p.1,p.2)
  | '\\':: '\\'::rest => (readChars rest).map fun p => ('\\'::p.1,p.2)
  | '\\':: 'n'::rest => (readChars rest).map fun p => ('\n'::p.1,p.2)
  | '\\':: 'r'::rest => (readChars rest).map fun p => ('\r'::p.1,p.2)
  | '\\':: 't'::rest => (readChars rest).map fun p => ('\t'::p.1,p.2)
  | '\\':: 'b'::rest => (readChars rest).map fun p => (Char.ofNat 8::p.1,p.2)
  | '\\':: 'f'::rest => (readChars rest).map fun p => (Char.ofNat 12::p.1,p.2)
  | '\\':: 'u'::a::b::c::d::rest =>
    (readChars rest).map fun p => (Char.ofNat (hexValue [a,b,c,d])::p.1,p.2)
  | '\\'::_ => none
  | c::rest => (readChars rest).map fun p => (c::p.1,p.2)

theorem control_digits : ∀ n < 32, hexValue (digits 16 4 n) = n := by decide

theorem digits_four (n : ℕ) : ∃ a b c d, digits 16 4 n = [a,b,c,d] :=
  ⟨_,_,_,_,rfl⟩

theorem readChars_escape (c : Char) (rest : List Char) :
    readChars (escapeChar c++rest) = (readChars rest).map fun p => (c::p.1,p.2) := by
  unfold escapeChar
  split
  · subst_vars
    rfl
  split
  · subst_vars
    rfl
  split
  · subst_vars
    rfl
  split
  · subst_vars
    rfl
  split
  · subst_vars
    rfl
  split
  · rename_i h
    have hc : Char.ofNat 8 = c := by rw [← h,Char.ofNat_toNat]
    change (readChars rest).map (fun p => (Char.ofNat 8::p.1,p.2)) = _
    rw [hc]
  split
  · rename_i h
    have hc : Char.ofNat 12 = c := by rw [← h,Char.ofNat_toNat]
    change (readChars rest).map (fun p => (Char.ofNat 12::p.1,p.2)) = _
    rw [hc]
  split
  · rename_i h
    obtain ⟨a,b,d,e,hdigits⟩ := digits_four c.toNat
    have hvalue := control_digits c.toNat h
    rw [hdigits] at hvalue ⊢
    change (readChars rest).map (fun p => (Char.ofNat (hexValue [a,b,d,e])::p.1,p.2)) = _
    rw [hvalue,Char.ofNat_toNat]
  · rename_i _ hslash _ _ _ _ _ _
    simp [readChars,hslash]

theorem readChars_dump (s rest : List Char) :
    readChars (s.flatMap escapeChar++ '"'::rest) = some (s,rest) := by
  induction s with
  | nil => rfl
  | cons c s ih =>
    rw [List.flatMap_cons,List.append_assoc,readChars_escape,ih]
    rfl

mutual

/-- `json.dumps` with compact separators, keys in the order of the document. -/
def write : Json → List Char
  | .null => "null".toList
  | .bool true => "true".toList
  | .bool false => "false".toList
  | .number n => intText n
  | .float text => text.toList
  | .string s => dumpString s
  | .array items => '['::separated (writeItems items)++[']']
  | .object fields => '\x7b'::separated ((writeFields fields).map dumpField)++['\x7d']

def writeItems : List Json → List (List Char)
  | [] => []
  | item::items => write item::writeItems items

def writeFields : List (String × Json) → List (String × List Char)
  | [] => []
  | (key,value)::fields => (key,write value)::writeFields fields

end

mutual

/-- Floats are kept as a finite `float.__repr__`; `allow_nan=False` raises on
the others. -/
def finite : Json → Bool
  | .float text => floatText text
  | .array items => finiteItems items
  | .object fields => finiteFields fields
  | _ => true

def finiteItems : List Json → Bool
  | [] => true
  | item::items => finite item && finiteItems items

def finiteFields : List (String × Json) → Bool
  | [] => true
  | (_,value)::fields => finite value && finiteFields fields

end

/-- `true`, `false`, `null` and numbers: everything up to the next delimiter. -/
def readScalar (text : List Char) : Option Json :=
  if text = "null".toList then some .null
  else if text = "true".toList then some (.bool true)
  else if text = "false".toList then some (.bool false)
  else if text.isEmpty || !text.all numberChar then none
  else if fractional text then some (.float (String.ofList text))
  else some (.number (readInt text))

def delimiter (c : Char) : Bool := decide (c ∈ [',',']','\x7d'])

mutual

def readValue : ℕ → List Char → Option (Json × List Char)
  | 0, _ => none
  | _+1, [] => none
  | fuel+1, c::text =>
    if c = '"' then (readChars text).map fun p => (.string (String.ofList p.1),p.2)
    else if c = '[' then
      if text.head? = some ']' then some (.array [],text.drop 1)
      else (readItems fuel text).map fun p => (.array p.1,p.2)
    else if c = '\x7b' then
      if text.head? = some '\x7d' then some (.object [],text.drop 1)
      else (readFields fuel text).map fun p => (.object p.1,p.2)
    else
      (readScalar ((c::text).takeWhile fun d => !delimiter d)).map fun value =>
        (value,(c::text).dropWhile fun d => !delimiter d)

def readItems : ℕ → List Char → Option (List Json × List Char)
  | 0, _ => none
  | fuel+1, text =>
    match readValue fuel text with
    | some (item,','::rest) => (readItems fuel rest).map fun p => (item::p.1,p.2)
    | some (item,']'::rest) => some ([item],rest)
    | _ => none

def readFields : ℕ → List Char → Option (List (String × Json) × List Char)
  | 0, _ => none
  | fuel+1, text =>
    match text with
    | '"'::text =>
      match readChars text with
      | some (key,':'::text) =>
        match readValue fuel text with
        | some (value,','::rest) =>
          (readFields fuel rest).map fun p => ((String.ofList key,value)::p.1,p.2)
        | some (value,'\x7d'::rest) => some ([(String.ofList key,value)],rest)
        | _ => none
      | _ => none
    | _ => none

end

/-- Every value, item and field of the document takes a step of the reader. -/
def steps (text : List Char) : ℕ := 2*text.length+2

def loads (text : List Char) : Option Json :=
  match readValue (steps text) text with
  | some (value,[]) => some value
  | _ => none

def Stops (rest : List Char) : Prop := ∀ c, rest.head? = some c → delimiter c = true

theorem stops_cons {c : Char} (h : delimiter c = true) (rest : List Char) :
    Stops (c::rest) := by
  intro d hd
  simp only [List.head?_cons,Option.some.injEq] at hd
  rwa [← hd]

theorem takeWhile_scalar {text rest : List Char} (h : ∀ c ∈ text, delimiter c = false)
    (hrest : Stops rest) : (text++rest).takeWhile (fun d => !delimiter d) = text ∧
      (text++rest).dropWhile (fun d => !delimiter d) = rest := by
  have hall : ∀ c ∈ text, (!delimiter c) = true := fun c hc => by simp [h c hc]
  rw [List.takeWhile_append_of_pos hall,List.dropWhile_append_of_pos hall]
  cases rest with
  | nil => simp
  | cons c rest =>
    have hc := hrest c rfl
    simp [hc]

theorem numberChar_plain {c : Char} (h : numberChar c = true) :
    delimiter c = false ∧ c ≠ '"' ∧ c ≠ '[' ∧ c ≠ '\x7b' := by
  refine ⟨?_,?_,?_,?_⟩
  · by_contra hd
    simp only [Bool.not_eq_false,delimiter,decide_eq_true_eq,List.mem_cons,
      List.not_mem_nil,or_false] at hd
    rcases hd with rfl | rfl | rfl <;> revert h <;> decide
  all_goals
    rintro rfl
    revert h
    decide

theorem readValue_scalar {text rest : List Char} {value : Json} {c : Char} {fuel : ℕ}
    (htext : text.head? = some c) (hquote : c ≠ '"') (hbracket : c ≠ '[')
    (hbrace : c ≠ '\x7b') (hplain : ∀ d ∈ text, delimiter d = false) (hrest : Stops rest)
    (hread : readScalar text = some value) :
    readValue (fuel+1) (text++rest) = some (value,rest) := by
  obtain ⟨tail,rfl⟩ := List.head?_eq_some_iff.mp htext
  obtain ⟨htake,hdrop⟩ := takeWhile_scalar hplain hrest
  simp only [List.cons_append] at htake hdrop ⊢
  simp only [readValue,if_neg hquote,if_neg hbracket,if_neg hbrace,htake,hdrop,hread,
    Option.map_some]

theorem numberText_ne {text : List Char} (h : ∀ c ∈ text, numberChar c = true)
    (hne : text ≠ []) : text ≠ "null".toList ∧ text ≠ "true".toList ∧
      text ≠ "false".toList := by
  refine ⟨?_,?_,?_⟩
  · rintro rfl
    exact absurd (h 'n' (by decide)) (by decide)
  · rintro rfl
    exact absurd (h 't' (by decide)) (by decide)
  · rintro rfl
    exact absurd (h 'f' (by decide)) (by decide)

theorem readScalar_int (n : ℤ) : readScalar (intText n) = some (.number n) := by
  have hchars := intText_chars n
  have hnumber : ∀ c ∈ intText n, numberChar c = true := by
    intro c hc
    rcases hchars c hc with h | rfl
    · simp [numberChar,h]
    · decide
  have hne : intText n ≠ [] := by
    cases n with
    | ofNat m =>
      rw [Int.ofNat_eq_natCast,intText_nat]
      exact Nat.toDigits_ne_nil
    | negSucc m =>
      rw [intText_negSucc]
      exact List.cons_ne_nil _ _
  have hwhole : fractional (intText n) = false := by
    rw [fractional,List.any_eq_false]
    intro c hc
    rcases hchars c hc with h | rfl
    · have hdot : c ≠ '.' ∧ c ≠ 'e' := by
        refine ⟨?_,?_⟩ <;> rintro rfl <;> revert h <;> decide
      simp [hdot.1,hdot.2]
    · decide
  obtain ⟨hnull,htrue,hfalse⟩ := numberText_ne hnumber hne
  have hempty : (intText n).isEmpty = false := by simpa using hne
  simp only [readScalar,if_neg hnull,if_neg htrue,if_neg hfalse,hempty,
    List.all_eq_true.mpr hnumber,hwhole,readInt_text]
  rfl

theorem floatText_spec {text : String} (h : floatText text = true) :
    (∀ c ∈ text.toList, numberChar c = true) ∧ fractional text.toList = true ∧
      text.toList ≠ [] := by
  simp only [floatText,Bool.and_eq_true,List.all_eq_true] at h
  refine ⟨h.1,h.2,?_⟩
  intro hnil
  rw [hnil] at h
  exact absurd h.2 (by decide)

theorem readScalar_float {text : String} (h : floatText text = true) :
    readScalar text.toList = some (.float text) := by
  obtain ⟨hnumber,hfraction,hne⟩ := floatText_spec h
  obtain ⟨hnull,htrue,hfalse⟩ := numberText_ne hnumber hne
  have hempty : text.toList.isEmpty = false := by simpa using hne
  simp only [readScalar,if_neg hnull,if_neg htrue,if_neg hfalse,hempty,
    List.all_eq_true.mpr hnumber,hfraction,String.ofList_toList]
  rfl

theorem separated_single (part : List Char) : separated [part] = part := by
  simp [separated]

theorem separated_cons (part next : List Char) (parts : List (List Char)) :
    separated (part::next::parts) = part++ ','::separated (next::parts) := by
  simp [separated]

theorem write_length (j : Json) (h : finite j = true) : 1 ≤ (write j).length := by
  cases j with
  | null => decide
  | bool b => cases b <;> decide
  | number n =>
    have hne : intText n ≠ [] := by
      intro hnil
      have hread := readScalar_int n
      rw [hnil] at hread
      exact absurd hread (by simp [readScalar])
    exact List.length_pos_of_ne_nil hne
  | float text => exact List.length_pos_of_ne_nil (floatText_spec h).2.2
  | string s => simp [write,dumpString]
  | array items => simp [write]
  | object fields => simp [write]

theorem separated_head {part : List Char} (h : part ≠ []) (parts : List (List Char))
    (rest : List Char) : (separated (part::parts)++rest).head? = part.head? := by
  obtain ⟨c,tail,rfl⟩ := List.exists_cons_of_ne_nil h
  cases parts with
  | nil => rw [separated_single]; rfl
  | cons next parts => rw [separated_cons]; rfl

theorem separated_inj {parts others : List (List Char)} {width : ℕ} (hwidth : 0 < width)
    (hparts : ∀ p ∈ parts, p.length = width) (hothers : ∀ p ∈ others, p.length = width)
    (h : separated parts = separated others) : parts = others := by
  have hempty : ∀ (p : List Char) (ps : List (List Char)), p.length = width →
      separated (p::ps) ≠ [] := by
    intro p ps hp hnil
    have hhead := separated_head (List.length_pos_iff.mp (hp ▸ hwidth)) ps []
    rw [List.append_nil,hnil] at hhead
    cases p with
    | nil => simp at hp; omega
    | cons c p => cases hhead
  induction parts generalizing others with
  | nil =>
    cases others with
    | nil => rfl
    | cons q others => exact absurd h.symm (hempty q others (hothers q List.mem_cons_self))
  | cons p parts ih =>
    have hp := hparts p List.mem_cons_self
    cases others with
    | nil => exact absurd h (hempty p parts hp)
    | cons q others =>
      have hq := hothers q List.mem_cons_self
      have hrest : ∀ r ∈ parts, r.length = width := fun r hr =>
        hparts r (List.mem_cons_of_mem _ hr)
      have hrest' : ∀ r ∈ others, r.length = width := fun r hr =>
        hothers r (List.mem_cons_of_mem _ hr)
      cases parts with
      | nil =>
        cases others with
        | nil => rw [← separated_single p,h,separated_single]
        | cons r others =>
          rw [separated_single,separated_cons] at h
          have hlength := congrArg List.length h
          rw [List.length_append,List.length_cons] at hlength
          omega
      | cons r parts =>
        cases others with
        | nil =>
          rw [separated_single,separated_cons] at h
          have hlength := congrArg List.length h
          rw [List.length_append,List.length_cons] at hlength
          omega
        | cons t others =>
          rw [separated_cons,separated_cons] at h
          obtain ⟨hfirst,htail⟩ := List.append_inj h (hp.trans hq.symm)
          rw [hfirst,ih hrest hrest' (List.cons.inj htail).2]

theorem write_head (j : Json) (hj : finite j = true) (parts : List (List Char))
    (rest : List Char) : (separated (write j::parts)++rest).head? ≠ some ']' := by
  have hpos := write_length j hj
  rw [separated_head (List.ne_nil_of_length_pos hpos)]
  cases j with
  | null => decide
  | bool b => cases b <;> decide
  | number n =>
    intro hhead
    have hmem := List.mem_of_mem_head? hhead
    rcases intText_chars n _ hmem with h | h
    · exact absurd h (by decide)
    · exact absurd h (by decide)
  | float text =>
    intro hhead
    have hmem := List.mem_of_mem_head? hhead
    exact absurd ((floatText_spec hj).1 _ hmem) (by decide)
  | string s => simp [write,dumpString]
  | array items => simp [write]
  | object fields => simp [write]

mutual

theorem readValue_write (j : Json) (hj : finite j = true) {rest : List Char}
    (hrest : Stops rest) {k : ℕ} (hfuel : 2*(write j).length ≤ k) :
    readValue k (write j++rest) = some (j,rest) := by
  have hpos := write_length j hj
  cases k with
  | zero => omega
  | succ fuel =>
    match j with
    | .null =>
      exact readValue_scalar (c := 'n') rfl (by decide) (by decide) (by decide)
        (each_of_all (by decide)) hrest rfl
    | .bool true =>
      exact readValue_scalar (c := 't') rfl (by decide) (by decide) (by decide)
        (each_of_all (by decide)) hrest rfl
    | .bool false =>
      exact readValue_scalar (c := 'f') rfl (by decide) (by decide) (by decide)
        (each_of_all (by decide)) hrest rfl
    | .number n =>
      have hchars : ∀ c ∈ intText n, numberChar c = true := by
        intro c hc
        rcases intText_chars n c hc with h | rfl
        · simp [numberChar,h]
        · decide
      obtain ⟨c,tail,htext⟩ := List.exists_cons_of_length_pos hpos
      have hc := numberChar_plain (hchars c (by
        change c ∈ write (.number n)
        rw [htext]
        exact List.mem_cons_self))
      exact readValue_scalar (by rw [htext]; rfl) hc.2.1 hc.2.2.1 hc.2.2.2
        (fun d hd => (numberChar_plain (hchars d hd)).1) hrest (readScalar_int n)
    | .float text =>
      obtain ⟨hchars,-,-⟩ := floatText_spec hj
      obtain ⟨c,tail,htext⟩ := List.exists_cons_of_length_pos hpos
      have hc := numberChar_plain (hchars c (by
        change c ∈ write (.float text)
        rw [htext]
        exact List.mem_cons_self))
      exact readValue_scalar (by rw [htext]; rfl) hc.2.1 hc.2.2.1 hc.2.2.2
        (fun d hd => (numberChar_plain (hchars d hd)).1) hrest (readScalar_float hj)
    | .string s =>
      simp only [write,dumpString,List.cons_append,List.append_assoc,List.nil_append,readValue,
        if_true,readChars_dump,Option.map_some,String.ofList_toList]
    | .array items =>
      cases hitems : items with
      | nil => rfl
      | cons item tail =>
        rw [hitems] at hj hfuel
        have hread := readItems_write items (by rw [hitems]; exact List.cons_ne_nil _ _)
          (by rw [hitems]; exact hj) rest (k := fuel) (by
            rw [hitems]
            simp only [write,List.length_cons,List.length_append] at hfuel
            omega)
        rw [hitems] at hread
        have hhead : (separated (writeItems (item::tail))++ ']'::rest).head? ≠ some ']' := by
          simp only [finite,finiteItems,Bool.and_eq_true] at hj
          exact write_head item hj.1 (writeItems tail) _
        simp only [write,List.cons_append,List.append_assoc,List.nil_append,readValue]
        rw [if_neg (by decide),if_pos trivial,if_neg hhead,hread]
        rfl
    | .object fields =>
      cases hfields : fields with
      | nil => rfl
      | cons field tail =>
        rw [hfields] at hj hfuel
        have hread := readFields_write fields (by rw [hfields]; exact List.cons_ne_nil _ _)
          (by rw [hfields]; exact hj) rest (k := fuel) (by
            rw [hfields]
            simp only [write,List.length_cons,List.length_append] at hfuel
            omega)
        rw [hfields] at hread
        have hhead : (separated ((writeFields (field::tail)).map dumpField)++
            '\x7d'::rest).head? ≠ some '\x7d' := by
          obtain ⟨key,value⟩ := field
          rw [writeFields,List.map_cons,separated_head]
          · simp [dumpField,dumpString]
          · simp [dumpField,dumpString]
        simp only [write,List.cons_append,List.append_assoc,List.nil_append,readValue]
        rw [if_neg (by decide),if_neg (by decide),if_pos trivial,if_neg hhead,hread]
        rfl

theorem readItems_write (items : List Json) (hne : items ≠ [])
    (hj : finiteItems items = true) (rest : List Char) {k : ℕ}
    (hfuel : 2*(separated (writeItems items)).length+1 ≤ k) :
    readItems k (separated (writeItems items)++ ']'::rest) = some (items,rest) := by
  cases k with
  | zero => omega
  | succ fuel =>
    match items with
    | [] => exact absurd rfl hne
    | [item] =>
      simp only [finiteItems,Bool.and_eq_true] at hj
      simp only [writeItems,separated_single] at hfuel ⊢
      have hread := readValue_write item hj.1 (stops_cons (c := ']') (by decide) rest)
        (k := fuel) (by omega)
      simp only [readItems,hread]
    | item::next::items =>
      rw [finiteItems,Bool.and_eq_true] at hj
      simp only [writeItems,separated_cons,List.length_append,List.length_cons] at hfuel
      have hlength := write_length item hj.1
      have hread := readValue_write item hj.1 (stops_cons (c := ',') (by decide)
        (separated (writeItems (next::items))++ ']'::rest)) (k := fuel) (by omega)
      have hnext := readItems_write (next::items) (List.cons_ne_nil _ _) hj.2 rest
        (k := fuel) (by simp only [writeItems]; omega)
      rw [writeItems,writeItems,separated_cons,List.append_assoc,List.cons_append]
      rw [writeItems] at hread hnext
      simp only [readItems,hread,hnext,Option.map_some]

theorem readFields_write (fields : List (String × Json)) (hne : fields ≠ [])
    (hj : finiteFields fields = true) (rest : List Char) {k : ℕ}
    (hfuel : 2*(separated ((writeFields fields).map dumpField)).length+1 ≤ k) :
    readFields k (separated ((writeFields fields).map dumpField)++ '\x7d'::rest) =
      some (fields,rest) := by
  cases k with
  | zero => omega
  | succ fuel =>
    match fields with
    | [] => exact absurd rfl hne
    | [(key,value)] =>
      simp only [finiteFields,Bool.and_eq_true] at hj
      simp only [writeFields,List.map_cons,List.map_nil,separated_single,dumpField,dumpString,
        List.length_append,List.length_cons] at hfuel
      have hread := readValue_write value hj.1 (stops_cons (c := '\x7d') (by decide) rest)
        (k := fuel) (by omega)
      simp only [writeFields,List.map_cons,List.map_nil,separated_single,dumpField,dumpString,
        List.cons_append,List.append_assoc,List.nil_append,readFields,readChars_dump,hread,
        String.ofList_toList]
    | (key,value)::(nextKey,nextValue)::fields =>
      rw [finiteFields,Bool.and_eq_true] at hj
      simp only [writeFields,List.map_cons,separated_cons,dumpField,dumpString,
        List.length_append,List.length_cons] at hfuel
      have hread := readValue_write value hj.1 (stops_cons (c := ',') (by decide)
        (separated ((writeFields ((nextKey,nextValue)::fields)).map dumpField)++ '\x7d'::rest))
        (k := fuel) (by omega)
      have hnext := readFields_write ((nextKey,nextValue)::fields) (List.cons_ne_nil _ _)
        hj.2 rest (k := fuel)
        (by simp only [writeFields,List.map_cons,dumpField,dumpString]; omega)
      simp only [writeFields,List.map_cons] at hread hnext
      simp only [writeFields,List.map_cons,separated_cons,dumpField,dumpString,
        List.cons_append,List.append_assoc,List.nil_append,readFields,
          readChars_dump] at hread hnext ⊢
      simp only [hread,hnext,String.ofList_toList,Option.map_some]

end

theorem loads_write (j : Json) (hj : finite j = true) : loads (write j) = some j := by
  have hread : readValue (steps (write j)) (write j++[]) = some (j,[]) :=
    readValue_write j hj (by simp [Stops]) (by simp only [steps]; omega)
  rw [List.append_nil] at hread
  rw [loads,hread]

theorem write_inj {j k : Json} (hj : finite j = true) (hk : finite k = true)
    (h : write j = write k) : j = k := by
  have hread := loads_write j hj
  rw [h,loads_write k hk] at hread
  exact (Option.some.inj hread).symm

def decode (bytes : List UInt8) : Option (List Char) :=
  bytes.toByteArray.utf8Decode?.map Array.toList

theorem decode_encode (text : List Char) : decode (encode text) = some text := by
  have hdecode : text.utf8Encode.utf8Decode? = some text.toArray := List.utf8Decode?_utf8Encode
  have hbytes : text.utf8Encode = (encode text).toByteArray := rfl
  rw [decode,← hbytes,hdecode]
  rfl

theorem encode_inj {s t : List Char} (h : encode s = encode t) : s = t := by
  have hdecode := decode_encode s
  rw [h,decode_encode t] at hdecode
  exact (Option.some.inj hdecode).symm

def sortFields (fields : List (String × Json)) : List (String × Json) :=
  fields.insertionSort fun a b => a.1 ≤ b.1

mutual

/-- The document with the keys of every object in order. -/
def sorted : Json → Json
  | .array items => .array (sortedItems items)
  | .object fields => .object (sortFields (sortedFields fields))
  | value => value

def sortedItems : List Json → List Json
  | [] => []
  | item::items => sorted item::sortedItems items

def sortedFields : List (String × Json) → List (String × Json)
  | [] => []
  | (key,value)::fields => (key,sorted value)::sortedFields fields

end

theorem writeFields_eq (fields : List (String × Json)) :
    writeFields fields = fields.map fun f => (f.1,write f.2) := by
  induction fields with
  | nil => rfl
  | cons f fields ih => simp [writeFields,ih]

theorem writeFields_sort (fields : List (String × Json)) :
    writeFields (sortFields fields) = sortKeys (writeFields fields) := by
  rw [writeFields_eq,writeFields_eq,sortFields,sortKeys]
  exact List.map_insertionSort _ _ _ _ fun a _ b _ => Iff.rfl

mutual

theorem dumps_sorted (j : Json) : dumps j = write (sorted j) := by
  match j with
  | .null => rfl
  | .bool true => rfl
  | .bool false => rfl
  | .number n => rfl
  | .float text => rfl
  | .string s => rfl
  | .array items => simp only [dumps,sorted,write,dumpItems_sorted items]
  | .object fields =>
    simp only [dumps,sorted,write,writeFields_sort,dumpFields_sorted fields]

theorem dumpItems_sorted (items : List Json) :
    dumpItems items = writeItems (sortedItems items) := by
  match items with
  | [] => rfl
  | item::items =>
    simp only [dumpItems,sortedItems,writeItems,dumps_sorted item,dumpItems_sorted items]

theorem dumpFields_sorted (fields : List (String × Json)) :
    dumpFields fields = writeFields (sortedFields fields) := by
  match fields with
  | [] => rfl
  | (key,value)::fields =>
    simp only [dumpFields,sortedFields,writeFields,dumps_sorted value,dumpFields_sorted fields]

end

theorem sortedFields_eq (fields : List (String × Json)) :
    sortedFields fields = fields.map fun f => (f.1,sorted f.2) := by
  induction fields with
  | nil => rfl
  | cons f fields ih => simp [sortedFields,ih]

theorem sortFields_ext {fields fields' : List (String × Json)}
    (h : (fields.map Prod.fst).Nodup) (h' : (fields'.map Prod.fst).Nodup)
    (hmem : ∀ f, f ∈ fields ↔ f ∈ fields') : sortFields fields = sortFields fields' := by
  have hperm : fields.Perm fields' :=
    (List.perm_ext_iff_of_nodup (List.Nodup.of_map _ h) (List.Nodup.of_map _ h')).mpr hmem
  have hsorted : ∀ l : List (String × Json),
      (sortFields l).Pairwise fun a b => a.1 ≤ b.1 := by
    intro l
    have : Std.Total fun a b : String × Json => a.1 ≤ b.1 := ⟨fun a b => String.le_total a.1 b.1⟩
    have : IsTrans (String × Json) fun a b => a.1 ≤ b.1 := ⟨fun a b c => String.le_trans⟩
    exact List.pairwise_insertionSort _ l
  apply List.Perm.eq_of_pairwise _ (hsorted fields) (hsorted fields')
  · exact (List.perm_insertionSort _ _).trans
      (hperm.trans (List.perm_insertionSort _ _).symm)
  · intro a b ha hb hab hba
    have ha : a ∈ fields := (List.mem_insertionSort _).mp ha
    have hb : b ∈ fields := (hmem b).mpr ((List.mem_insertionSort _).mp hb)
    exact List.inj_on_of_nodup_map h ha hb (String.le_antisymm hab hba)

theorem finiteFields_iff (fields : List (String × Json)) :
    finiteFields fields = true ↔ ∀ f ∈ fields, finite f.2 = true := by
  induction fields with
  | nil => simp [finiteFields]
  | cons f fields ih => simp [finiteFields,ih]

theorem finiteFields_sort {fields : List (String × Json)} (h : finiteFields fields = true) :
    finiteFields (sortFields fields) = true := by
  rw [finiteFields_iff] at h ⊢
  exact fun f hf => h f ((List.mem_insertionSort _).mp hf)

mutual

theorem finite_sorted (j : Json) (hj : finite j = true) : finite (sorted j) = true := by
  match j with
  | .null => rfl
  | .bool b => rfl
  | .number n => rfl
  | .float text => exact hj
  | .string s => rfl
  | .array items => exact finiteItems_sorted items hj
  | .object fields => exact finiteFields_sort (finiteFields_sorted fields hj)

theorem finiteItems_sorted (items : List Json) (hj : finiteItems items = true) :
    finiteItems (sortedItems items) = true := by
  match items with
  | [] => rfl
  | item::items =>
    rw [finiteItems,Bool.and_eq_true] at hj
    rw [sortedItems,finiteItems,finite_sorted item hj.1,finiteItems_sorted items hj.2]
    rfl

theorem finiteFields_sorted (fields : List (String × Json)) (hj : finiteFields fields = true) :
    finiteFields (sortedFields fields) = true := by
  match fields with
  | [] => rfl
  | (key,value)::fields =>
    rw [finiteFields,Bool.and_eq_true] at hj
    rw [sortedFields,finiteFields,finite_sorted value hj.1,finiteFields_sorted fields hj.2]
    rfl

end

theorem dumps_inj {j k : Json} (hj : finite j = true) (hk : finite k = true)
    (h : dumps j = dumps k) : sorted j = sorted k := by
  rw [dumps_sorted,dumps_sorted] at h
  exact write_inj (finite_sorted j hj) (finite_sorted k hk) h

theorem numberChar_visible {c : Char} (h : numberChar c = true) : 32 ≤ c.toNat := by
  simp only [numberChar,Bool.or_eq_true,decide_eq_true_eq,List.mem_cons,List.not_mem_nil,
    or_false] at h
  rcases h with h | rfl | rfl | rfl | rfl
  · simp only [Char.isDigit,Bool.and_eq_true,decide_eq_true_eq] at h
    have hlow : (48 : UInt32) ≤ c.val := h.1
    have hnat : (48 : ℕ) ≤ c.toNat := UInt32.le_iff_toNat_le.mp hlow
    omega
  all_goals decide

theorem escapeChar_visible (c : Char) : ∀ d ∈ escapeChar c, 32 ≤ d.toNat := by
  have hdigit : ∀ k < 16, 32 ≤ (digit k).toNat := by decide
  unfold escapeChar
  split
  · exact each_of_all (by decide)
  split
  · exact each_of_all (by decide)
  split
  · exact each_of_all (by decide)
  split
  · exact each_of_all (by decide)
  split
  · exact each_of_all (by decide)
  split
  · exact each_of_all (by decide)
  split
  · exact each_of_all (by decide)
  split
  · intro d hd
    simp only [List.mem_cons] at hd
    rcases hd with rfl | rfl | hd
    · decide
    · decide
    · obtain ⟨k,hk,rfl⟩ := digits_mem (by decide) hd
      exact hdigit k hk
  · intro d hd
    obtain rfl := List.mem_singleton.mp hd
    omega

def Visible (text : List Char) : Prop := ∀ c ∈ text, 32 ≤ c.toNat

theorem visible_append {s t : List Char} (hs : Visible s) (ht : Visible t) :
    Visible (s++t) := fun c hc => (List.mem_append.mp hc).elim (hs c) (ht c)

theorem visible_cons {c : Char} {s : List Char} (hc : 32 ≤ c.toNat) (hs : Visible s) :
    Visible (c::s) := List.forall_mem_cons.mpr ⟨hc,hs⟩

theorem dumpString_visible (s : String) : Visible (dumpString s) := by
  refine visible_append (visible_cons (by decide) ?_) (each_of_all (by decide))
  intro d hd
  obtain ⟨c,-,hd⟩ := List.mem_flatMap.mp hd
  exact escapeChar_visible c d hd

theorem separated_visible {parts : List (List Char)} (h : ∀ part ∈ parts, Visible part) :
    Visible (separated parts) := by
  induction parts with
  | nil => exact fun c hc => by cases hc
  | cons part parts ih =>
    have hpart := h part List.mem_cons_self
    cases parts with
    | nil => rwa [separated_single]
    | cons next parts =>
      rw [separated_cons]
      exact visible_append hpart
        (visible_cons (by decide) (ih fun p hp => h p (List.mem_cons_of_mem _ hp)))

mutual

theorem write_visible (j : Json) (hj : finite j = true) : Visible (write j) := by
  match j with
  | .null => exact each_of_all (by decide)
  | .bool true => exact each_of_all (by decide)
  | .bool false => exact each_of_all (by decide)
  | .number n =>
    intro c hc
    rcases intText_chars n c hc with h | rfl
    · exact numberChar_visible (by simp [numberChar,h])
    · decide
  | .float text => exact fun c hc => numberChar_visible ((floatText_spec hj).1 c hc)
  | .string s => exact dumpString_visible s
  | .array items =>
    exact visible_append (visible_cons (by decide) (separated_visible
      (writeItems_visible items hj)))
      (each_of_all (by decide))
  | .object fields =>
    refine visible_append (visible_cons (by decide) (separated_visible ?_))
      (each_of_all (by decide))
    intro part hpart
    obtain ⟨field,hfield,rfl⟩ := List.mem_map.mp hpart
    exact visible_append (dumpString_visible _)
      (visible_cons (by decide) (writeFields_visible fields hj field hfield))

theorem writeItems_visible (items : List Json) (hj : finiteItems items = true) :
    ∀ part ∈ writeItems items, Visible part := by
  match items with
  | [] => exact fun part hpart => by cases hpart
  | item::items =>
    rw [finiteItems,Bool.and_eq_true] at hj
    rw [writeItems]
    exact List.forall_mem_cons.mpr ⟨write_visible item hj.1,writeItems_visible items hj.2⟩

theorem writeFields_visible (fields : List (String × Json)) (hj : finiteFields fields = true) :
    ∀ field ∈ writeFields fields, Visible field.2 := by
  match fields with
  | [] => exact fun field hfield => by cases hfield
  | (key,value)::fields =>
    rw [finiteFields,Bool.and_eq_true] at hj
    rw [writeFields]
    exact List.forall_mem_cons.mpr ⟨write_visible value hj.1,writeFields_visible fields hj.2⟩

end

theorem dumps_visible {j : Json} (hj : finite j = true) : Visible (dumps j) := by
  rw [dumps_sorted]
  exact write_visible _ (finite_sorted j hj)

end LawyerAgent.JsonReader
