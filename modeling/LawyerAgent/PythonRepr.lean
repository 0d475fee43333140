import LawyerAgent.Codes.Delimited
import LawyerAgent.Datetimes
import Std.Data.String.ToNat

/-!
# Printed values

`repr` of the values a chunk is compared by: texts, bytes, numbers, `None` and
identifiers. Which characters are printable is left to the Unicode tables; the
printed value determines the value whatever they say.
-/

set_option autoImplicit false

namespace LawyerAgent.PythonRepr
open Common Envelope Datetimes
open Codes

/-- A character that stands for itself inside the quotes `quote`. -/
def plain (printable : Char → Bool) (quote c : Char) : Bool :=
  c ≠ quote && c ≠ '\\' && if c.toNat < 128 then 32 ≤ c.toNat && c.toNat ≠ 127 else printable c

/-- What follows the backslash of a character that does not. -/
def escape (quote c : Char) : Char :=
  if c = quote ∨ c = '\\' then c
  else if c = '\t' then 't'
  else if c = '\n' then 'n'
  else if c = '\r' then 'r'
  else if c.toNat < 256 then 'x'
  else if c.toNat < 65536 then 'u'
  else 'U'

def escapeWidth (tag : Char) : ℕ :=
  if tag = 'x' then 2 else if tag = 'u' then 4 else if tag = 'U' then 8 else 0

def reprChar (printable : Char → Bool) (quote c : Char) : List Char :=
  if plain printable quote c then [c]
  else '\\'::escape quote c::digits 16 (escapeWidth (escape quote c)) c.toNat

def quoteOf (text : List Char) : Char := if '\'' ∈ text ∧ '"' ∉ text then '"' else '\''

def reprText (printable : Char → Bool) (text : List Char) : List Char :=
  quoteOf text::(text.flatMap (reprChar printable (quoteOf text))++[quoteOf text])

def digestBytes (d : Digest) : List UInt8 := toBytes 32 d.toNat

def reprBytes (bytes : List UInt8) : List Char :=
  'b'::reprText (fun _ => false) (bytes.map fun b => Char.ofNat b.toNat)

def reprUuid (u : UUID7) : List Char := "UUID('".toList++(uuidText u++"')".toList)

def reprNat (n : ℕ) : List Char := (Nat.repr n).toList

/-- `None`, or the value in its own form. -/
def reprOption {α : Type} (form : α → List Char) : Option α → List Char
  | none => "None".toList
  | some a => form a

def IsQuote (quote : Char) : Prop := quote = '\'' ∨ quote = '"'

theorem quoteOf_isQuote (text : List Char) : IsQuote (quoteOf text) := by
  unfold quoteOf
  split
  · exact Or.inr rfl
  · exact Or.inl rfl

def unescape (tag : Char) : Char :=
  if tag = 't' then '\t' else if tag = 'n' then '\n' else if tag = 'r' then '\r' else tag

theorem escape_cases {quote : Char} (hquote : IsQuote quote) (c : Char) :
    escapeWidth (escape quote c) ≠ 0 ∧ c.toNat < 16^escapeWidth (escape quote c) ∨
      escapeWidth (escape quote c) = 0 ∧ unescape (escape quote c) = c := by
  unfold escape
  split_ifs with hself ht hn hr hx hu
  · right
    rcases hself with rfl | rfl
    · rcases hquote with rfl | rfl <;> decide
    · decide
  · exact Or.inr ⟨rfl,ht ▸ rfl⟩
  · exact Or.inr ⟨rfl,hn ▸ rfl⟩
  · exact Or.inr ⟨rfl,hr ▸ rfl⟩
  · exact Or.inl ⟨by decide,hx⟩
  · exact Or.inl ⟨by decide,hu⟩
  · exact Or.inl ⟨by decide,c.val.toNat_lt⟩

theorem escape_inj {quote c d : Char} (hquote : IsQuote quote)
    (htag : escape quote c = escape quote d)
    (hdigits : digits 16 (escapeWidth (escape quote c)) c.toNat =
      digits 16 (escapeWidth (escape quote c)) d.toNat) : c = d := by
  rcases escape_cases hquote c with ⟨hwidth,hc⟩ | ⟨hwidth,hc⟩
  · rcases escape_cases hquote d with ⟨-,hd⟩ | ⟨hzero,-⟩
    · rw [← htag] at hd
      exact Char.toNat_inj.mp (digits_inj (by decide) (by decide) hc hd hdigits)
    · rw [htag] at hwidth
      exact absurd hzero hwidth
  · rcases escape_cases hquote d with ⟨hnot,-⟩ | ⟨-,hd⟩
    · rw [← htag] at hnot
      exact absurd hwidth hnot
    · rw [← hc,← hd,htag]

theorem reprChar_delimited (printable : Char → Bool) {quote : Char} (hquote : IsQuote quote) :
    Delimited (fun _ => True) (reprChar printable quote) := by
  have hslash : ∀ c, plain printable quote c = true → c ≠ '\\' := by
    intro c hc
    simp only [plain,Bool.and_eq_true,decide_eq_true_eq] at hc
    exact hc.1.2
  intro c d _ _ r s h
  unfold reprChar at h
  split_ifs at h with hc hd hd
  · exact ⟨(List.cons.inj h).1,(List.cons.inj h).2⟩
  · exact absurd (List.cons.inj h).1 (hslash c hc)
  · exact absurd (List.cons.inj h).1.symm (hslash d hd)
  · obtain ⟨htag,hrest⟩ := List.cons.inj (List.cons.inj h).2
    rw [← htag] at hrest
    obtain ⟨hdigits,hsame⟩ := List.append_inj hrest (by rw [digits_length,digits_length])
    exact ⟨escape_inj hquote htag hdigits,hsame⟩

theorem reprChar_head (printable : Char → Bool) {quote : Char} (hquote : IsQuote quote) (c : Char) :
    ∃ d word, reprChar printable quote c = d::word ∧ d ≠ quote := by
  unfold reprChar
  split_ifs with hc
  · simp only [plain,Bool.and_eq_true,decide_eq_true_eq] at hc
    exact ⟨c,[],rfl,hc.1.1⟩
  · refine ⟨'\\',_,rfl,?_⟩
    rcases hquote with rfl | rfl <;> decide

theorem reprText_delimited (printable : Char → Bool) :
    Delimited (fun _ => True) (reprText printable) := by
  intro text other _ _ r s h
  obtain ⟨hquote,hrest⟩ := List.cons.inj h
  have hwords := delimited_terminated (reprChar_delimited printable (quoteOf_isQuote text))
    fun c _ => reprChar_head printable (quoteOf_isQuote text) c
  rw [← hquote] at hrest
  exact hwords text other (fun _ _ => trivial) (fun _ _ => trivial) r s hrest

theorem byteChar_inj {bytes other : List UInt8}
    (h : bytes.map (fun b => Char.ofNat b.toNat) = other.map fun b => Char.ofNat b.toNat) :
    bytes = other := by
  apply List.map_injective_iff.mpr _ h
  intro b c hchar
  have hvalid : ∀ b : UInt8, (Char.ofNat b.toNat).toNat = b.toNat := by
    intro b
    have hbyte : b.toNat.isValidChar := Or.inl (lt_of_lt_of_le b.toNat_lt (by decide))
    rw [Char.ofNat,dif_pos hbyte]
    rfl
  have hnat := congrArg Char.toNat hchar
  rw [hvalid,hvalid] at hnat
  exact UInt8.toNat_inj.mp hnat

theorem reprDigest_delimited :
    Delimited (fun _ => True) fun d : Digest => reprBytes (digestBytes d) := by
  apply delimited_after ['b']
  apply delimited_map _ (reprText_delimited fun _ => false) (fun _ _ => trivial)
  intro d e _ _ h
  have hbound : ∀ d : Digest, d.toNat < 256^32 := fun d => d.isLt
  exact BitVec.eq_of_toNat_eq (toBytes_inj (hbound d) (hbound e) (byteChar_inj h))

theorem fixed_bits (i : ℕ) (h : 79 ≤ i ∨ 64 ≤ i ∧ i < 76 ∨ i < 62) :
    (7 <<< 76 : ℕ).testBit i = false ∧ (2 <<< 62 : ℕ).testBit i = false := by
  have hversion : 76 ≤ i → (7 : ℕ).testBit (i-76) = false := fun hi =>
    Nat.testBit_lt_two_pow (lt_of_lt_of_le (by decide) (Nat.pow_le_pow_right (by decide)
      (show 3 ≤ i-76 by omega)))
  have hvariant : 62 ≤ i → (2 : ℕ).testBit (i-62) = false := fun hi =>
    Nat.testBit_lt_two_pow (lt_of_lt_of_le (by decide) (Nat.pow_le_pow_right (by decide)
      (show 2 ≤ i-62 by omega)))
  rw [Nat.testBit_shiftLeft,Nat.testBit_shiftLeft]
  simp only [Bool.and_eq_false_imp,ge_iff_le,decide_eq_true_eq]
  exact ⟨hversion,hvariant⟩

theorem int_bits (u : UUID7) (i : ℕ) (hi : i < 128) (h : 79 ≤ i ∨ 64 ≤ i ∧ i < 76 ∨ i < 62) :
    u.int.getLsbD i = (!decide (i < 80) && u.timestamp.getLsbD (i-80) ||
      !decide (i < 64) && u.randomA.getLsbD (i-64) || u.randomB.getLsbD i) := by
  obtain ⟨hversion,hvariant⟩ := fixed_bits i h
  simp only [UUID7.int,BitVec.getLsbD_or,BitVec.getLsbD_shiftLeft,BitVec.getLsbD_setWidth,
    BitVec.natCast_eq_ofNat,BitVec.getLsbD_ofNat,hversion,hvariant,Bool.and_false,Bool.or_false,
    hi,decide_true,Bool.true_and,show i-80 < 128 by omega,show i-64 < 128 by omega]

theorem int_inj {u v : UUID7} (h : u.int = v.int) : u = v := by
  have hbits : ∀ i, u.int.getLsbD i = v.int.getLsbD i := fun i => by rw [h]
  have htimestamp : u.timestamp = v.timestamp := by
    apply BitVec.eq_of_getLsbD_eq
    intro i hi
    have hbit := hbits (80+i)
    rw [int_bits u _ (by omega) (by omega),int_bits v _ (by omega) (by omega),
      BitVec.getLsbD_of_ge u.randomA (80+i-64) (by omega),
      BitVec.getLsbD_of_ge v.randomA (80+i-64) (by omega),
      BitVec.getLsbD_of_ge u.randomB (80+i) (by omega),
      BitVec.getLsbD_of_ge v.randomB (80+i) (by omega)] at hbit
    simpa [show ¬80+i < 80 by omega] using hbit
  have hrandomA : u.randomA = v.randomA := by
    apply BitVec.eq_of_getLsbD_eq
    intro i hi
    have hbit := hbits (64+i)
    rw [int_bits u _ (by omega) (by omega),int_bits v _ (by omega) (by omega),
      BitVec.getLsbD_of_ge u.randomB (64+i) (by omega),
      BitVec.getLsbD_of_ge v.randomB (64+i) (by omega)] at hbit
    simpa [show 64+i < 80 by omega,show ¬64+i < 64 by omega] using hbit
  have hrandomB : u.randomB = v.randomB := by
    apply BitVec.eq_of_getLsbD_eq
    intro i hi
    have hbit := hbits i
    rw [int_bits u _ (by omega) (by omega),int_bits v _ (by omega) (by omega)] at hbit
    simpa [show i < 80 by omega,show i < 64 by omega] using hbit
  cases u
  cases v
  simp_all

theorem uuidText_length (u : UUID7) : (uuidText u).length = 36 := by
  simp [uuidText,digits_length]

theorem uuidText_inj {u v : UUID7} (h : uuidText u = uuidText v) : u = v := by
  have hlength : ∀ w : UUID7, (digits 16 32 w.int.toNat).length = 32 := fun w => digits_length _ _ _
  have hsplit : ∀ w : UUID7, digits 16 32 w.int.toNat = (digits 16 32 w.int.toNat).take 8++
      (((digits 16 32 w.int.toNat).drop 8).take 4++(((digits 16 32 w.int.toNat).drop 12).take 4++
      (((digits 16 32 w.int.toNat).drop 16).take 4++(digits 16 32 w.int.toNat).drop 20))) := by
    intro w
    have hstep : ∀ n m, ((digits 16 32 w.int.toNat).drop n).take m++
        (digits 16 32 w.int.toNat).drop (n+m) = (digits 16 32 w.int.toNat).drop n := by
      intro n m
      rw [← List.drop_drop]
      exact List.take_append_drop _ _
    rw [hstep 16 4,hstep 12 4,hstep 8 4,List.take_append_drop]
  unfold uuidText at h
  simp only [List.append_assoc,List.cons_append] at h
  obtain ⟨ha,h⟩ := List.append_inj h (by simp [digits_length])
  obtain ⟨hb,h⟩ := List.append_inj (List.cons.inj h).2 (by simp [digits_length])
  obtain ⟨hc,h⟩ := List.append_inj (List.cons.inj h).2 (by simp [digits_length])
  obtain ⟨hd,he⟩ := List.append_inj (List.cons.inj h).2 (by simp [digits_length])
  have hdigits : digits 16 32 u.int.toNat = digits 16 32 v.int.toNat := by
    rw [hsplit u,hsplit v,ha,hb,hc,hd,(List.cons.inj he).2]
  have hbound : ∀ w : UUID7, w.int.toNat < 16^32 := fun w => w.int.isLt
  exact int_inj (BitVec.eq_of_toNat_eq (digits_inj (by decide) (by decide) (hbound u) (hbound v)
    hdigits))

theorem reprUuid_delimited : Delimited (fun _ => True) reprUuid := by
  apply delimited_after "UUID('".toList
  apply delimited_before "')".toList
  exact delimited_fixed (fun u _ => uuidText_length u) fun _ _ _ _ h => uuidText_inj h

theorem reprNat_digits {n : ℕ} {c : Char} (h : c ∈ reprNat n) : c.isDigit = true := by
  rw [reprNat,Nat.repr,String.toList_ofList] at h
  exact Nat.isDigit_of_mem_toDigits (by decide) (by decide) h

theorem reprOption_mark {mark : Char} (hdigit : mark.isDigit = false) (hnone : mark ∉ "None".toList)
    (o : Option ℕ) : mark ∉ reprOption reprNat o := by
  cases o with
  | none => exact hnone
  | some n =>
    intro h
    rw [reprNat_digits h] at hdigit
    cases hdigit

theorem reprOption_inj {o u : Option ℕ} (h : reprOption reprNat o = reprOption reprNat u) :
    o = u := by
  have hdiffer : ∀ n, "None".toList ≠ reprNat n := by
    intro n hsame
    have hmem : 'N' ∈ reprNat n := hsame ▸ by decide
    exact absurd (reprNat_digits hmem) (by decide)
  cases o with
  | none =>
    cases u with
    | none => rfl
    | some n => exact absurd h (hdiffer n)
  | some n =>
    cases u with
    | none => exact absurd h.symm (hdiffer n)
    | some m => exact congrArg some (Nat.repr_injective (String.toList_inj.mp h))

theorem reprNumber_delimited {mark : Char} (hdigit : mark.isDigit = false)
    (hnone : mark ∉ "None".toList) :
    Delimited (fun _ => True) fun o : Option ℕ => reprOption reprNat o++[mark] :=
  delimited_until (fun o _ => reprOption_mark hdigit hnone o) fun _ _ _ _ h => reprOption_inj h

theorem reprOptionText_delimited (printable : Char → Bool) :
    Delimited (fun _ => True) (reprOption (reprText printable)) := by
  have hdiffer : ∀ (text r s : List Char), "None".toList++r ≠ reprText printable text++s := by
    intro text r s h
    have hquote := (List.cons.inj h).1
    rcases quoteOf_isQuote text with hq | hq <;> rw [hq] at hquote <;> exact absurd hquote
      (by decide)
  intro o u _ _ r s h
  cases o with
  | none =>
    cases u with
    | none => exact ⟨rfl,List.append_cancel_left h⟩
    | some text => exact absurd h (hdiffer text r s)
  | some text =>
    cases u with
    | none => exact absurd h.symm (hdiffer text s r)
    | some other =>
      obtain ⟨rfl,hrest⟩ := reprText_delimited printable text other trivial trivial r s h
      exact ⟨rfl,hrest⟩

end LawyerAgent.PythonRepr
