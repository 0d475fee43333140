import LawyerAgent.Datetimes
import Mathlib.Data.List.Sort

/-!
# Canonical JSON and hexadecimal text

The form in which documents are measured and hashed: sorted keys, no blanks,
non-ASCII characters as they are. A digest is written as 64 hexadecimal
digits and read back from them.
-/

set_option autoImplicit false

namespace LawyerAgent.CanonicalJson
open Common Envelope

def encode (text : List Char) : List UInt8 := text.flatMap String.utf8EncodeChar

theorem encode_length (text : List Char) : text.length ≤ (encode text).length := by
  induction text with
  | nil => exact le_refl _
  | cons c text ih =>
    have hc := c.utf8Size_pos
    rw [encode,List.flatMap_cons,List.length_append,List.length_cons,String.length_utf8EncodeChar]
    rw [encode] at ih
    omega

def escapeChar (c : Char) : List Char :=
  if c = '"' then ['\\','"']
  else if c = '\\' then ['\\','\\']
  else if c = '\n' then ['\\','n']
  else if c = '\r' then ['\\','r']
  else if c = '\t' then ['\\','t']
  else if c.toNat = 8 then ['\\','b']
  else if c.toNat = 12 then ['\\','f']
  else if c.toNat < 32 then '\\':: 'u'::digits 16 4 c.toNat
  else [c]

def dumpString (s : String) : List Char := '"'::s.toList.flatMap escapeChar++['"']

def dumpField (field : String × List Char) : List Char := dumpString field.1++ ':'::field.2

def sortKeys (fields : List (String × List Char)) : List (String × List Char) :=
  fields.insertionSort fun a b => a.1 ≤ b.1

def separated (parts : List (List Char)) : List Char := List.intercalate [','] parts

mutual

def dumps : Json → List Char
  | .null => "null".toList
  | .bool true => "true".toList
  | .bool false => "false".toList
  | .number n => (toString n).toList
  | .float text => text.toList
  | .string s => dumpString s
  | .array items => '['::separated (dumpItems items)++[']']
  | .object fields =>
    '\x7b'::separated ((sortKeys (dumpFields fields)).map dumpField)++['\x7d']

def dumpItems : List Json → List (List Char)
  | [] => []
  | item::items => dumps item::dumpItems items

def dumpFields : List (String × Json) → List (String × List Char)
  | [] => []
  | (key,value)::fields => (key,dumps value)::dumpFields fields

end

def jsonSize (value : Json) : ℕ := (encode (dumps value)).length

def digestJson (sha256 : List UInt8 → Digest) (value : Json) : Digest :=
  sha256 (encode (dumps value))

def hexDigits : List Char := "0123456789abcdef".toList

def hexValue (text : List Char) : ℕ := text.foldl (fun n c => n*16+hexDigits.idxOf c) 0

def isHex (width : ℕ) (text : List Char) : Bool :=
  text.length == width && text.all (hexDigits.contains ·)

/-- `bytes.fromhex` of a text that matches `[0-9a-f]{64}`. -/
def fromHex (text : String) : Option Digest :=
  if isHex 64 text.toList then some (BitVec.ofNat 256 (hexValue text.toList)) else none

def hex (d : Digest) : String := String.ofList (digits 16 64 d.toNat)

theorem hex_inj {x y : Digest} (h : hex x = hex y) : x = y := by
  have hdigits := String.ofList_inj.mp h
  have hbound : ∀ z : Digest, z.toNat < 16^64 := fun z => by
    have := z.isLt
    omega
  exact BitVec.eq_of_toNat_eq
    (Datetimes.digits_inj (by decide) (by decide) (hbound x) (hbound y) hdigits)

theorem digit_hex : ∀ k < 16, digit k ∈ hexDigits := by decide

theorem hex_isHex (d : Digest) : isHex 64 (hex d).toList = true := by
  unfold isHex hex
  simp only [String.toList_ofList,Bool.and_eq_true,beq_iff_eq,List.all_eq_true,
    List.contains_iff_mem]
  refine ⟨Datetimes.digits_length 16 64 _,fun c hc => ?_⟩
  obtain ⟨k,hk,rfl⟩ := Datetimes.digits_mem (by decide) hc
  exact digit_hex k hk

theorem hexValue_append (text : List Char) (c : Char) :
    hexValue (text++[c]) = hexValue text*16+hexDigits.idxOf c := by
  simp [hexValue]

theorem idxOf_lt {c : Char} (h : c ∈ hexDigits) : hexDigits.idxOf c < 16 :=
  List.idxOf_lt_length_iff.mpr h

theorem digit_idxOf : ∀ c ∈ hexDigits, digit (hexDigits.idxOf c) = c :=
  each_of_all (by decide)

theorem hexValue_lt (text : List Char) (h : ∀ c ∈ text, c ∈ hexDigits) :
    hexValue text < 16^text.length := by
  induction text using List.reverseRecOn with
  | nil => simp [hexValue]
  | append_singleton text c ih =>
    have hc := idxOf_lt (h c (by simp))
    have ht := ih fun d hd => h d (by simp [hd])
    rw [hexValue_append,List.length_append,List.length_singleton,Nat.pow_succ]
    omega

theorem digits_hexValue (text : List Char) (h : ∀ c ∈ text, c ∈ hexDigits) :
    digits 16 text.length (hexValue text) = text := by
  induction text using List.reverseRecOn with
  | nil => rfl
  | append_singleton text c ih =>
    have hmem := h c (by simp)
    have hc := idxOf_lt hmem
    have hdiv : (hexValue text*16+hexDigits.idxOf c)/16 = hexValue text := by omega
    have hmod : (hexValue text*16+hexDigits.idxOf c)%16 = hexDigits.idxOf c := by omega
    rw [hexValue_append,List.length_append,List.length_singleton]
    simp only [digits,hdiv,hmod]
    rw [ih fun d hd => h d (by simp [hd]),digit_idxOf c hmem]

theorem hex_fromHex {text : String} {d : Digest} (h : fromHex text = some d) :
    hex d = text := by
  unfold fromHex at h
  split at h
  · rename_i hhex
    simp only [isHex,Bool.and_eq_true,beq_iff_eq,List.all_eq_true,List.contains_iff_mem] at hhex
    obtain ⟨hlength,hmem⟩ := hhex
    have hlt := hexValue_lt _ hmem
    rw [hlength] at hlt
    have hdigits := digits_hexValue _ hmem
    rw [hlength] at hdigits
    obtain rfl := Option.some.inj h
    rw [hex,BitVec.toNat_ofNat,Nat.mod_eq_of_lt (by simpa using hlt),hdigits,
      String.ofList_toList]
  · cases h

end LawyerAgent.CanonicalJson
