import Mathlib.Data.List.Basic

/-!
# Compact JSON text

Writing and reading the scalars of a compact JSON object, one piece at a time.
A reader returns what it read together with the rest of the text.
-/

set_option autoImplicit false

namespace LawyerAgent.JsonText

def consume : List Char → List Char → Option (List Char)
  | [], rest => some rest
  | _::_, [] => none
  | c::cs, d::ds => if c = d then consume cs ds else none

theorem consume_append (text rest : List Char) : consume text (text++rest) = some rest := by
  induction text with
  | nil => rfl
  | cons c text ih => simp [consume,ih]

def writeString (s : List Char) : List Char := '"'::s++['"']

def readToQuote : List Char → Option (List Char × List Char)
  | [] => none
  | c::rest => if c = '"' then some ([],rest) else (readToQuote rest).map fun p => (c::p.1,p.2)

def readString : List Char → Option (List Char × List Char)
  | [] => none
  | c::rest => if c = '"' then readToQuote rest else none

theorem readToQuote_append (s rest : List Char) (h : ∀ c ∈ s, c ≠ '"') :
    readToQuote (s++ '"'::rest) = some (s,rest) := by
  induction s with
  | nil => simp [readToQuote]
  | cons c s ih =>
    have hc : c ≠ '"' := h c (by simp)
    have hs := ih fun d hd => h d (by simp [hd])
    simp [readToQuote,hc,hs]

theorem readString_write (s rest : List Char) (h : ∀ c ∈ s, c ≠ '"') :
    readString (writeString s++rest) = some (s,rest) := by
  have hs := readToQuote_append s rest h
  simpa [writeString,readString] using hs

def decimal (digits : List Char) : ℕ :=
  digits.foldl (fun n c => n*10+(c.toNat-48)) 0

theorem decimal_toDigits (n : ℕ) : decimal (Nat.toDigits 10 n) = n := by
  induction n using Nat.strongRecOn with
  | ind n ih =>
    by_cases h : n < 10
    · rw [Nat.toDigits_of_lt_base h]
      simp [decimal,Nat.toNat_digitChar_sub_48_of_lt_ten h]
    · have hq : decimal (Nat.toDigits 10 (n/10)) = n/10 := ih (n/10) (by omega)
      have hr : n%10 < 10 := Nat.mod_lt n (by omega)
      rw [Nat.toDigits_of_base_le (by omega) (by omega)]
      unfold decimal at hq ⊢
      rw [List.foldl_append,hq]
      simp only [List.foldl_cons,List.foldl_nil,Nat.toNat_digitChar_sub_48_of_lt_ten hr]
      omega

def readNat (text : List Char) : Option (ℕ × List Char) :=
  let digits := text.takeWhile Char.isDigit
  if digits = [] then none else some (decimal digits,text.dropWhile Char.isDigit)

theorem readNat_write (n : ℕ) (c : Char) (rest : List Char) (h : c.isDigit = false) :
    readNat (Nat.toDigits 10 n++c::rest) = some (n,c::rest) := by
  have hd : ∀ d ∈ Nat.toDigits 10 n, Char.isDigit d = true := fun d hd =>
    Nat.isDigit_of_mem_toDigits (by decide) (by decide) hd
  have ht : (Nat.toDigits 10 n++c::rest).takeWhile Char.isDigit = Nat.toDigits 10 n := by
    rw [List.takeWhile_append_of_pos hd]
    simp [h]
  have hw : (Nat.toDigits 10 n++c::rest).dropWhile Char.isDigit = c::rest := by
    rw [List.dropWhile_append_of_pos hd]
    simp [h]
  simp only [readNat,ht,hw,decimal_toDigits,Nat.toDigits_ne_nil,if_false]

def null : List Char := ['n','u','l','l']

def writeOption {α : Type} (write : α → List Char) : Option α → List Char
  | none => null
  | some a => write a

def readOption {α : Type} (read : List Char → Option (α × List Char)) (text : List Char) :
    Option (Option α × List Char) :=
  match consume null text with
  | some rest => some (none,rest)
  | none => (read text).map fun p => (some p.1,p.2)

theorem readOption_none {α : Type} (read : List Char → Option (α × List Char))
    (rest : List Char) : readOption read (null++rest) = some (none,rest) := by
  simp [readOption,consume_append]

theorem readOption_some {α : Type} {read : List Char → Option (α × List Char)} {a : α}
    {c : Char} {text rest : List Char} (hc : c ≠ 'n') (h : read (c::text) = some (a,rest)) :
    readOption read (c::text) = some (some a,rest) := by
  have hn : consume null (c::text) = none := by
    simp [consume,null,Ne.symm hc]
  simp [readOption,hn,h]

end LawyerAgent.JsonText
