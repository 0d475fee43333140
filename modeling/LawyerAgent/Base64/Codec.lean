import Mathlib.Data.List.Basic
import Mathlib.Tactic.Common

/-!
# Base64

Encoding three bytes as four sextets, and the tolerant decoder that skips
characters outside the alphabet and stops at the padding that completes a
quad. The alphabet is a pair of maps between sextets and characters.
-/

set_option autoImplicit false

namespace Base64

structure Alphabet where
  char : ℕ → Char
  value : Char → Option ℕ
  value_char : ∀ v < 64, value (char v) = some v
  value_lt : ∀ c v, value c = some v → v < 64
  value_pad : value '=' = none

inductive DecodeError where
  | oneMore
  | incorrectPadding
deriving DecidableEq, Repr

variable (A : Alphabet)

def body : List UInt8 → List Char
  | [] => []
  | [a] => [A.char (a.toNat/4),A.char (a.toNat%4*16)]
  | [a,b] =>
    [A.char (a.toNat/4),A.char (a.toNat%4*16+b.toNat/16),A.char (b.toNat%16*4)]
  | a::b::c::rest =>
    A.char (a.toNat/4)::A.char (a.toNat%4*16+b.toNat/16)::
      A.char (b.toNat%16*4+c.toNat/64)::A.char (c.toNat%64)::body rest

def padding (bytes : List UInt8) : List Char := List.replicate ((3-bytes.length%3)%3) '='

def encode (bytes : List UInt8) : List Char := body A bytes++padding bytes

structure Decoder where
  quad : ℕ := 0
  left : ℕ := 0
  pads : ℕ := 0
  out : List UInt8 := []

def Decoder.push (d : Decoder) (v : ℕ) : Decoder :=
  match d.quad with
  | 0 => ⟨1,v,0,d.out⟩
  | 1 => ⟨2,v%16,0,d.out++[UInt8.ofNat (d.left*4+v/16)]⟩
  | 2 => ⟨3,v%4,0,d.out++[UInt8.ofNat (d.left*16+v/4)]⟩
  | _ => ⟨0,0,0,d.out++[UInt8.ofNat (d.left*64+v)]⟩

def Decoder.finish (d : Decoder) : Except DecodeError (List UInt8) :=
  if d.quad = 0 then .ok d.out
  else if d.quad = 1 then .error .oneMore
  else .error .incorrectPadding

def decodeFrom : Decoder → List Char → Except DecodeError (List UInt8)
  | d, [] => d.finish
  | d, c::text =>
    if c = '=' then
      if 2 ≤ d.quad ∧ 4 ≤ d.quad+(d.pads+1) then .ok d.out
      else decodeFrom {d with pads := if 2 ≤ d.quad then d.pads+1 else d.pads} text
    else
      match A.value c with
      | none => decodeFrom d text
      | some v => decodeFrom (d.push v) text

def decode (text : List Char) : Except DecodeError (List UInt8) := decodeFrom A {} text

variable {A}

theorem char_ne_pad {v : ℕ} (h : v < 64) : A.char v ≠ '=' := by
  intro hc
  have hv := A.value_char v h
  rw [hc,A.value_pad] at hv
  cases hv

theorem decodeFrom_char (d : Decoder) {v : ℕ} (h : v < 64) (text : List Char) :
    decodeFrom A d (A.char v::text) = decodeFrom A (d.push v) text := by
  simp only [decodeFrom,if_neg (char_ne_pad h),A.value_char v h]

theorem decodeFrom_skip (d : Decoder) {c : Char} (hc : c ≠ '=') (h : A.value c = none)
    (text : List Char) : decodeFrom A d (c::text) = decodeFrom A d text := by
  simp only [decodeFrom,if_neg hc,h]

theorem decodeFrom_pads (out : List UInt8) (pads : ℕ) :
    decodeFrom A ⟨0,0,0,out⟩ (List.replicate pads '=') = .ok out := by
  induction pads with
  | zero => rfl
  | succ pads ih => simpa [List.replicate_succ,decodeFrom] using ih

theorem decodeFrom_body (bytes : List UInt8) (out : List UInt8) {pads : ℕ}
    (h : (3-bytes.length%3)%3 ≤ pads) :
    decodeFrom A ⟨0,0,0,out⟩ (body A bytes++List.replicate pads '=') = .ok (out++bytes) := by
  induction bytes using body.induct generalizing out with
  | case1 => simpa [body] using decodeFrom_pads out pads
  | case2 a =>
    obtain ⟨more,rfl⟩ := Nat.exists_eq_add_of_le' h
    have ha := a.toNat_lt
    have hbyte : UInt8.ofNat (a.toNat/4*4+a.toNat%4*16/16) = a := by
      rw [show a.toNat/4*4+a.toNat%4*16/16 = a.toNat by omega,UInt8.ofNat_toNat]
    simp only [body,List.cons_append,List.nil_append]
    rw [decodeFrom_char _ (by omega),decodeFrom_char _ (by omega)]
    simp only [Decoder.push,hbyte]
    simp [decodeFrom,List.replicate_succ]
  | case3 a b =>
    obtain ⟨more,rfl⟩ := Nat.exists_eq_add_of_le' h
    have ha := a.toNat_lt
    have hb := b.toNat_lt
    have hfirst : UInt8.ofNat (a.toNat/4*4+(a.toNat%4*16+b.toNat/16)/16) = a := by
      rw [show a.toNat/4*4+(a.toNat%4*16+b.toNat/16)/16 = a.toNat by omega,
        UInt8.ofNat_toNat]
    have hsecond : UInt8.ofNat ((a.toNat%4*16+b.toNat/16)%16*16+b.toNat%16*4/4) = b := by
      rw [show (a.toNat%4*16+b.toNat/16)%16*16+b.toNat%16*4/4 = b.toNat by omega,
        UInt8.ofNat_toNat]
    simp only [body,List.cons_append,List.nil_append]
    rw [decodeFrom_char _ (by omega),decodeFrom_char _ (by omega),
      decodeFrom_char _ (by omega)]
    simp only [Decoder.push,hfirst,hsecond]
    simp [decodeFrom,List.replicate_succ]
  | case4 a b c rest ih =>
    have ha := a.toNat_lt
    have hb := b.toNat_lt
    have hc := c.toNat_lt
    have hfirst : UInt8.ofNat (a.toNat/4*4+(a.toNat%4*16+b.toNat/16)/16) = a := by
      rw [show a.toNat/4*4+(a.toNat%4*16+b.toNat/16)/16 = a.toNat by omega,
        UInt8.ofNat_toNat]
    have hsecond : UInt8.ofNat ((a.toNat%4*16+b.toNat/16)%16*16+
        (b.toNat%16*4+c.toNat/64)/4) = b := by
      rw [show (a.toNat%4*16+b.toNat/16)%16*16+(b.toNat%16*4+c.toNat/64)/4 = b.toNat by omega,
        UInt8.ofNat_toNat]
    have hthird : UInt8.ofNat ((b.toNat%16*4+c.toNat/64)%4*64+c.toNat%64) = c := by
      rw [show (b.toNat%16*4+c.toNat/64)%4*64+c.toNat%64 = c.toNat by omega,
        UInt8.ofNat_toNat]
    simp only [body,List.cons_append]
    rw [decodeFrom_char _ (by omega),decodeFrom_char _ (by omega),
      decodeFrom_char _ (by omega),decodeFrom_char _ (by omega)]
    simp only [Decoder.push,hfirst,hsecond,hthird]
    have hrest : (3-rest.length%3)%3 ≤ pads := by
      simp only [List.length_cons] at h
      omega
    rw [ih _ hrest]
    simp

theorem decode_body (bytes : List UInt8) :
    decode A (body A bytes++['=','=']) = .ok bytes := by
  have hpads : (3-bytes.length%3)%3 ≤ 2 := by omega
  simpa [decode] using decodeFrom_body (A := A) bytes [] hpads

theorem body_length (bytes : List UInt8) :
    (body A bytes).length = (bytes.length*4+2)/3 := by
  induction bytes using body.induct with
  | case1 => simp [body]
  | case2 a => simp [body]
  | case3 a b => simp [body]
  | case4 a b c rest ih =>
    simp only [body,List.length_cons,ih]
    omega

theorem decode_padded (bytes : List UInt8) :
    decode A (body A bytes++List.replicate ((4-(body A bytes).length%4)%4) '=') = .ok bytes := by
  apply decodeFrom_body
  rw [body_length]
  have hlength := Nat.div_add_mod bytes.length 3
  generalize bytes.length/3 = quads at hlength
  have hmod : bytes.length%3 = 0 ∨ bytes.length%3 = 1 ∨ bytes.length%3 = 2 := by omega
  rcases hmod with hmod | hmod | hmod
  all_goals
    rw [hmod] at hlength ⊢
    rw [← hlength]
    omega

theorem body_chars (bytes : List UInt8) :
    ∀ c ∈ body A bytes, ∃ v < 64, c = A.char v := by
  induction bytes using body.induct with
  | case1 => simp [body]
  | case2 a =>
    have ha := a.toNat_lt
    simp only [body,List.forall_mem_cons]
    exact ⟨⟨_,by omega,rfl⟩,⟨_,by omega,rfl⟩,by simp⟩
  | case3 a b =>
    have ha := a.toNat_lt
    have hb := b.toNat_lt
    simp only [body,List.forall_mem_cons]
    exact ⟨⟨_,by omega,rfl⟩,⟨_,by omega,rfl⟩,⟨_,by omega,rfl⟩,by simp⟩
  | case4 a b c rest ih =>
    have ha := a.toNat_lt
    have hb := b.toNat_lt
    have hc := c.toNat_lt
    simp only [body,List.forall_mem_cons]
    exact ⟨⟨_,by omega,rfl⟩,⟨_,by omega,rfl⟩,⟨_,by omega,rfl⟩,⟨_,by omega,rfl⟩,ih⟩

/-- The number of alphabet characters read so far fixes the position in the
quad and the number of bytes written. -/
structure Fed (n : ℕ) (d : Decoder) : Prop where
  quad : d.quad = n%4
  length : d.out.length = n*3/4

theorem push_fed {n : ℕ} {d : Decoder} (h : Fed n d) (v : ℕ) : Fed (n+1) (d.push v) := by
  have hquad := h.quad
  have hlength := h.length
  have hcases : d.quad = 0 ∨ d.quad = 1 ∨ d.quad = 2 ∨ d.quad = 3 := by omega
  rcases hcases with hq | hq | hq | hq
  all_goals
    simp only [Decoder.push,hq]
    constructor
  all_goals
    simp only [List.length_append,List.length_singleton,hlength]
    omega

def alphabetic (A : Alphabet) (text : List Char) : ℕ := text.countP fun c => (A.value c).isSome

theorem decodeFrom_length (text rest : List Char) {n : ℕ} {d : Decoder} (h : Fed n d)
    (hpad : ∀ c ∈ text, c ≠ '=') (hrest : ∀ c ∈ rest, c = '=') {bytes : List UInt8}
    (hok : decodeFrom A d (text++rest) = .ok bytes) :
    bytes.length = (n+alphabetic A text)*3/4 := by
  induction text generalizing n d with
  | nil =>
    simp only [List.nil_append,alphabetic,List.countP_nil,Nat.add_zero] at hok ⊢
    clear hpad
    induction rest generalizing d with
    | nil =>
      simp only [decodeFrom,Decoder.finish] at hok
      split at hok
      · cases hok
        exact h.length
      · split at hok <;> cases hok
    | cons c rest ih =>
      have hc : c = '=' := hrest c List.mem_cons_self
      simp only [decodeFrom,if_pos hc] at hok
      split at hok
      · cases hok
        exact h.length
      · refine ih (fun e he => hrest e (List.mem_cons_of_mem _ he)) ?_ hok
        exact ⟨h.quad,h.length⟩
  | cons c text ih =>
    have hc : c ≠ '=' := hpad c List.mem_cons_self
    have htext : ∀ e ∈ text, e ≠ '=' := fun e he => hpad e (List.mem_cons_of_mem _ he)
    simp only [List.cons_append,decodeFrom,if_neg hc] at hok
    cases hv : A.value c with
    | none =>
      rw [hv] at hok
      rw [ih h htext hok]
      simp [alphabetic,hv]
    | some v =>
      rw [hv] at hok
      rw [ih (push_fed h v) htext hok]
      simp only [alphabetic,List.countP_cons,hv,Option.isSome_some,if_true]
      congr 1
      omega

/-- A text without padding inside decodes to three bytes for each four
characters of the alphabet. -/
theorem decode_length {text rest : List Char} (hpad : ∀ c ∈ text, c ≠ '=')
    (hrest : ∀ c ∈ rest, c = '=') {bytes : List UInt8}
    (hok : decode A (text++rest) = .ok bytes) :
    bytes.length = alphabetic A text*3/4 := by
  have h : Fed 0 ({} : Decoder) := ⟨rfl,rfl⟩
  simpa using decodeFrom_length text rest h hpad hrest hok

theorem decode_skip {text rest : List Char} (h : ∀ c ∈ text, c ≠ '=' ∧ A.value c = none) :
    decode A (text++rest) = decode A rest := by
  unfold decode
  induction text with
  | nil => rfl
  | cons c text ih =>
    have hc := h c List.mem_cons_self
    rw [List.cons_append,decodeFrom_skip _ hc.1 hc.2]
    exact ih fun e he => h e (List.mem_cons_of_mem _ he)

end Base64
