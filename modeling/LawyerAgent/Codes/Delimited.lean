import Mathlib.Data.List.Basic
import Mathlib.Data.UInt

/-!
# Delimited codes

A code is delimited when a word of it can be told from what follows. Codes of
fixed width are, and so are pairs, optional values and counted lists of them;
a concatenation of such words is read in one way only.
-/

set_option autoImplicit false

namespace Codes

variable {α β γ : Type}

/-- The words of the values in `P` are told apart whatever follows them. -/
def Delimited (P : α → Prop) (code : α → List γ) : Prop :=
  ∀ a b, P a → P b → ∀ r s, code a++r = code b++s → a = b ∧ r = s

variable {P : α → Prop} {Q : β → Prop} {code : α → List γ} {next : β → List γ}

theorem delimited_inj (h : Delimited P code) {a b : α} (ha : P a) (hb : P b)
    (hcode : code a = code b) : a = b :=
  (h a b ha hb [] [] (by rw [hcode])).1

theorem delimited_fixed {width : ℕ} (hlength : ∀ a, P a → (code a).length = width)
    (hinj : ∀ a b, P a → P b → code a = code b → a = b) : Delimited P code := by
  intro a b ha hb r s h
  have hsame : (code a).length = (code b).length := (hlength a ha).trans (hlength b hb).symm
  obtain ⟨hcode,hrest⟩ := List.append_inj h hsame
  exact ⟨hinj a b ha hb hcode,hrest⟩

theorem delimited_after (word : List γ) (h : Delimited P code) :
    Delimited P fun a => word++code a := by
  intro a b ha hb r s hcode
  rw [List.append_assoc,List.append_assoc] at hcode
  exact h a b ha hb r s (List.append_cancel_left hcode)

theorem delimited_before (word : List γ) (h : Delimited P code) :
    Delimited P fun a => code a++word := by
  intro a b ha hb r s hcode
  rw [List.append_assoc,List.append_assoc] at hcode
  obtain ⟨rfl,hrest⟩ := h a b ha hb _ _ hcode
  exact ⟨rfl,List.append_cancel_left hrest⟩

theorem delimited_map (f : β → α) (h : Delimited P code) (hP : ∀ b, Q b → P (f b))
    (hinj : ∀ b c, Q b → Q c → f b = f c → b = c) : Delimited Q fun b => code (f b) := by
  intro b c hb hc r s hcode
  obtain ⟨hf,hrest⟩ := h (f b) (f c) (hP b hb) (hP c hc) r s hcode
  exact ⟨hinj b c hb hc hf,hrest⟩

theorem delimited_pair (h : Delimited P code) (hnext : Delimited Q next) :
    Delimited (fun p : α × β => P p.1 ∧ Q p.2) fun p => code p.1++next p.2 := by
  rintro ⟨a,b⟩ ⟨c,d⟩ ⟨ha,hb⟩ ⟨hc,hd⟩ r s hcode
  rw [List.append_assoc,List.append_assoc] at hcode
  obtain ⟨rfl,hrest⟩ := h a c ha hc _ _ hcode
  obtain ⟨rfl,hsame⟩ := hnext b d hb hd r s hrest
  exact ⟨rfl,hsame⟩

theorem delimited_option {absent present : γ} (hmarks : absent ≠ present)
    (h : Delimited P code) : Delimited (fun o : Option α => ∀ a ∈ o, P a) fun o => match o with
      | none => [absent]
      | some a => present::code a := by
  intro o u ho hu r s hcode
  cases o with
  | none =>
    cases u with
    | none => exact ⟨rfl,List.append_cancel_left hcode⟩
    | some b => exact absurd (List.cons.inj hcode).1 hmarks
  | some a =>
    cases u with
    | none => exact absurd (List.cons.inj hcode).1.symm hmarks
    | some b =>
      obtain ⟨rfl,hrest⟩ := h a b (ho a rfl) (hu b rfl) r s (List.cons.inj hcode).2
      exact ⟨rfl,hrest⟩

theorem delimited_flatMap (h : Delimited P code) {xs ys : List α} (hlength : xs.length = ys.length)
    (hx : ∀ x ∈ xs, P x) (hy : ∀ y ∈ ys, P y) {r s : List γ}
    (hcode : xs.flatMap code++r = ys.flatMap code++s) : xs = ys ∧ r = s := by
  induction xs generalizing ys with
  | nil =>
    obtain rfl := List.length_eq_zero_iff.mp hlength.symm
    exact ⟨rfl,hcode⟩
  | cons x xs ih =>
    cases ys with
    | nil => cases hlength
    | cons y ys =>
      rw [List.flatMap_cons,List.flatMap_cons,List.append_assoc,List.append_assoc] at hcode
      obtain ⟨rfl,hrest⟩ := h x y (hx x List.mem_cons_self) (hy y List.mem_cons_self) _ _ hcode
      obtain ⟨rfl,hsame⟩ := ih (Nat.succ.inj hlength)
        (fun z hz => hx z (List.mem_cons_of_mem _ hz))
        (fun z hz => hy z (List.mem_cons_of_mem _ hz)) hrest
      exact ⟨rfl,hsame⟩

theorem delimited_terminated {mark : γ} (h : Delimited P code)
    (hhead : ∀ a, P a → ∃ c word, code a = c::word ∧ c ≠ mark) :
    Delimited (fun xs : List α => ∀ x ∈ xs, P x) fun xs => xs.flatMap code++[mark] := by
  have hdiffer : ∀ (y : α) (ys : List α) (r s : List γ), P y →
      [mark]++r ≠ (y::ys).flatMap code++[mark]++s := by
    intro y ys r s hy hcode
    obtain ⟨c,word,hword,hc⟩ := hhead y hy
    rw [List.flatMap_cons,hword] at hcode
    exact hc (List.cons.inj hcode).1.symm
  intro xs
  induction xs with
  | nil =>
    intro ys _ hys r s hcode
    cases ys with
    | nil => exact ⟨rfl,List.append_cancel_left hcode⟩
    | cons y ys => exact absurd hcode (hdiffer y ys r s (hys y List.mem_cons_self))
  | cons x xs ih =>
    intro ys hxs hys r s hcode
    cases ys with
    | nil => exact absurd hcode.symm (hdiffer x xs s r (hxs x List.mem_cons_self))
    | cons y ys =>
      change (x::xs).flatMap code++[mark]++r = (y::ys).flatMap code++[mark]++s at hcode
      rw [List.flatMap_cons,List.flatMap_cons,List.append_assoc,List.append_assoc,List.append_assoc,
        List.append_assoc] at hcode
      obtain ⟨rfl,hrest⟩ := h x y (hxs x List.mem_cons_self) (hys y List.mem_cons_self) _ _ hcode
      rw [← List.append_assoc,← List.append_assoc] at hrest
      obtain ⟨rfl,hsame⟩ := ih ys (fun z hz => hxs z (List.mem_cons_of_mem _ hz))
        (fun z hz => hys z (List.mem_cons_of_mem _ hz)) r s hrest
      exact ⟨rfl,hsame⟩

/-- Words before a mark that does not occur in them. -/
theorem delimited_until {mark : γ} (hmark : ∀ a, P a → mark ∉ code a)
    (hinj : ∀ a b, P a → P b → code a = code b → a = b) : Delimited P fun a => code a++[mark] := by
  have hletters : Delimited (fun c : γ => c ≠ mark) fun c => [c] :=
    delimited_fixed (fun _ _ => rfl) fun _ _ _ _ h => List.singleton_inj.mp h
  have hwords := delimited_terminated hletters fun c hc => ⟨c,[],rfl,hc⟩
  intro a b ha hb r s hcode
  have hne : ∀ x, P x → ∀ c ∈ code x, c ≠ mark := by
    rintro x hx c hc rfl
    exact hmark x hx hc
  have hspelt : ∀ word : List γ, word.flatMap (fun c => [c]) = word := List.flatMap_singleton'
  have hsame : (code a).flatMap (fun c => [c])++[mark]++r =
      (code b).flatMap (fun c => [c])++[mark]++s := by
    rw [hspelt,hspelt]
    exact hcode
  obtain ⟨hword,hrest⟩ := hwords (code a) (code b) (hne a ha) (hne b hb) r s hsame
  exact ⟨hinj a b ha hb hword,hrest⟩

theorem delimited_counted {limit : ℕ} {count : ℕ → List γ} (hcount : Delimited (· < limit) count)
    (h : Delimited P code) :
    Delimited (fun xs : List α => xs.length < limit ∧ ∀ x ∈ xs, P x)
      fun xs => count xs.length++xs.flatMap code := by
  rintro xs ys ⟨hxs,hx⟩ ⟨hys,hy⟩ r s hcode
  rw [List.append_assoc,List.append_assoc] at hcode
  obtain ⟨hlength,hrest⟩ := hcount _ _ hxs hys _ _ hcode
  exact delimited_flatMap h hlength hx hy hrest

theorem delimited_raw {limit : ℕ} {count : ℕ → List γ} (hcount : Delimited (· < limit) count) :
    Delimited (fun xs : List γ => xs.length < limit) fun xs => count xs.length++xs := by
  intro xs ys hxs hys r s hcode
  rw [List.append_assoc,List.append_assoc] at hcode
  obtain ⟨hlength,hrest⟩ := hcount _ _ hxs hys _ _ hcode
  exact List.append_inj hrest hlength

/-- `int.to_bytes(width, "big")` of a number that fits. -/
def toBytes : ℕ → ℕ → List UInt8
  | 0, _ => []
  | width+1, n => toBytes width (n/256)++[UInt8.ofNat (n%256)]

theorem toBytes_length (width n : ℕ) : (toBytes width n).length = width := by
  induction width generalizing n with
  | zero => rfl
  | succ width ih => rw [toBytes,List.length_append,ih,List.length_singleton]

theorem toBytes_inj {width n m : ℕ} (hn : n < 256^width) (hm : m < 256^width)
    (h : toBytes width n = toBytes width m) : n = m := by
  induction width generalizing n m with
  | zero =>
    rw [Nat.pow_zero] at hn hm
    omega
  | succ width ih =>
    rw [Nat.pow_succ] at hn hm
    rw [toBytes,toBytes] at h
    obtain ⟨hfront,hlast⟩ := List.append_inj' h rfl
    have hdiv : n/256 = m/256 := ih (by omega) (by omega) hfront
    have hmod : n%256 = m%256 := by
      have hnat := congrArg UInt8.toNat (List.singleton_inj.mp hlast)
      rw [UInt8.toNat_ofNat',UInt8.toNat_ofNat'] at hnat
      omega
    omega

theorem toBytes_delimited (width : ℕ) : Delimited (· < 256^width) (toBytes width) :=
  delimited_fixed (fun n _ => toBytes_length width n) fun _ _ hn hm h => toBytes_inj hn hm h

/-- Lists of delimited words that are not empty are told apart at their ends. -/
theorem delimited_words (h : Delimited P code) (hne : ∀ a, P a → code a ≠ []) {xs ys : List α}
    (hx : ∀ x ∈ xs, P x) (hy : ∀ y ∈ ys, P y) (hcode : xs.flatMap code = ys.flatMap code) :
    xs = ys := by
  induction xs generalizing ys with
  | nil =>
    cases ys with
    | nil => rfl
    | cons y ys =>
      rw [List.flatMap_nil,List.flatMap_cons] at hcode
      exact absurd (List.append_eq_nil_iff.mp hcode.symm).1 (hne y (hy y List.mem_cons_self))
  | cons x xs ih =>
    cases ys with
    | nil =>
      rw [List.flatMap_nil,List.flatMap_cons] at hcode
      exact absurd (List.append_eq_nil_iff.mp hcode).1 (hne x (hx x List.mem_cons_self))
    | cons y ys =>
      rw [List.flatMap_cons,List.flatMap_cons] at hcode
      obtain ⟨hfirst,hrest⟩ :=
        h x y (hx x List.mem_cons_self) (hy y List.mem_cons_self) _ _ hcode
      rw [hfirst,ih (fun z hz => hx z (List.mem_cons_of_mem _ hz))
        (fun z hz => hy z (List.mem_cons_of_mem _ hz)) hrest]

theorem joined_inj {mark : γ} [DecidableEq γ] {fields others : List (List γ)}
    (hfields : ∀ field ∈ fields, mark ∉ field) (hothers : ∀ field ∈ others, mark ∉ field)
    (hne : fields ≠ []) (hne' : others ≠ [])
    (h : [mark].intercalate fields = [mark].intercalate others) : fields = others := by
  rw [← List.splitOn_intercalate mark hfields hne,h,List.splitOn_intercalate mark hothers hne']

end Codes
