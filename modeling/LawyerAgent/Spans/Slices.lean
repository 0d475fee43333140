import Mathlib.Data.List.Basic
import Mathlib.Data.List.Chain
import Mathlib.Data.List.Pairwise

/-!
# Slices of increasing items

The items of a list whose places lie in a range. Where the places increase, the
range that is carried on to the next item gains just this item.
-/

set_option autoImplicit false

namespace Spans

variable {α : Type} (place : α → ℕ)

def slice (start stop : ℕ) (items : List α) : List α :=
  items.filter fun x => start ≤ place x && place x < stop

variable {place}

theorem slice_append (start stop : ℕ) (xs ys : List α) :
    slice place start stop (xs++ys) = slice place start stop xs++slice place start stop ys :=
  List.filter_append ..

variable {items : List α}

theorem slice_below {start stop stop' : ℕ} (h : ∀ x ∈ items, place x < stop)
    (h' : ∀ x ∈ items, place x < stop') :
    slice place start stop items = slice place start stop' items := by
  refine List.filter_congr fun x hx => ?_
  rw [decide_eq_true (h x hx),decide_eq_true (h' x hx)]

theorem slice_above {start stop : ℕ} (h : ∀ x ∈ items, stop ≤ place x) :
    slice place start stop items = [] := by
  rw [slice,List.filter_eq_nil_iff]
  intro x hx
  rw [decide_eq_false (not_lt.mpr (h x hx)),Bool.and_false]
  exact Bool.false_ne_true

theorem slice_cons {start stop : ℕ} {x : α} (hstart : start ≤ place x) (hstop : place x < stop) :
    slice place start stop (x::items) = x::slice place start stop items := by
  rw [slice,List.filter_cons_of_pos]
  · rfl
  · rw [decide_eq_true hstart,decide_eq_true hstop]
    rfl

theorem chain_of_split {R : α → α → Prop}
    (h : ∀ before x y after, items = before++x::y::after → R x y) : items.IsChain R := by
  induction items with
  | nil => exact .nil
  | cons x items ih =>
    cases items with
    | nil => exact .singleton x
    | cons y items =>
      refine List.isChain_cons_cons.mpr ⟨h [] x y items rfl,ih ?_⟩
      intro before a b after hsplit
      exact h (x::before) a b after (by rw [hsplit,List.cons_append])

theorem slices_chain (h : items.Pairwise fun x y => place x < place y) :
    items.IsChain fun x y => ∀ start ≤ place x,
      slice place start (place y+1) items = slice place start (place x+1) items++[y] := by
  refine chain_of_split ?_
  rintro before x y after rfl start hstart
  obtain ⟨-,hlater,hbefore⟩ := List.pairwise_append.mp h
  obtain ⟨hx,hrest⟩ := List.pairwise_cons.mp hlater
  obtain ⟨hy,-⟩ := List.pairwise_cons.mp hrest
  have hxy : place x < place y := hx y List.mem_cons_self
  have hbelow : ∀ z ∈ before, place z < place x := fun z hz => hbefore z hz x List.mem_cons_self
  have hleft : slice place start (place y+1) before = slice place start (place x+1) before :=
    slice_below (fun z hz => by have := hbelow z hz; omega) fun z hz => by
      have := hbelow z hz
      omega
  have hnone : slice place start (place x+1) (y::after) = [] := by
    refine slice_above fun z hz => ?_
    rcases List.mem_cons.mp hz with rfl | hz
    · exact hxy
    · have := hy z hz
      omega
  have hafter : slice place start (place y+1) after = [] := slice_above fun z hz => hy z hz
  rw [slice_append,slice_append,hleft,slice_cons hstart (by omega),slice_cons (by omega) (by omega),
    slice_cons hstart (by omega),hnone,hafter,List.append_assoc]
  rfl

theorem slice_single (h : items.Pairwise fun x y => place x < place y) {x : α} (hx : x ∈ items) :
    slice place (place x) (place x+1) items = [x] := by
  obtain ⟨before,after,rfl⟩ := List.append_of_mem hx
  obtain ⟨-,hlater,hbefore⟩ := List.pairwise_append.mp h
  have hleft : slice place (place x) (place x+1) before = [] := by
    rw [slice,List.filter_eq_nil_iff]
    intro z hz
    have hlow : ¬place x ≤ place z := not_le.mpr (hbefore z hz x List.mem_cons_self)
    rw [decide_eq_false hlow,Bool.false_and]
    exact Bool.false_ne_true
  have hright : slice place (place x) (place x+1) after = [] :=
    slice_above fun z hz => (List.pairwise_cons.mp hlater).1 z hz
  rw [slice_append,hleft,slice_cons le_rfl (Nat.lt_succ_self _),hright]
  rfl

theorem slice_zipIdx (items : List α) (first start stop : ℕ) :
    (slice Prod.snd start stop (items.zipIdx first)).map Prod.fst =
      (items.take (stop-first)).drop (start-first) := by
  induction items generalizing first with
  | nil => simp [slice]
  | cons x items ih =>
    rw [List.zipIdx_cons]
    by_cases hstop : first < stop
    · have hcount : stop-first = (stop-(first+1))+1 := by omega
      by_cases hstart : start ≤ first
      · have hzero : start-first = 0 := by omega
        have hzero' : start-(first+1) = 0 := by omega
        rw [slice_cons hstart hstop,List.map_cons,ih,hcount,hzero,hzero',List.take_succ_cons]
        rfl
      · have hskip : slice Prod.snd start stop ((x,first)::items.zipIdx (first+1)) =
            slice Prod.snd start stop (items.zipIdx (first+1)) := by
          rw [slice,List.filter_cons_of_neg]
          · rfl
          · rw [decide_eq_false hstart,Bool.false_and]
            exact Bool.false_ne_true
        have hsucc : start-first = (start-(first+1))+1 := by omega
        rw [hskip,ih,hcount,hsucc,List.take_succ_cons,List.drop_succ_cons]
    · have hempty : stop-first = 0 := by omega
      have hempty' : stop-(first+1) = 0 := by omega
      have hskip : slice Prod.snd start stop ((x,first)::items.zipIdx (first+1)) =
          slice Prod.snd start stop (items.zipIdx (first+1)) := by
        rw [slice,List.filter_cons_of_neg]
        · rfl
        · rw [decide_eq_false hstop,Bool.and_false]
          exact Bool.false_ne_true
      rw [hskip,ih,hempty,hempty',List.take_zero,List.take_zero,List.drop_nil,List.drop_nil]

end Spans

namespace Spans

variable {α : Type}

def Occurs (text word : List α) (i : ℕ) : Prop := i ≤ text.length ∧ word <+: text.drop i

variable [DecidableEq α]

/-- The first occurrence at `start` or behind it. -/
def find (text word : List α) (start : ℕ) : Option ℕ :=
  (List.range' start (text.length+1-start)).find? fun i => word.isPrefixOf (text.drop i)

theorem find_some {text word : List α} {start i : ℕ} (h : find text word start = some i) :
    start ≤ i ∧ Occurs text word i ∧ ∀ j, start ≤ j → j < i → ¬Occurs text word j := by
  obtain ⟨hword,before,after,hrange,hfirst⟩ := List.find?_eq_some_iff_append.mp h
  have hi : i ∈ List.range' start (text.length+1-start) := by simp [hrange]
  rw [List.mem_range'_1] at hi
  refine ⟨hi.1,⟨by omega,List.isPrefixOf_iff_prefix.mp hword⟩,?_⟩
  intro j hlow hhigh hoccurs
  have hj : j ∈ before := by
    have hmem : j ∈ List.range' start (text.length+1-start) := by
      rw [List.mem_range'_1]
      omega
    rw [hrange,List.mem_append] at hmem
    refine hmem.resolve_right fun hlater => ?_
    have hsorted : (List.range' start (text.length+1-start)).Pairwise (· < ·) :=
      List.pairwise_lt_range'
    rw [hrange,List.pairwise_append,List.pairwise_cons] at hsorted
    rcases List.mem_cons.mp hlater with rfl | hlater
    · omega
    · have hbehind := hsorted.2.1.1 j hlater
      omega
  have hno := hfirst j hj
  rw [List.isPrefixOf_iff_prefix.mpr hoccurs.2] at hno
  cases hno

theorem find_none {text word : List α} {start : ℕ} (h : find text word start = none) (j : ℕ)
    (hj : start ≤ j) : ¬Occurs text word j := by
  intro hoccurs
  have hmem : j ∈ List.range' start (text.length+1-start) := by
    rw [List.mem_range'_1]
    have := hoccurs.1
    omega
  exact List.find?_eq_none.mp h j hmem (List.isPrefixOf_iff_prefix.mpr hoccurs.2)

theorem find_unique {text word : List α} {i : ℕ} (h : find text word 0 = some i)
    (hagain : find text word (i+1) = none) : ∃! j, Occurs text word j := by
  obtain ⟨-,hoccurs,hfirst⟩ := find_some h
  refine ⟨i,hoccurs,?_⟩
  intro j hj
  by_contra hne
  rcases Nat.lt_or_gt_of_ne hne with hlow | hhigh
  · exact hfirst j (Nat.zero_le j) hlow hj
  · exact find_none hagain j hhigh hj

end Spans
