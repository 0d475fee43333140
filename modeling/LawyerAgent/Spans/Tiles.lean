import Mathlib.Data.Int.Order.Basic
import Mathlib.Data.List.Basic

/-!
# Items that tile a range

Nonempty items inside a range, their starts in strict order, which leave no
place of the range out. They may overlap. Tilings of neighbouring ranges join.
-/

set_option autoImplicit false

namespace Spans

variable {α β : Type}

structure Tiles (start stop : α → ℕ) (a b : ℕ) (items : List α) : Prop where
  inside : ∀ x ∈ items, a ≤ start x ∧ start x < stop x ∧ stop x ≤ b
  order : items.Pairwise fun x y => start x < start y
  covers : ∀ i, a ≤ i → i < b → ∃ x ∈ items, start x ≤ i ∧ i < stop x

variable {start stop : α → ℕ} {a b c : ℕ}

theorem tiles_nil (a : ℕ) : Tiles start stop a a [] where
  inside := by simp
  order := List.Pairwise.nil
  covers := by
    intro i hlow hhigh
    omega

theorem tiles_cons {x : α} {items : List α} (hx : start x = a) (hnext : a < b)
    (hgap : b ≤ stop x) (hstop : stop x ≤ c) (h : Tiles start stop b c items) :
    Tiles start stop a c (x::items) := by
  constructor
  · intro y hy
    rcases List.mem_cons.mp hy with rfl | hy
    · omega
    · obtain ⟨hlow,hlength,hhigh⟩ := h.inside y hy
      exact ⟨by omega,hlength,hhigh⟩
  · rw [List.pairwise_cons]
    refine ⟨fun y hy => ?_,h.order⟩
    have hlow := (h.inside y hy).1
    omega
  · intro i hlow hhigh
    by_cases hi : i < stop x
    · exact ⟨x,List.mem_cons_self,by omega,hi⟩
    · obtain ⟨y,hy,hin⟩ := h.covers i (by omega) hhigh
      exact ⟨y,List.mem_cons_of_mem _ hy,hin⟩

theorem tiles_single {x : α} (hx : start x = a) (hstop : stop x = b) (h : a < b) :
    Tiles start stop a b [x] :=
  tiles_cons hx h (by omega) (by omega) (tiles_nil b)

theorem tiles_append {xs ys : List α} (hab : a ≤ b) (hbc : b ≤ c) (hx : Tiles start stop a b xs)
    (hy : Tiles start stop b c ys) : Tiles start stop a c (xs++ys) := by
  constructor
  · intro z hz
    rcases List.mem_append.mp hz with hz | hz
    · obtain ⟨hlow,hlength,hhigh⟩ := hx.inside z hz
      exact ⟨hlow,hlength,by omega⟩
    · obtain ⟨hlow,hlength,hhigh⟩ := hy.inside z hz
      exact ⟨by omega,hlength,hhigh⟩
  · rw [List.pairwise_append]
    refine ⟨hx.order,hy.order,fun x hxs y hys => ?_⟩
    have hxin := hx.inside x hxs
    have hyin := hy.inside y hys
    omega
  · intro i hlow hhigh
    by_cases hi : i < b
    · obtain ⟨x,hx,hin⟩ := hx.covers i hlow hi
      exact ⟨x,List.mem_append_left _ hx,hin⟩
    · obtain ⟨y,hy,hin⟩ := hy.covers i (by omega) hhigh
      exact ⟨y,List.mem_append_right _ hy,hin⟩

theorem tiles_shift {first last : β → ℕ} {move : α → β} {n : ℕ} {items : List α}
    (hfirst : ∀ x, first (move x) = n+start x) (hlast : ∀ x, last (move x) = n+stop x)
    (h : Tiles start stop a b items) : Tiles first last (n+a) (n+b) (items.map move) := by
  constructor
  · intro y hy
    obtain ⟨x,hx,rfl⟩ := List.mem_map.mp hy
    obtain ⟨hlow,hlength,hhigh⟩ := h.inside x hx
    rw [hfirst,hlast]
    omega
  · rw [List.pairwise_map]
    refine h.order.imp fun {x y} hxy => ?_
    rw [hfirst,hfirst]
    omega
  · intro i hlow hhigh
    obtain ⟨x,hx,hstart,hstop⟩ := h.covers (i-n) (by omega) (by omega)
    refine ⟨move x,List.mem_map_of_mem hx,?_⟩
    rw [hfirst,hlast]
    omega

end Spans

namespace Spans

variable {α : Type} (start stop : α → ℤ)

/-- Every item starts where its predecessor stopped, or before. -/
def Continues : ℤ → List α → Prop
  | _, [] => True
  | cursor, a::items => start a ≤ cursor ∧ Continues (stop a) items

def finish (cursor : ℤ) (items : List α) : ℤ := items.foldl (fun _ a => stop a) cursor

/-- An item that goes on for `n` places after its start, before and after the
place where its successor starts. -/
def Overlaps (n : ℤ) (a b : α) : Prop :=
  start a ≤ start b ∧ stop a-start b = n ∧ stop a ≤ stop b

variable {start stop}

theorem covers_finish {cursor : ℤ} {items : List α} (h : Continues start stop cursor items) :
    ∀ p, cursor ≤ p → p < finish stop cursor items → ∃ a ∈ items, start a ≤ p ∧ p < stop a := by
  induction items generalizing cursor with
  | nil =>
    intro p hlow hhigh
    simp only [finish,List.foldl_nil] at hhigh
    omega
  | cons a items ih =>
    obtain ⟨hstart,hrest⟩ := h
    intro p hlow hhigh
    by_cases hp : p < stop a
    · exact ⟨a,List.mem_cons_self,by omega,hp⟩
    · obtain ⟨b,hb,hin⟩ := ih hrest p (by omega) hhigh
      exact ⟨b,List.mem_cons_of_mem _ hb,hin⟩

/-- Items that start `n` places before their predecessor stops overlap it in
these places exactly when none of them is shorter. -/
theorem overlaps_iff {n : ℤ} {items : List α} (h : items.IsChain fun a b => stop a-start b = n) :
    items.IsChain (Overlaps start stop n) ↔
      (1 < items.length → ∀ a ∈ items, n ≤ stop a-start a) := by
  induction items with
  | nil => simp
  | cons a items ih =>
    cases items with
    | nil => simp
    | cons b items =>
      obtain ⟨hab,hrest⟩ := List.isChain_cons_cons.mp h
      rw [List.isChain_cons_cons,ih hrest]
      constructor
      · rintro ⟨⟨hstart,-,hstop⟩,hlong⟩ - c hc
        have hb : n ≤ stop b-start b := by omega
        rcases List.mem_cons.mp hc with rfl | hc
        · omega
        · cases items with
          | nil =>
            obtain rfl := List.mem_singleton.mp hc
            exact hb
          | cons d items => exact hlong (by simp) c hc
      · intro hlong
        have hall := hlong (by simp)
        have ha := hall a List.mem_cons_self
        have hb := hall b (by simp)
        exact ⟨⟨by omega,hab,by omega⟩,fun _ c hc => hall c (List.mem_cons_of_mem _ hc)⟩

end Spans
