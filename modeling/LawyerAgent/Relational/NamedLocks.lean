import Mathlib.Logic.Function.Basic
import Mathlib.Data.Nat.Notation

/-!
# Named locks

Any number of holders, each with the names it holds. A name is taken where no
other holder has it. A holder that needs several names takes them one after
another, so two holders whose needs overlap are never both done with taking.
-/

set_option autoImplicit false

namespace Relational

variable {κ : Type}

def Exclusive (held : ℕ → List κ) : Prop := ∀ i j key, key ∈ held i → key ∈ held j → i = j

variable {held : ℕ → List κ}

theorem exclusive_change (h : Exclusive held) (i : ℕ) {names : List κ}
    (hnames : ∀ key ∈ names, key ∈ held i ∨ ∀ j, j ≠ i → key ∉ held j) :
    Exclusive (Function.update held i names) := by
  have hmine : ∀ j key, j ≠ i → key ∈ names → key ∉ held j := by
    intro j key hj hkey hheld
    rcases hnames key hkey with hi | hfree
    · exact hj (h j i key hheld hi)
    · exact hfree j hj hheld
  intro j k key hj hk
  by_cases hji : j = i
  · by_cases hki : k = i
    · rw [hji,hki]
    · rw [hji,Function.update_self] at hj
      rw [Function.update_of_ne hki] at hk
      exact absurd hk (hmine k key hki hj)
  · rw [Function.update_of_ne hji] at hj
    by_cases hki : k = i
    · rw [hki,Function.update_self] at hk
      exact absurd hj (hmine j key hji hk)
    · rw [Function.update_of_ne hki] at hk
      exact h j k key hj hk

theorem exclusive_take (h : Exclusive held) {i : ℕ} {name : κ}
    (hfree : ∀ j, j ≠ i → name ∉ held j) :
    Exclusive (Function.update held i (name::held i)) := by
  apply exclusive_change h
  intro key hkey
  cases hkey with
  | head => exact Or.inr hfree
  | tail _ hkey => exact Or.inl hkey

theorem exclusive_release (h : Exclusive held) (i : ℕ) :
    Exclusive (Function.update held i []) := by
  apply exclusive_change h
  intro key hkey
  cases hkey

/-- Of the names that are needed, those not held are still to be taken. -/
def Taking (needed held rest : List κ) : Prop := ∀ key ∈ needed, key ∈ held ∨ key ∈ rest

theorem taking_start (needed held : List κ) : Taking needed held needed := fun _ => Or.inr

theorem taking_next {needed held rest : List κ} {name : κ} (h : Taking needed held (name::rest)) :
    Taking needed (name::held) rest := by
  intro key hkey
  rcases h key hkey with hheld | hrest
  · exact Or.inl (List.mem_cons_of_mem _ hheld)
  · cases hrest with
    | head => exact Or.inl List.mem_cons_self
    | tail _ hrest => exact Or.inr hrest

theorem taken_all {needed held : List κ} (h : Taking needed held []) {key : κ}
    (hkey : key ∈ needed) : key ∈ held := by
  rcases h key hkey with hheld | hnil
  · exact hheld
  · cases hnil

theorem taken_alone (h : Exclusive held) {i j : ℕ} {mine others : List κ}
    (hi : Taking mine (held i) []) (hj : Taking others (held j) []) {key : κ} (hmine : key ∈ mine)
    (hothers : key ∈ others) : i = j :=
  h i j key (taken_all hi hmine) (taken_all hj hothers)

end Relational
