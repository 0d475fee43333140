import Mathlib.Data.List.Basic

/-!
# Reads one after the other

The items of a list are read in order and every read has the number of its
call, so that one item may be read twice with different results.
-/

set_option autoImplicit false

namespace Outcomes

variable {α β : Type} {read : ℕ → α → β → Prop}

inductive Numbered (read : ℕ → α → β → Prop) : ℕ → List α → List β → Prop
  | nil (n : ℕ) : Numbered read n [] []
  | cons {n : ℕ} {a : α} {b : β} {as : List α} {bs : List β} (head : read n a b)
      (tail : Numbered read (n+1) as bs) : Numbered read n (a::as) (b::bs)

theorem numbered_length {n : ℕ} {as : List α} {bs : List β} (h : Numbered read n as bs) :
    bs.length = as.length := by
  induction h with
  | nil => rfl
  | cons _ _ ih => exact congrArg Nat.succ ih

theorem numbered_get {n : ℕ} {as : List α} {bs : List β} (h : Numbered read n as bs) {i : ℕ}
    {a : α} (hi : as[i]? = some a) : ∃ b, bs[i]? = some b ∧ read (n+i) a b := by
  induction h generalizing i with
  | nil => cases hi
  | cons hread hrest ih =>
    cases i with
    | zero =>
      cases hi
      exact ⟨_,rfl,hread⟩
    | succ i =>
      have hlater := ih (i := i) hi
      rw [Nat.add_assoc,Nat.add_comm 1 i] at hlater
      exact hlater

theorem numbered_forall {n : ℕ} {as : List α} {bs : List β} (h : Numbered read n as bs)
    {good : α → β → Prop}
    (hgood : ∀ (i : ℕ) (a : α) (b : β), as[i]? = some a → read (n+i) a b → good a b) :
    List.Forall₂ good as bs := by
  induction h with
  | nil => exact .nil
  | cons hread _ ih =>
    apply List.Forall₂.cons
    · exact hgood 0 _ _ rfl hread
    · apply ih
      intro i a b hi hlater
      rw [Nat.add_assoc,Nat.add_comm 1 i] at hlater
      exact hgood (i+1) a b hi hlater

end Outcomes
