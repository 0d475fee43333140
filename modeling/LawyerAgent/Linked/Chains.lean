import Mathlib.Data.Fintype.Card
import Mathlib.Data.List.Nodup
import Mathlib.Data.List.Perm.Subperm
import Mathlib.Data.List.Range
import Mathlib.Data.Set.Finite.List
import Mathlib.Logic.Relation

/-!
# Chains in a table of links

A table gives each cell the one after it, and a chain ends at a mark that is no
cell. Cells that are claimed at most once, below a bound, are at most as many
as the bound.
-/

set_option autoImplicit false

namespace Linked

/-- `cells` are the cells met from `start` on until `last`. -/
def Follows (table : List ℕ) (last : ℕ) : ℕ → List ℕ → Prop
  | start, [] => start = last
  | start, cell::cells => start = cell ∧ start ≠ last ∧
    ∃ next, table[cell]? = some next ∧ Follows table last next cells

theorem length_le_of_nodup {cells : List ℕ} {bound : ℕ} (h : cells.Nodup)
    (hbound : ∀ c ∈ cells, c < bound) : cells.length ≤ bound := by
  have hsubset : cells ⊆ List.range bound := fun c hc => List.mem_range.mpr (hbound c hc)
  simpa using (h.subperm hsubset).length_le

end Linked

namespace Linked
open Relation

variable {α : Type} {r : α → α → Prop}

theorem exists_cycle {items : List α} (hne : items ≠ []) (h : ∀ a ∈ items, ∃ b ∈ items, r a b) :
    ∃ a ∈ items, TransGen r a a := by
  by_contra hno
  have hirrefl : Std.Irrefl fun a b : {a // a ∈ items} => TransGen r b.1 a.1 :=
    ⟨fun a ha => hno ⟨a.1,a.2,ha⟩⟩
  have htrans : IsTrans {a // a ∈ items} fun a b => TransGen r b.1 a.1 :=
    ⟨fun _ _ _ hab hbc => hbc.trans hab⟩
  have hfinite : Finite {a // a ∈ items} := List.finite_toSet items
  have hwf := Finite.wellFounded_of_trans_of_irrefl
    fun a b : {a // a ∈ items} => TransGen r b.1 a.1
  obtain ⟨a,ha⟩ := List.exists_mem_of_ne_nil items hne
  apply hwf.induction (C := fun _ => False) ⟨a,ha⟩
  intro m ih
  obtain ⟨b,hb,hstep⟩ := h m.1 m.2
  exact ih ⟨b,hb⟩ (.single hstep)

variable {level : ℕ → α → Prop}

theorem level_lower (h : ∀ a b i, r a b → level i a → ∃ j < i, level j b) {a b : α} {i : ℕ}
    (hab : TransGen r a b) (ha : level i a) : ∃ j < i, level j b := by
  induction hab with
  | single hstep => exact h _ _ i hstep ha
  | tail _ hstep ih =>
    obtain ⟨j,hj,hlevel⟩ := ih
    obtain ⟨k,hk,hnext⟩ := h _ _ j hstep hlevel
    exact ⟨k,hk.trans hj,hnext⟩

theorem no_cycle (h : ∀ a b i, r a b → level i a → ∃ j < i, level j b) {a : α} {i : ℕ}
    (ha : level i a) : ¬TransGen r a a := by
  intro hcycle
  induction i using Nat.strong_induction_on with
  | _ i ih =>
    obtain ⟨j,hj,hlevel⟩ := level_lower h hcycle ha
    exact ih j hj hlevel

end Linked
