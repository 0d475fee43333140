import Mathlib.Algebra.Order.Monoid.Defs
import Mathlib.Data.List.Sort
import Mathlib.Data.Prod.Lex

/-!
# Scores by position

A list gives an item the sum of the weights of the positions the item stands at.
The place of an item in a strictly sorted list is the number of the items with a
smaller key, so what lowers no other item under it does not move it back.
-/

set_option autoImplicit false

namespace Ranking

variable {α κ : Type}

section Score

variable [DecidableEq α] [AddCommMonoid κ]

/-- The weights of the positions of `a`, the list starting at position `start`. -/
def score (weight : ℕ → κ) (a : α) : ℕ → List α → κ
  | _, [] => 0
  | start, b::l => (if b = a then weight start else 0)+score weight a (start+1) l

variable {weight : ℕ → κ} {a : α}

theorem score_append (start : ℕ) (l l' : List α) :
    score weight a start (l++l') = score weight a start l+score weight a (start+l.length) l' := by
  induction l generalizing start with
  | nil => simp [score]
  | cons b l ih =>
    simp only [List.cons_append,score,ih (start+1),List.length_cons]
    have hstart : start+1+l.length = start+(l.length+1) := by omega
    rw [hstart,add_assoc]

theorem score_between (front middle back : List α) :
    score weight a 0 (front++(middle++back)) = score weight a 0 front+
      (score weight a front.length middle+score weight a (front.length+middle.length) back) := by
  rw [score_append,score_append,Nat.zero_add]

theorem score_map {β : Type} [DecidableEq β] {f : α → β} (hf : Function.Injective f) (start : ℕ)
    (l : List α) : score weight (f a) start (l.map f) = score weight a start l := by
  induction l generalizing start with
  | nil => rfl
  | cons b l ih =>
    simp only [List.map_cons,score,hf.eq_iff,ih (start+1)]

variable [PartialOrder κ] [IsOrderedAddMonoid κ]

theorem score_moved (hw : Antitone weight) (start : ℕ) (block : List α) :
    score weight a start (block++[a]) ≤ score weight a start (a::block) := by
  induction block generalizing start with
  | nil => exact le_refl _
  | cons b block ih =>
    have htail := ih (start+1)
    have hstep : weight (start+1) ≤ weight start := hw (Nat.le_succ start)
    by_cases hb : b = a
    · calc score weight a start (b::block++[a])
          = weight start+score weight a (start+1) (block++[a]) := by simp [score,hb]
        _ ≤ weight start+score weight a (start+1) (a::block) := by gcongr
        _ = score weight a start (a::b::block) := by simp [score,hb]
    · calc score weight a start (b::block++[a])
          = score weight a (start+1) (block++[a]) := by simp [score,hb]
        _ ≤ score weight a (start+1) (a::block) := htail
        _ = weight (start+1)+score weight a (start+1+1) block := by simp [score]
        _ ≤ weight start+score weight a (start+1+1) block := by gcongr
        _ = score weight a start (a::b::block) := by simp [score,hb]

theorem score_passed (hw : Antitone weight) {b : α} (hb : b ≠ a) (start : ℕ) (block : List α) :
    score weight b start (a::block) ≤ score weight b start (block++[a]) := by
  have hlater : ∀ start, score weight b (start+1) block ≤ score weight b start block := by
    intro start
    induction block generalizing start with
    | nil => exact le_refl _
    | cons c block ih =>
      have hstep : weight (start+1) ≤ weight start := hw (Nat.le_succ start)
      simp only [score]
      apply add_le_add _ (ih (start+1))
      split
      · exact hstep
      · exact le_refl _
  calc score weight b start (a::block)
      = score weight b (start+1) block := by simp [score,Ne.symm hb]
    _ ≤ score weight b start block := hlater start
    _ = score weight b start (block++[a]) := by simp [score_append,score,Ne.symm hb]

variable (front block back : List α)

theorem score_moved_within (hw : Antitone weight) :
    score weight a 0 (front++block++a::back) ≤ score weight a 0 (front++a::(block++back)) := by
  have hmoved := score_moved (a := a) hw front.length block
  have hleft : front++block++a::back = front++((block++[a])++back) := by simp
  have hright : front++a::(block++back) = front++((a::block)++back) := by simp
  have hlength : (block++[a]).length = (a::block).length := by simp
  rw [hleft,hright,score_between,score_between,hlength]
  gcongr

theorem score_passed_within (hw : Antitone weight) {b : α} (hb : b ≠ a) :
    score weight b 0 (front++a::(block++back)) ≤ score weight b 0 (front++block++a::back) := by
  have hpassed := score_passed hw hb front.length block
  have hleft : front++block++a::back = front++((block++[a])++back) := by simp
  have hright : front++a::(block++back) = front++((a::block)++back) := by simp
  have hlength : (block++[a]).length = (a::block).length := by simp
  rw [hleft,hright,score_between,score_between,hlength]
  gcongr

end Score

section Place

variable [DecidableEq α] [LinearOrder κ]

theorem idxOf_sorted {key : α → κ} {l : List α} (h : l.Pairwise fun a b => key a < key b) {a : α}
    (ha : a ∈ l) : l.idxOf a = l.countP fun b => key b < key a := by
  induction l with
  | nil => exact absurd ha List.not_mem_nil
  | cons b l ih =>
    obtain ⟨hfirst,hrest⟩ := List.pairwise_cons.mp h
    by_cases hb : b = a
    · have hnone : l.countP (fun c => key c < key a) = 0 := by
        apply List.countP_eq_zero.mpr
        intro c hc
        simp [← hb,not_lt.mpr (hfirst c hc).le]
      rw [List.countP_cons,hnone,hb]
      simp
    · have hmem : a ∈ l := (List.mem_cons.mp ha).resolve_left (Ne.symm hb)
      rw [List.idxOf_cons_ne _ hb,ih hrest hmem,List.countP_cons]
      simp [hfirst a hmem]

theorem idxOf_le {key key' : α → κ} {l l' : List α} (hperm : l.Perm l')
    (h : l.Pairwise fun a b => key a < key b) (h' : l'.Pairwise fun a b => key' a < key' b) {a : α}
    (ha : a ∈ l) (hbefore : ∀ b ∈ l, key' b < key' a → key b < key a) :
    l'.idxOf a ≤ l.idxOf a := by
  rw [idxOf_sorted h ha,idxOf_sorted h' (hperm.mem_iff.mp ha),← hperm.countP_eq]
  apply List.countP_mono_left
  intro b hb hlt
  exact decide_eq_true (hbefore b hb (of_decide_eq_true hlt))

end Place

end Ranking
