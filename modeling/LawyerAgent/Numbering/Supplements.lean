import Mathlib.Data.List.Basic
import Mathlib.Data.List.Range

/-!
# Numbers with supplements

A label is a number or a numbered supplement of a number. A reader goes from
each number to the next one, or to the next supplement of the same number.
-/

set_option autoImplicit false

namespace Numbering

def advance (current : ℕ × ℕ) : ℕ × Option ℕ → Option (ℕ × ℕ)
  | (number,none) => if number = current.1+1 then some (number,0) else none
  | (number,some part) =>
    if number = current.1 ∧ part = current.2+1 then some (number,part) else none

def walk : ℕ × ℕ → List (ℕ × Option ℕ) → Option (ℕ × ℕ)
  | current, [] => some current
  | current, label::labels => (advance current label).bind fun next => walk next labels

def supplements (number first count : ℕ) : List (ℕ × Option ℕ) :=
  (List.range' first count).map fun part => (number,some part)

/-- The numbers from one on, each followed by so many supplements. -/
def runFrom : ℕ → List ℕ → List (ℕ × Option ℕ)
  | _, [] => []
  | number, count::counts =>
    (number,none)::(supplements number 1 count++runFrom (number+1) counts)

theorem walk_run {n j : ℕ} {labels : List (ℕ × Option ℕ)} :
    (walk (n,j) labels).isSome = true ↔ ∃ count counts,
      labels = supplements n (j+1) count++runFrom (n+1) counts := by
  induction labels generalizing n j with
  | nil =>
    constructor
    · exact fun _ => ⟨0,[],rfl⟩
    · exact fun _ => rfl
  | cons label labels ih =>
    obtain ⟨m,part⟩ := label
    cases part with
    | none =>
      by_cases hm : m = n+1
      · subst hm
        have hstep : walk (n,j) ((n+1,none)::labels) = walk (n+1,0) labels := by
          simp [walk,advance]
        rw [hstep,ih]
        constructor
        · rintro ⟨count,counts,rfl⟩
          exact ⟨0,count::counts,rfl⟩
        · rintro ⟨count,counts,h⟩
          cases count with
          | succ count => simp [supplements,List.range'_succ] at h
          | zero =>
            cases counts with
            | nil => simp [supplements,runFrom] at h
            | cons count counts => exact ⟨count,counts,(List.cons.inj h).2⟩
      · have hstep : walk (n,j) ((m,none)::labels) = none := by simp [walk,advance,hm]
        rw [hstep]
        constructor
        · exact fun h => absurd h Bool.false_ne_true
        · rintro ⟨count,counts,h⟩
          cases count with
          | succ count => simp [supplements,List.range'_succ] at h
          | zero =>
            cases counts with
            | nil => simp [supplements,runFrom] at h
            | cons count counts => exact absurd (Prod.mk.inj (List.cons.inj h).1).1 hm
    | some part =>
      by_cases hm : m = n ∧ part = j+1
      · obtain ⟨rfl,rfl⟩ := hm
        have hstep : walk (m,j) ((m,some (j+1))::labels) = walk (m,j+1) labels := by
          simp [walk,advance]
        rw [hstep,ih]
        constructor
        · rintro ⟨count,counts,rfl⟩
          exact ⟨count+1,counts,by simp [supplements,List.range'_succ]⟩
        · rintro ⟨count,counts,h⟩
          cases count with
          | zero => cases counts <;> simp [supplements,runFrom] at h
          | succ count =>
            refine ⟨count,counts,?_⟩
            simpa [supplements,List.range'_succ] using h
      · have hstep : walk (n,j) ((m,some part)::labels) = none := by simp [walk,advance,hm]
        rw [hstep]
        constructor
        · exact fun h => absurd h Bool.false_ne_true
        · rintro ⟨count,counts,h⟩
          cases count with
          | zero => cases counts <;> simp [supplements,runFrom] at h
          | succ count =>
            simp only [supplements,List.range'_succ,List.map_cons,List.cons_append,
              List.cons.injEq,Prod.mk.injEq,Option.some.injEq] at h
            exact absurd h.1 hm

theorem walk_start {labels : List (ℕ × Option ℕ)} (h : ∀ label ∈ labels, 0 < label.1) :
    (walk (0,0) labels).isSome = true ↔ ∃ counts, labels = runFrom 1 counts := by
  rw [walk_run]
  constructor
  · rintro ⟨count,counts,rfl⟩
    cases count with
    | zero => exact ⟨counts,rfl⟩
    | succ count =>
      have hzero := h (0,some 1) (by simp [supplements,List.range'_succ])
      exact absurd hzero (Nat.lt_irrefl 0)
  · rintro ⟨counts,rfl⟩
    exact ⟨0,counts,rfl⟩

end Numbering
