import Mathlib.Algebra.Order.Group.Nat
import Mathlib.Logic.Basic

/-!
# Bisection

A number is searched by halving an interval with a test that may fail. Nothing
is assumed of the test: what is found was tested, and something is found as
soon as the first number of the interval passes.
-/

set_option autoImplicit false

namespace Searching

variable {ε : Type}

/-- The numbers from `low` below `stop` are searched; `accepted` passed before. -/
def bisect (test : ℕ → Except ε Bool) (low stop accepted : ℕ) : Except ε ℕ :=
  if low < stop then
    match test ((low+stop-1)/2) with
    | .error e => .error e
    | .ok true => bisect test ((low+stop-1)/2+1) stop ((low+stop-1)/2)
    | .ok false => bisect test low ((low+stop-1)/2) accepted
  else .ok accepted
termination_by stop-low

variable {test : ℕ → Except ε Bool} {low stop accepted : ℕ}

theorem bisect_found {n : ℕ} (h : bisect test low stop accepted = .ok n) :
    n = accepted ∨ low ≤ n ∧ n < stop ∧ test n = .ok true := by
  induction low, stop, accepted using bisect.induct test with
  | case1 low stop accepted hopen e hmiddle =>
    rw [bisect,if_pos hopen,hmiddle] at h
    cases h
  | case2 low stop accepted hopen hmiddle ih =>
    rw [bisect,if_pos hopen,hmiddle] at h
    have hbound : low ≤ (low+stop-1)/2 ∧ (low+stop-1)/2 < stop := by omega
    rcases ih h with rfl | ⟨hlow,hstop,hn⟩
    · exact .inr ⟨hbound.1,hbound.2,hmiddle⟩
    · exact .inr ⟨by omega,hstop,hn⟩
  | case3 low stop accepted hopen hmiddle ih =>
    rw [bisect,if_pos hopen,hmiddle] at h
    rcases ih h with rfl | ⟨hlow,hstop,hn⟩
    · exact .inl rfl
    · exact .inr ⟨hlow,by omega,hn⟩
  | case4 low stop accepted hclosed =>
    rw [bisect,if_neg hclosed] at h
    cases h
    exact .inl rfl

theorem bisect_first {n : ℕ} (hopen : low < stop) (hlow : test low = .ok true)
    (h : bisect test low stop accepted = .ok n) : low ≤ n ∧ test n = .ok true := by
  induction low, stop, accepted using bisect.induct test with
  | case1 low stop accepted _ e hmiddle =>
    rw [bisect,if_pos hopen,hmiddle] at h
    cases h
  | case2 low stop accepted _ hmiddle _ =>
    rw [bisect,if_pos hopen,hmiddle] at h
    have hbound : low ≤ (low+stop-1)/2 := by omega
    rcases bisect_found h with rfl | ⟨hn,_,hpasses⟩
    · exact ⟨hbound,hmiddle⟩
    · exact ⟨by omega,hpasses⟩
  | case3 low stop accepted _ hmiddle ih =>
    rw [bisect,if_pos hopen,hmiddle] at h
    have hne : (low+stop-1)/2 ≠ low := by
      intro hsame
      rw [hsame,hlow] at hmiddle
      cases hmiddle
    exact ih (by omega) hlow h
  | case4 low stop accepted hclosed => exact absurd hopen hclosed

theorem bisect_error {e : ε} (h : bisect test low stop accepted = .error e) :
    ∃ n, low ≤ n ∧ n < stop ∧ test n = .error e := by
  induction low, stop, accepted using bisect.induct test with
  | case1 low stop accepted hopen e' hmiddle =>
    rw [bisect,if_pos hopen,hmiddle] at h
    cases h
    exact ⟨_,by omega,by omega,hmiddle⟩
  | case2 low stop accepted hopen hmiddle ih =>
    rw [bisect,if_pos hopen,hmiddle] at h
    obtain ⟨n,hlow,hstop,hn⟩ := ih h
    exact ⟨n,by omega,hstop,hn⟩
  | case3 low stop accepted hopen hmiddle ih =>
    rw [bisect,if_pos hopen,hmiddle] at h
    obtain ⟨n,hlow,hstop,hn⟩ := ih h
    exact ⟨n,hlow,by omega,hn⟩
  | case4 low stop accepted hclosed =>
    rw [bisect,if_neg hclosed] at h
    cases h

end Searching
