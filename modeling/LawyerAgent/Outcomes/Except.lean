import Mathlib.Data.List.Forall2

/-!
# Computations that may fail

Rules for `Except`: what a success of a sequence says of its parts, and
postconditions that name the value of a success and the error of a failure.
-/

set_option autoImplicit false

namespace Outcomes

variable {ε α β σ : Type}

variable {f : α → Except ε β} {x : Except ε α} {E : ε → Prop}

theorem bind_ok {b : β} :
    x >>= f = .ok b ↔ ∃ a, x = .ok a ∧ f a = .ok b := by
  cases x with
  | error e => simp [bind,Except.bind]
  | ok a => simp [bind,Except.bind]

/-- Goes on under a condition and fails with a code otherwise. -/
def require (condition : Prop) [Decidable condition] (code : ε) : Except ε Unit :=
  if condition then .ok () else .error code

theorem require_ok {condition : Prop} [Decidable condition] {code : ε} {u : Unit} :
    require condition code = .ok u ↔ condition := by
  by_cases h : condition <;> simp [require,h]

theorem ok_inj {a b : α} : (.ok a : Except ε α) = .ok b ↔ a = b := by simp

theorem mapM_ok {xs : List α} {ys : List β} :
    xs.mapM f = .ok ys ↔ List.Forall₂ (fun x y => f x = .ok y) xs ys := by
  induction xs generalizing ys with
  | nil =>
    rw [List.mapM_nil,List.forall₂_nil_left_iff]
    exact ok_inj.trans eq_comm
  | cons x xs ih =>
    simp only [List.mapM_cons,bind_ok,List.forall₂_cons_left_iff,← ih]
    constructor
    · rintro ⟨y,hy,zs,hzs,hout⟩
      exact ⟨y,zs,hy,hzs,(ok_inj.mp hout).symm⟩
    · rintro ⟨y,zs,hy,hzs,rfl⟩
      exact ⟨y,hy,zs,hzs,rfl⟩

theorem mapM_mem {xs : List α} {ys : List β} (h : xs.mapM f = .ok ys) :
    ∀ y ∈ ys, ∃ x ∈ xs, f x = .ok y := by
  have hall := mapM_ok.mp h
  clear h
  induction hall with
  | nil => exact fun y hy => absurd hy List.not_mem_nil
  | @cons x y xs ys hxy _ ih =>
    intro z hz
    rcases List.mem_cons.mp hz with rfl | hz
    · exact ⟨x,List.mem_cons_self,hxy⟩
    · obtain ⟨w,hw,hwz⟩ := ih z hz
      exact ⟨w,List.mem_cons_of_mem x hw,hwz⟩

/-- A success has a value in `P`, a failure an error in `E`. -/
inductive Ends (E : ε → Prop) (P : α → Prop) : Except ε α → Prop
  | ok {a : α} (h : P a) : Ends E P (.ok a)
  | error {e : ε} (h : E e) : Ends E P (.error e)

theorem ends_bind {P : α → Prop} {Q : β → Prop} (h : Ends E P x) (hf : ∀ a, P a → Ends E Q (f a)) :
    Ends E Q (x >>= f) := by
  cases h with
  | ok h => exact hf _ h
  | error h => exact .error h

theorem ends_mono {P Q : α → Prop} (h : Ends E P x) (hPQ : ∀ a, P a → Q a) : Ends E Q x := by
  cases h with
  | ok h => exact .ok (hPQ _ h)
  | error h => exact .error h

theorem ends_error {P : α → Prop} {e : ε} (h : Ends E P (.error e)) : E e := by
  cases h with
  | error h => exact h

end Outcomes

namespace Outcomes

variable {α β : Type}

theorem mapM_some {f : α → Option β} {xs : List α} {ys : List β} :
    xs.mapM f = some ys ↔ List.Forall₂ (fun x y => f x = some y) xs ys := by
  induction xs generalizing ys with
  | nil => simp [eq_comm]
  | cons x xs ih =>
    rw [List.mapM_cons,List.forall₂_cons_left_iff]
    simp only [Option.bind_eq_bind,Option.bind_eq_some_iff,Option.pure_def,Option.some_inj,ih]
    constructor
    · rintro ⟨y,hy,rest,hrest,hys⟩
      exact ⟨y,rest,hy,hrest,hys.symm⟩
    · rintro ⟨y,rest,hy,hrest,hys⟩
      exact ⟨y,hy,rest,hrest,hys.symm⟩

end Outcomes
