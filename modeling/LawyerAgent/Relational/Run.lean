import Mathlib.Order.Defs.Unbundled
import Mathlib.Logic.Relation

/-!
# Runs

A run folds a step over a list of operations. An operation carries everything
the step does not read from the state: arguments, clock values, fresh
identifiers. `Along` states a guard at every step of one run.
-/

set_option autoImplicit false

namespace Relational

variable {ω σ : Type}

def run (step : ω → σ → σ) : List ω → σ → σ
  | [], s => s
  | op::ops, s => run step ops (step op s)

def Along (step : ω → σ → σ) (G : ω → σ → Prop) : List ω → σ → Prop
  | [], _ => True
  | op::ops, s => G op s ∧ Along step G ops (step op s)

instance decidableAlong (step : ω → σ → σ) (G : ω → σ → Prop) [∀ op s, Decidable (G op s)] :
    ∀ (ops : List ω) (s : σ), Decidable (Along step G ops s)
  | [], _ => .isTrue trivial
  | op::ops, s =>
    have := decidableAlong step G ops (step op s)
    inferInstanceAs (Decidable (G op s ∧ Along step G ops (step op s)))

@[simp] theorem run_nil (step : ω → σ → σ) (s : σ) : run step [] s = s := rfl

@[simp] theorem run_cons (step : ω → σ → σ) (op : ω) (ops : List ω) (s : σ) :
    run step (op::ops) s = run step ops (step op s) := rfl

theorem run_append (step : ω → σ → σ) (ops rest : List ω) (s : σ) :
    run step (ops++rest) s = run step rest (run step ops s) := by
  induction ops generalizing s with
  | nil => rfl
  | cons op ops ih => exact ih (step op s)

theorem along_append (step : ω → σ → σ) (G : ω → σ → Prop) (ops rest : List ω) (s : σ) :
    Along step G (ops++rest) s ↔ Along step G ops s ∧ Along step G rest (run step ops s) := by
  induction ops generalizing s with
  | nil => simp [Along]
  | cons op ops ih => simp [Along,ih,and_assoc]

variable {step : ω → σ → σ} {G : ω → σ → Prop} {I : σ → Prop}

theorem along_mono {G H : ω → σ → Prop} (ops : List ω) (s : σ) (hGH : ∀ op u, G op u → H op u)
    (h : Along step G ops s) : Along step H ops s := by
  induction ops generalizing s with
  | nil => trivial
  | cons op ops ih => exact ⟨hGH op s h.1,ih (step op s) h.2⟩

theorem along_congr {G H : ω → σ → Prop} (h : ∀ op u, G op u ↔ H op u) (ops : List ω) (s : σ) :
    Along step G ops s ↔ Along step H ops s := by
  constructor
  · exact along_mono ops s fun op u => (h op u).mp
  · exact along_mono ops s fun op u => (h op u).mpr

/-- The guard may be used together with an invariant it maintains. -/
theorem guarded_invariant (hstep : ∀ op s, G op s → I s → I (step op s)) (ops : List ω) (s : σ)
    (hG : Along step G ops s) (hI : I s) : I (run step ops s) := by
  induction ops generalizing s with
  | nil => exact hI
  | cons op ops ih => exact ih (step op s) hG.2 (hstep op s hG.1 hI)

theorem run_invariant (hstep : ∀ op s, I s → I (step op s)) (ops : List ω) (s : σ) (hI : I s) :
    I (run step ops s) := by
  induction ops generalizing s with
  | nil => exact hI
  | cons op ops ih => exact ih (step op s) (hstep op s hI)

/-- A preorder that every step respects relates the two ends of a run. -/
theorem run_related {R : σ → σ → Prop} [Std.Refl R] [IsTrans σ R] (hstep : ∀ op s, R s (step op s))
    (ops : List ω) (s : σ) : R s (run step ops s) := by
  induction ops generalizing s with
  | nil => exact refl s
  | cons op ops ih => exact IsTrans.trans _ _ _ (hstep op s) (ih (step op s))

theorem guarded_related {R : σ → σ → Prop} [Std.Refl R] [IsTrans σ R]
    (hstep : ∀ op s, G op s → R s (step op s)) (ops : List ω) (s : σ) (hG : Along step G ops s) :
    R s (run step ops s) := by
  induction ops generalizing s with
  | nil => exact refl s
  | cons op ops ih =>
    exact IsTrans.trans _ _ _ (hstep op s hG.1) (ih (step op s) hG.2)

/-- A property of a step that an invariant gives holds at every step of a run. -/
theorem along_of_invariant (hI : ∀ op s, I s → I (step op s)) (hG : ∀ op s, I s → G op s)
    (ops : List ω) (s : σ) (hs : I s) : Along step G ops s := by
  induction ops generalizing s with
  | nil => trivial
  | cons op ops ih => exact ⟨hG op s hs,ih (step op s) (hI op s hs)⟩

end Relational
