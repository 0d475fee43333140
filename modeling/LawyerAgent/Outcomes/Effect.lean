import Mathlib.Logic.Basic

/-!
# Effects that outlive a failure

A program changes a state and ends with a value or an error; what it did before
the error stays done. The rules follow a run through a sequence.
-/

set_option autoImplicit false

namespace Outcomes

variable {ε σ α β : Type}

def Effect (ε σ α : Type) : Type := σ → Except ε α × σ

namespace Effect

instance : Monad (Effect ε σ) where
  pure a := fun s => (.ok a,s)
  bind x f := fun s =>
    match x s with
    | (.ok a,t) => f a t
    | (.error e,t) => (.error e,t)

def raise (e : ε) : Effect ε σ α := fun s => (.error e,s)

/-- A result that does not touch the state. -/
def settle (x : Except ε α) : Effect ε σ α := fun s => (x,s)

def require (condition : Prop) [Decidable condition] (e : ε) : Effect ε σ Unit :=
  if condition then pure () else raise e

def zoom {τ : Type} (view : σ → τ) (update : τ → σ → σ) (x : Effect ε τ α) : Effect ε σ α :=
  fun s => ((x (view s)).1,update (x (view s)).2 s)

theorem pure_done {a b : α} {s t : σ} :
    (pure a : Effect ε σ α) s = (.ok b,t) ↔ a = b ∧ s = t := by
  change ((.ok a : Except ε α),s) = (.ok b,t) ↔ _
  rw [Prod.mk.injEq,Except.ok.injEq]

theorem settle_done {x : Except ε α} {b : α} {s t : σ} :
    (settle x : Effect ε σ α) s = (.ok b,t) ↔ x = .ok b ∧ s = t := by
  rw [settle,Prod.mk.injEq]

variable {f : α → Effect ε σ β} {x : Effect ε σ α} {I : σ → Prop}

theorem bind_done {b : β} {s t : σ} :
    (x >>= f) s = (.ok b,t) ↔ ∃ a u, x s = (.ok a,u) ∧ f a u = (.ok b,t) := by
  change (match x s with
    | (.ok a,t) => f a t
    | (.error e,t) => (.error e,t)) = _ ↔ _
  cases hx : x s with
  | mk outcome u =>
    cases outcome with
    | error e => simp
    | ok a =>
      constructor
      · intro h
        exact ⟨a,u,rfl,h⟩
      · rintro ⟨_,_,hsame,h⟩
        cases hsame
        exact h

theorem bind_raised {e : ε} {s t : σ} :
    (x >>= f) s = (.error e,t) ↔
      x s = (.error e,t) ∨ ∃ a u, x s = (.ok a,u) ∧ f a u = (.error e,t) := by
  change (match x s with
    | (.ok a,t) => f a t
    | (.error e,t) => (.error e,t)) = _ ↔ _
  cases hx : x s with
  | mk outcome u =>
    cases outcome with
    | error e => simp
    | ok a =>
      constructor
      · intro h
        exact Or.inr ⟨a,u,rfl,h⟩
      · rintro (hsame | ⟨_,_,hsame,h⟩)
        · cases hsame
        · cases hsame
          exact h

theorem require_done {condition : Prop} [Decidable condition] {e : ε} {u : Unit} {s t : σ} :
    (require condition e : Effect ε σ Unit) s = (.ok u,t) ↔ condition ∧ s = t := by
  rw [require]
  split
  · next h => rw [pure_done]; simp [h]
  · next h => simp [raise,h]

theorem bind_fails (f : α → Effect ε σ β) {e : ε} {s t : σ} (h : x s = (.error e,t)) :
    (x >>= f) s = (.error e,t) :=
  bind_raised.mpr (.inl h)

theorem bind_runs (f : α → Effect ε σ β) {a : α} {s t : σ} (h : x s = (.ok a,t)) :
    (x >>= f) s = f a t := by
  change (match x s with
    | (.ok a,t) => f a t
    | (.error e,t) => ((.error e : Except ε β),t)) = _
  rw [h]

/-- What a sequence keeps when each of its parts does. -/
def Keeps (I : σ → Prop) (x : Effect ε σ α) : Prop := ∀ s, I s → I (x s).2

theorem keeps_pure (a : α) : Keeps I (pure a : Effect ε σ α) := fun _ h => h

theorem keeps_settle (x : Except ε α) : Keeps I (settle x : Effect ε σ α) :=
  fun _ h => h

theorem keeps_require (condition : Prop) [Decidable condition] (e : ε) :
    Keeps I (require condition e : Effect ε σ Unit) := by
  intro s h
  rw [require]
  split
  · exact h
  · exact h

theorem keeps_bind (hx : Keeps I x) (hf : ∀ a, Keeps I (f a)) : Keeps I (x >>= f) := by
  intro s h
  have hstate := hx s h
  change I (match x s with
    | (.ok a,t) => f a t
    | (.error e,t) => ((.error e : Except ε β),t)).2
  cases hrun : x s with
  | mk outcome u =>
    rw [hrun] at hstate
    cases outcome with
    | error e => exact hstate
    | ok a => exact hf a u hstate

theorem bind_passed {o : Except ε β} {s t : σ} (hx : Keeps I x) (hs : I s) (h : (x >>= f) s = (o,t))
    (ht : ¬ I t) :
    ∃ a u, x s = (.ok a,u) ∧ I u ∧ f a u = (o,t) := by
  have hstate := hx s hs
  change (match x s with
    | (.ok a,t) => f a t
    | (.error e,t) => ((.error e : Except ε β),t)) = (o,t) at h
  cases hrun : x s with
  | mk outcome u =>
    rw [hrun] at hstate h
    cases outcome with
    | error e =>
      cases h
      exact absurd hstate ht
    | ok a => exact ⟨a,u,rfl,hstate,h⟩

end Effect

end Outcomes
