import Mathlib.Order.Defs.Unbundled

/-!
# Transactions over an explicit state

A transaction either fails, and then nothing of it is kept, or returns a
value together with the state it leaves. The rules below follow a
transaction through its sequential composition: triples for invariants,
`Moves` for relations between the state before and the state after.
-/

set_option autoImplicit false

namespace Relational

variable {ε σ τ α β : Type}

def Tx (ε σ α : Type) : Type := σ → Except ε (α × σ)

instance : Monad (Tx ε σ) where
  pure a := fun s => .ok (a,s)
  bind x f := fun s =>
    match x s with
    | .error e => .error e
    | .ok (a,t) => f a t

def fail (e : ε) : Tx ε σ α := fun _ => .error e

def read (f : σ → α) : Tx ε σ α := fun s => .ok (f s,s)

def require (p : Prop) [Decidable p] (e : ε) : Tx ε σ Unit :=
  if p then pure () else fail e

def orFail (e : ε) : Option α → Tx ε σ α
  | none => fail e
  | some a => pure a

def ofExcept {ε' : Type} (f : ε' → ε) : Except ε' α → Tx ε σ α
  | .error e => fail (f e)
  | .ok a => pure a

/-- The commit of a unit of work: a failure rolls back. -/
def commit (x : Tx ε σ α) (s : σ) : σ :=
  match x s with
  | .error _ => s
  | .ok (_,t) => t

def outcome (x : Tx ε σ α) (s : σ) : Except ε α := (x s).map Prod.fst

structure Lens (σ τ : Type) where
  get : σ → τ
  set : τ → σ → σ
  get_set : ∀ t s, get (set t s) = t
  set_get : ∀ s, set (get s) s = s

/-- A transaction of a component, its failures renamed. -/
def within {ε' : Type} (f : ε' → ε) (L : Lens σ τ) (x : Tx ε' τ α) : Tx ε σ α := fun s =>
  match x (L.get s) with
  | .error e => .error (f e)
  | .ok (a,t) => .ok (a,L.set t s)

def zoom (L : Lens σ τ) (x : Tx ε τ α) : Tx ε σ α := within id L x

@[simp] theorem pure_ok {a b : α} {s t : σ} :
    (pure a : Tx ε σ α) s = .ok (b,t) ↔ a = b ∧ s = t := by
  change Except.ok (a,s) = Except.ok (b,t) ↔ _
  simp

@[simp] theorem bind_ok {x : Tx ε σ α} {f : α → Tx ε σ β} {b : β} {s t : σ} :
    (x >>= f) s = .ok (b,t) ↔ ∃ a u, x s = .ok (a,u) ∧ f a u = .ok (b,t) := by
  change (match x s with
    | .error e => .error e
    | .ok (a,u) => f a u) = Except.ok (b,t) ↔ _
  cases x s with
  | error e => simp
  | ok p =>
    obtain ⟨a,u⟩ := p
    constructor
    · intro h
      exact ⟨a,u,rfl,h⟩
    · rintro ⟨a',u',h,h'⟩
      cases h
      exact h'

@[simp] theorem fail_ok {e : ε} {a : α} {s t : σ} :
    (fail e : Tx ε σ α) s = .ok (a,t) ↔ False := by
  simp [fail]

@[simp] theorem read_ok {f : σ → α} {a : α} {s t : σ} :
    (read f : Tx ε σ α) s = .ok (a,t) ↔ f s = a ∧ s = t := by
  simp [read]

@[simp] theorem require_ok {p : Prop} [Decidable p] {e : ε} {u : Unit} {s t : σ} :
    (require p e : Tx ε σ Unit) s = .ok (u,t) ↔ p ∧ s = t := by
  unfold require
  by_cases h : p
  · simp [h]
  · simp [h]

theorem bind_error {x : Tx ε σ α} {f : α → Tx ε σ β} {e : ε} {s : σ} :
    (x >>= f) s = .error e ↔
      x s = .error e ∨ ∃ a u, x s = .ok (a,u) ∧ f a u = .error e := by
  change (match x s with
    | .error e => .error e
    | .ok (a,u) => f a u) = Except.error e ↔ _
  cases x s with
  | error e => simp
  | ok p =>
    obtain ⟨a,u⟩ := p
    constructor
    · intro h
      exact Or.inr ⟨a,u,rfl,h⟩
    · rintro (h | ⟨a',u',h,h'⟩)
      · cases h
      · cases h
        exact h'

variable {f : α → Tx ε σ β} {x : Tx ε σ α}

theorem bind_run {s t : σ} {a : α} (h : x s = .ok (a,t)) :
    (x >>= f) s = f a t := by
  change (match x s with
    | Except.error e => Except.error e
    | .ok (a,u) => f a u) = _
  rw [h]

theorem bind_stop {s : σ} {e : ε} (h : x s = .error e) :
    (x >>= f) s = .error e :=
  bind_error.mpr (Or.inl h)

theorem require_error {p : Prop} [Decidable p] {e e' : ε} {s : σ} :
    (require p e : Tx ε σ Unit) s = .error e' ↔ ¬p ∧ e = e' := by
  unfold require
  by_cases h : p
  · simp [h,pure]
  · simp [h,fail]

@[simp] theorem orFail_ok {e : ε} {o : Option α} {a : α} {s t : σ} :
    (orFail e o : Tx ε σ α) s = .ok (a,t) ↔ o = some a ∧ s = t := by
  cases o <;> simp [orFail]

@[simp] theorem ofExcept_ok {ε' : Type} {f : ε' → ε} {x : Except ε' α} {a : α} {s t : σ} :
    (ofExcept f x : Tx ε σ α) s = .ok (a,t) ↔ x = .ok a ∧ s = t := by
  cases x <;> simp [ofExcept]

@[simp] theorem within_ok {ε' : Type} {f : ε' → ε} {L : Lens σ τ} {x : Tx ε' τ α} {a : α}
    {s t : σ} : within f L x s = .ok (a,t) ↔ ∃ u, x (L.get s) = .ok (a,u) ∧ t = L.set u s := by
  unfold within
  cases x (L.get s) with
  | error e => simp
  | ok p =>
    obtain ⟨b,u⟩ := p
    simp only [Except.ok.injEq,Prod.mk.injEq]
    constructor
    · rintro ⟨rfl,rfl⟩
      exact ⟨u,⟨rfl,rfl⟩,rfl⟩
    · rintro ⟨v,⟨rfl,rfl⟩,rfl⟩
      exact ⟨rfl,rfl⟩

theorem within_stop {ε' : Type} {f : ε' → ε} {L : Lens σ τ} {x : Tx ε' τ α} {e : ε'} {s : σ}
    (h : x (L.get s) = .error e) : within f L x s = .error (f e) := by
  unfold within
  rw [h]

@[simp] theorem zoom_ok {L : Lens σ τ} {x : Tx ε τ α} {a : α} {s t : σ} :
    zoom L x s = .ok (a,t) ↔ ∃ u, x (L.get s) = .ok (a,u) ∧ t = L.set u s :=
  within_ok

theorem commit_ok {s t : σ} {a : α} (h : x s = .ok (a,t)) :
    commit x s = t := by
  simp [commit,h]

theorem commit_cases (x : Tx ε σ α) (s : σ) :
    commit x s = s ∨ ∃ a, x s = .ok (a,commit x s) := by
  unfold commit
  cases x s with
  | error e => exact Or.inl rfl
  | ok p => exact Or.inr ⟨p.1,rfl⟩

theorem outcome_ok {s : σ} {a : α} (h : outcome x s = .ok a) :
    x s = .ok (a,commit x s) := by
  unfold outcome at h
  unfold commit
  cases hx : x s with
  | error e =>
    rw [hx] at h
    cases h
  | ok p =>
    rw [hx] at h
    cases h
    rfl

/-- What holds of the state before and of every state the transaction leaves
holds after its unit of work. -/
theorem commit_of {P : σ → Prop} {s : σ} (hs : P s) (hx : ∀ a t, x s = .ok (a,t) → P t) :
    P (commit x s) := by
  rcases commit_cases x s with h | ⟨a,h⟩
  · rw [h]
    exact hs
  · exact hx a _ h

/-- Every state left by the transaction is related to the one it started in. -/
def Moves (R : σ → σ → Prop) (x : Tx ε σ α) : Prop :=
  ∀ s a t, x s = .ok (a,t) → R s t

section Moves

variable {R : σ → σ → Prop}

theorem moves_pure [Std.Refl R] (a : α) : Moves R (pure a : Tx ε σ α) := by
  intro s b t h
  obtain ⟨-,rfl⟩ := pure_ok.mp h
  exact refl s

theorem moves_fail (e : ε) : Moves R (fail e : Tx ε σ α) := by
  intro s a t h
  simp at h

theorem moves_read [Std.Refl R] (f : σ → α) : Moves R (read f : Tx ε σ α) := by
  intro s b t h
  obtain ⟨-,rfl⟩ := read_ok.mp h
  exact refl s

theorem moves_require [Std.Refl R] (p : Prop) [Decidable p] (e : ε) :
    Moves R (require p e : Tx ε σ Unit) := by
  intro s u t h
  obtain ⟨-,rfl⟩ := require_ok.mp h
  exact refl s

theorem moves_orFail [Std.Refl R] (e : ε) (o : Option α) :
    Moves R (orFail e o : Tx ε σ α) := by
  intro s a t h
  obtain ⟨-,rfl⟩ := orFail_ok.mp h
  exact refl s

theorem moves_bind [IsTrans σ R] (hx : Moves R x) (hf : ∀ a, Moves R (f a)) :
    Moves R (x >>= f) := by
  intro s b t h
  obtain ⟨a,u,hxu,hfu⟩ := bind_ok.mp h
  exact IsTrans.trans _ _ _ (hx s a u hxu) (hf a u b t hfu)

theorem moves_ite (p : Prop) [Decidable p] {x y : Tx ε σ α}
    (hx : p → Moves R x) (hy : ¬p → Moves R y) : Moves R (if p then x else y) := by
  by_cases h : p
  · simpa only [if_pos h] using hx h
  · simpa only [if_neg h] using hy h

theorem moves_commit [Std.Refl R] (hx : Moves R x) (s : σ) :
    R s (commit x s) := by
  rcases commit_cases x s with h | ⟨a,h⟩
  · rw [h]
    exact refl s
  · exact hx s a _ h

end Moves

end Relational
