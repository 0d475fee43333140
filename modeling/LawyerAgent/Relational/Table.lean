import LawyerAgent.Relational.Transaction
import Mathlib.Data.List.Pairwise

/-!
# Tables with constraints

A schema names the primary key of a row, the check a row must pass and the
pairs of rows that a unique constraint keeps apart. A table carries the proof
that its rows obey the schema, so a statement that would break a constraint
has no table to return and its transaction fails.
-/

set_option autoImplicit false

namespace Relational

variable {ε ρ κ : Type}

structure Schema (ρ κ : Type) where
  key : ρ → κ
  check : ρ → Bool
  clash : ρ → ρ → Bool

def Apart (S : Schema ρ κ) (r s : ρ) : Prop :=
  S.key r ≠ S.key s ∧ S.clash r s = false ∧ S.clash s r = false

instance [DecidableEq κ] (S : Schema ρ κ) (r s : ρ) : Decidable (Apart S r s) :=
  inferInstanceAs (Decidable (_ ∧ _))

def Legal (S : Schema ρ κ) (rows : List ρ) : Prop :=
  (∀ r ∈ rows, S.check r = true) ∧ rows.Pairwise (Apart S)

instance [DecidableEq κ] (S : Schema ρ κ) (rows : List ρ) : Decidable (Legal S rows) :=
  inferInstanceAs (Decidable (_ ∧ _))

structure Table (S : Schema ρ κ) where
  rows : List ρ
  legal : Legal S rows

variable {S : Schema ρ κ}

def Table.empty : Table S := ⟨[],by simp [Legal]⟩

def Table.single (r : ρ) (h : S.check r = true) : Table S := ⟨[r],by simp [Legal,h]⟩

@[ext] theorem Table.ext {t u : Table S} (h : t.rows = u.rows) : t = u := by
  cases t
  cases u
  cases h
  rfl

instance : Membership ρ (Table S) := ⟨fun t r => r ∈ t.rows⟩

theorem mem_rows (t : Table S) (r : ρ) : r ∈ t ↔ r ∈ t.rows := Iff.rfl

@[simp] theorem not_mem_empty (r : ρ) : ¬r ∈ (Table.empty : Table S) := by
  simp [mem_rows,Table.empty]

variable {t t' : Table S} {p : ρ → Bool} {f : ρ → ρ}

theorem checked {r : ρ} (h : r ∈ t) : S.check r = true :=
  t.legal.1 r h

theorem apart_symm {r s : ρ} (h : Apart S r s) : Apart S s r :=
  ⟨h.1.symm,h.2.2,h.2.1⟩

theorem apart_of_ne {r s : ρ} (hr : r ∈ t) (hs : s ∈ t) (hne : r ≠ s) : Apart S r s := by
  have : Std.Symm (Apart S) := ⟨fun _ _ => apart_symm⟩
  exact t.legal.2.forall hr hs hne

theorem eq_of_key {r s : ρ} (hr : r ∈ t) (hs : s ∈ t) (hk : S.key r = S.key s) : r = s := by
  by_contra hne
  exact (apart_of_ne hr hs hne).1 hk

theorem eq_of_clash {r s : ρ} (hr : r ∈ t) (hs : s ∈ t) (hc : S.clash r s = true) : r = s := by
  by_contra hne
  have h := (apart_of_ne hr hs hne).2.1
  simp [hc] at h

theorem nodup_rows (t : Table S) : t.rows.Nodup :=
  t.legal.2.imp fun h => fun he => h.1 (congrArg S.key he)

def selectRow (p : ρ → Bool) (t : Table S) : Option ρ := t.rows.find? p

def selectRows (p : ρ → Bool) (t : Table S) : List ρ := t.rows.filter p

theorem selectRow_some {r : ρ} (h : selectRow p t = some r) : r ∈ t ∧ p r = true :=
  ⟨List.mem_of_find?_eq_some h,List.find?_some h⟩

theorem selectRow_none :
    selectRow p t = none ↔ ∀ r ∈ t, p r = false := by
  simp [selectRow,mem_rows]

theorem mem_selectRows {r : ρ} :
    r ∈ selectRows p t ↔ r ∈ t ∧ p r = true := by
  simp [selectRows,mem_rows]

theorem selectRow_eq {r : ρ} (hr : r ∈ t) (hp : p r = true) (huniq : ∀ s ∈ t, p s = true → s = r) :
    selectRow p t = some r := by
  cases h : selectRow p t with
  | none =>
    have := selectRow_none.mp h r hr
    simp [hp] at this
  | some s =>
    obtain ⟨hs,hps⟩ := selectRow_some h
    rw [huniq s hs hps]

theorem delete_legal (t : Table S) (p : ρ → Bool) :
    Legal S (t.rows.filter fun r => !p r) :=
  ⟨fun r h => t.legal.1 r (List.mem_filter.mp h).1,t.legal.2.filter _⟩

def deleteRows (p : ρ → Bool) : Tx ε (Table S) ℕ := fun t =>
  .ok (t.rows.countP p,⟨t.rows.filter fun r => !p r,delete_legal t p⟩)

@[simp] theorem deleteRows_ok (p : ρ → Bool) (n : ℕ) (t t' : Table S) :
    (deleteRows p : Tx ε (Table S) ℕ) t = .ok (n,t') ↔
      t.rows.countP p = n ∧ t'.rows = t.rows.filter fun r => !p r := by
  simp only [deleteRows,Except.ok.injEq,Prod.mk.injEq]
  refine and_congr_right fun _ => ⟨?_,?_⟩
  · rintro rfl
    rfl
  · intro h
    exact Table.ext h.symm

def Inserted (r : ρ) (t t' : Table S) : Prop := t'.rows = r::t.rows

theorem inserted_mem {r x : ρ} (h : Inserted r t t') :
    x ∈ t' ↔ x = r ∨ x ∈ t := by
  rw [mem_rows,h,List.mem_cons]
  rfl

theorem inserted_fresh {r x : ρ} (h : Inserted r t t') (hx : x ∈ t) : Apart S r x := by
  have hp := t'.legal.2
  rw [h,List.pairwise_cons] at hp
  exact hp.1 x hx

theorem countP_le_one {R : ρ → ρ → Prop} {rows : List ρ} (h : rows.Pairwise R)
    (p : ρ → Bool) (hp : ∀ x y, p x = true → p y = true → ¬R x y) :
    rows.countP p ≤ 1 := by
  rw [List.countP_eq_length_filter]
  have hf := h.filter p
  match hl : rows.filter p with
  | [] => simp
  | [_] => simp
  | x::y::rest =>
    rw [hl,List.pairwise_cons] at hf
    have hx : x ∈ rows.filter p := by simp [hl]
    have hy : y ∈ rows.filter p := by simp [hl]
    exact (hp x y (List.mem_filter.mp hx).2 (List.mem_filter.mp hy).2
      (hf.1 y (by simp))).elim

theorem update_none (hn : t.rows.countP p = 0)
    (hu : t'.rows = t.rows.map fun r => if p r then f r else r) :
    t' = t ∧ ∀ r ∈ t, p r = false := by
  have hp : ∀ r ∈ t.rows, p r = false := by simpa using hn
  refine ⟨Table.ext ?_,hp⟩
  rw [hu]
  calc t.rows.map (fun r => if p r then f r else r)
      = t.rows.map id := List.map_congr_left fun r hr => by simp [hp r hr]
    _ = t.rows := List.map_id _

section Statements

variable [DecidableEq κ]

def withRows (e : ε) (rows : List ρ) : Tx ε (Table S) Unit := fun _ =>
  if h : Legal S rows then .ok ((),⟨rows,h⟩) else .error e

def insertRow (e : ε) (r : ρ) : Tx ε (Table S) Unit := fun t =>
  withRows e (r::t.rows) t

/-- The rows of one flush, which stand or fall together. -/
def insertRows (e : ε) (rs : List ρ) : Tx ε (Table S) Unit := fun t =>
  withRows e (rs++t.rows) t

/-- An insert that changes nothing when one of the row's keys is taken. -/
def insertOrKeep (e : ε) (r : ρ) : Tx ε (Table S) Unit := fun t =>
  if ∀ x ∈ t.rows, Apart S r x then insertRow e r t else .ok ((),t)

/-- The row count is the number of rows the condition matched. -/
def updateRows (e : ε) (p : ρ → Bool) (f : ρ → ρ) : Tx ε (Table S) ℕ := fun t =>
  (withRows e (t.rows.map fun r => if p r then f r else r) t).map
    fun q => (t.rows.countP p,q.2)

theorem withRows_ok {e : ε} {rows : List ρ} {u : Unit} {t t' : Table S} :
    withRows e rows t = .ok (u,t') ↔ t'.rows = rows := by
  unfold withRows
  constructor
  · intro h
    split at h
    · cases h
      rfl
    · cases h
  · intro h
    subst h
    rw [dif_pos t'.legal]

@[simp] theorem insertRow_ok {e : ε} {r : ρ} {u : Unit} {t t' : Table S} :
    insertRow e r t = .ok (u,t') ↔ t'.rows = r::t.rows :=
  withRows_ok

@[simp] theorem insertRows_ok {e : ε} {rs : List ρ} {u : Unit} {t t' : Table S} :
    insertRows e rs t = .ok (u,t') ↔ t'.rows = rs++t.rows :=
  withRows_ok

theorem insertOrKeep_ok {e : ε} {r : ρ} {u : Unit} {t t' : Table S} :
    insertOrKeep e r t = .ok (u,t') ↔
      ((∀ x ∈ t, Apart S r x) ∧ Inserted r t t') ∨ ((∃ x ∈ t, ¬Apart S r x) ∧ t' = t) := by
  unfold insertOrKeep
  by_cases h : ∀ x ∈ t.rows, Apart S r x
  · rw [if_pos h,insertRow_ok]
    constructor
    · exact fun hi => Or.inl ⟨h,hi⟩
    · rintro (⟨-,hi⟩ | ⟨⟨x,hx,hne⟩,-⟩)
      · exact hi
      · exact absurd (h x hx) hne
  · rw [if_neg h]
    simp only [Except.ok.injEq,Prod.mk.injEq,true_and]
    constructor
    · rintro rfl
      obtain ⟨x,hx⟩ := Classical.not_forall.mp h
      obtain ⟨hmem,hne⟩ := Classical.not_imp.mp hx
      exact Or.inr ⟨⟨x,hmem,hne⟩,rfl⟩
    · rintro (⟨hall,-⟩ | ⟨-,rfl⟩)
      · exact absurd hall h
      · rfl

@[simp] theorem updateRows_ok {e : ε} {p : ρ → Bool} {f : ρ → ρ} {n : ℕ}
    {t t' : Table S} :
    updateRows e p f t = .ok (n,t') ↔
      t.rows.countP p = n ∧ t'.rows = t.rows.map fun r => if p r then f r else r := by
  rw [← withRows_ok (e := e) (u := ())]
  unfold updateRows
  cases withRows e (t.rows.map fun r => if p r then f r else r) t with
  | error e => simp [Except.map]
  | ok q =>
    obtain ⟨⟨⟩,v⟩ := q
    simp [Except.map]

/-- The row `r` is replaced by `r'` under the same key. -/
structure Replaced (r r' : ρ) (t t' : Table S) : Prop where
  mem : r ∈ t
  key : S.key r' = S.key r
  rows : t'.rows = t.rows.map fun x => if S.key x = S.key r then r' else x

theorem replaced_mem {r r' x : ρ} (h : Replaced r r' t t') :
    x ∈ t' ↔ x = r' ∨ x ∈ t ∧ S.key x ≠ S.key r := by
  rw [mem_rows,h.rows,List.mem_map]
  constructor
  · rintro ⟨y,hy,rfl⟩
    by_cases hk : S.key y = S.key r
    · left
      rw [if_pos hk]
    · right
      rw [if_neg hk]
      exact ⟨hy,hk⟩
  · rintro (rfl | ⟨hx,hk⟩)
    · exact ⟨r,h.mem,by simp⟩
    · exact ⟨x,hx,by simp [hk]⟩

theorem update_keyed (k : κ) (hk : ∀ r, p r = true → S.key r = k) (hf : ∀ r, S.key (f r) = S.key r)
    (hu : t'.rows = t.rows.map fun r => if p r then f r else r) :
    (t.rows.countP p = 0 ∧ t' = t ∧ ∀ r ∈ t, p r = false) ∨
    (t.rows.countP p = 1 ∧ ∃ r, p r = true ∧ Replaced r (f r) t t') := by
  by_cases hn : t.rows.countP p = 0
  · exact Or.inl ⟨hn,update_none hn hu⟩
  right
  obtain ⟨r,hr,hpr⟩ := List.countP_pos_iff.mp (Nat.pos_of_ne_zero hn)
  have huniq : ∀ x ∈ t.rows, p x = true ↔ S.key x = S.key r := by
    intro x hx
    constructor
    · intro hpx
      rw [hk x hpx,hk r hpr]
    · intro hkx
      rw [eq_of_key (t := t) hx hr hkx]
      exact hpr
  have hone : t.rows.countP p ≤ 1 := by
    refine countP_le_one t.legal.2 p ?_
    intro x y hx hy hxy
    exact hxy.1 ((hk x hx).trans (hk y hy).symm)
  refine ⟨by omega,r,hpr,hr,hf r,?_⟩
  rw [hu]
  refine List.map_congr_left fun x hx => ?_
  by_cases hpx : p x = true
  · have hxr : x = r := eq_of_key (t := t) hx hr ((huniq x hx).mp hpx)
    rw [if_pos hpx,if_pos ((huniq x hx).mp hpx),hxr]
  · rw [if_neg hpx,if_neg fun hkx => hpx ((huniq x hx).mpr hkx)]

theorem updateRows_keyed {e : ε} {n : ℕ} (h : updateRows e p f t = .ok (n,t')) (k : κ)
    (hk : ∀ r, p r = true → S.key r = k) (hf : ∀ r, S.key (f r) = S.key r) :
    (n = 0 ∧ t' = t ∧ ∀ r ∈ t, p r = false) ∨
    (n = 1 ∧ ∃ r, p r = true ∧ Replaced r (f r) t t') := by
  obtain ⟨hn,hrows⟩ := updateRows_ok.mp h
  rw [← hn]
  exact update_keyed k hk hf hrows

/-- `f r` may stand wherever `r` stood. -/
structure Fits (S : Schema ρ κ) (r r' : ρ) : Prop where
  check : S.check r' = true
  key : S.key r' = S.key r
  left : ∀ s, S.clash r' s = S.clash r s
  right : ∀ s, S.clash s r' = S.clash s r

omit [DecidableEq κ] in
theorem updated_legal (t : Table S) (hf : ∀ r ∈ t, p r = true → Fits S r (f r)) :
    Legal S (t.rows.map fun r => if p r then f r else r) := by
  have hfit : ∀ r ∈ t, Fits S r (if p r then f r else r) := by
    intro r hr
    by_cases h : p r = true
    · rw [if_pos h]
      exact hf r hr h
    · rw [if_neg h]
      exact ⟨checked hr,rfl,fun _ => rfl,fun _ => rfl⟩
  constructor
  · intro x hx
    obtain ⟨r,hr,rfl⟩ := List.mem_map.mp hx
    exact (hfit r hr).check
  · rw [List.pairwise_map]
    refine t.legal.2.imp_of_mem fun {r s} hr hs hrs => ?_
    have hfr := hfit r hr
    have hfs := hfit s hs
    unfold Apart
    rw [hfr.key,hfs.key,hfr.left,hfs.right,hfs.left,hfr.right]
    exact hrs

theorem updateRows_succeeds (e : ε) (t : Table S) (hf : ∀ r ∈ t, p r = true → Fits S r (f r)) :
    ∃ t', updateRows e p f t = .ok (t.rows.countP p,t') :=
  ⟨⟨_,updated_legal t hf⟩,updateRows_ok.mpr ⟨rfl,rfl⟩⟩

end Statements

end Relational
