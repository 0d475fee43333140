import LawyerAgent.Relational.Run
import Mathlib.Data.List.Nodup

/-!
# Transactions on one row

A transaction reads the row, with or without a lock, and later writes what it
makes of the row it has read and the row it finds. What it has written is
locked and unseen until it commits. Any number of transactions interleave, and
each may end at any point without a commit. A read is kept with the number of
changes that were committed before it. A transaction that reads from a snapshot
reads when its snapshot is taken.
-/

set_option autoImplicit false

namespace Relational

theorem set_get {α : Type} {xs : List α} {i k : ℕ} {a x : α} (h : (xs.set i a)[k]? = some x) :
    (k = i ∧ x = a) ∨ (k ≠ i ∧ xs[k]? = some x) := by
  by_cases hk : k = i
  · subst hk
    rw [List.getElem?_set_self'] at h
    cases hs : xs[k]? with
    | none => simp [hs] at h
    | some y =>
      rw [hs] at h
      exact Or.inl ⟨rfl,(Option.some.inj h).symm⟩
  · rw [List.getElem?_set_ne (Ne.symm hk)] at h
    exact Or.inr ⟨hk,h⟩

theorem snoc_get {α : Type} {xs : List α} {a x : α} {k : ℕ} (h : (xs++[a])[k]? = some x) :
    xs[k]? = some x ∨ (k = xs.length ∧ x = a) := by
  rw [List.getElem?_append] at h
  split at h
  · exact Or.inl h
  · rename_i hlt
    obtain ⟨hbound,hx⟩ := List.getElem?_eq_some_iff.mp h
    rw [List.length_singleton] at hbound
    have hzero : k-xs.length = 0 := by omega
    simp only [hzero,List.getElem_cons_zero] at hx
    exact Or.inr ⟨by omega,hx.symm⟩

/-- `write read found`, which is `none` where the transaction changes nothing. -/
structure RowTransaction (ρ : Type) where
  locking : Bool
  write : ρ → ρ → Option ρ

inductive RowPhase (ρ : Type) where
  | begun
  | read (seen : ℕ) (row : ρ)
  | wrote (seen : ℕ) (read row : ρ)
  | committed
  | ended

structure RowSession (τ ρ : Type) where
  call : τ
  phase : RowPhase ρ

/-- A committed change: the row that was read, the row it replaced and the new row. -/
structure RowChange (τ ρ : Type) where
  call : τ
  seen : ℕ
  read : ρ
  before : ρ
  after : ρ

structure RowWorld (τ ρ : Type) where
  row : ρ
  sessions : List (RowSession τ ρ)
  changes : List (RowChange τ ρ)

inductive RowOp (τ : Type) where
  | begin (call : τ)
  | read (i : ℕ)
  | write (i : ℕ)
  | commit (i : ℕ)
  | abort (i : ℕ)

variable {τ ρ : Type} (T : τ → RowTransaction ρ)

def RowWorld.start (row : ρ) : RowWorld τ ρ := ⟨row,[],[]⟩

def holdsRow (s : RowSession τ ρ) : Bool :=
  match s.phase with
  | .read _ _ => (T s.call).locking
  | .wrote _ _ _ => true
  | _ => false

/-- No session but `i` holds the row. -/
def rowFree (i : ℕ) (w : RowWorld τ ρ) : Bool := (w.sessions.eraseIdx i).all fun s => !holdsRow T s

def RowWorld.advance (w : RowWorld τ ρ) (i : ℕ) (call : τ) (phase : RowPhase ρ) : RowWorld τ ρ :=
  {w with sessions := w.sessions.set i ⟨call,phase⟩}

def RowWorld.change (w : RowWorld τ ρ) (i : ℕ) (call : τ) (seen : ℕ) (read row : ρ) :
    RowWorld τ ρ where
  row := row
  sessions := w.sessions.set i ⟨call,.committed⟩
  changes := w.changes++[⟨call,seen,read,w.row,row⟩]

def writePhase (found : ρ) (seen : ℕ) (read : ρ) (call : τ) : RowPhase ρ :=
  match (T call).write read found with
  | none => .ended
  | some row => .wrote seen read row

/-- A step of a session that cannot be taken leaves the world as it is. -/
def rowStep : RowOp τ → RowWorld τ ρ → RowWorld τ ρ
  | .begin call, w => {w with sessions := w.sessions++[⟨call,.begun⟩]}
  | .read i, w =>
    match w.sessions[i]? with
    | some ⟨call,.begun⟩ =>
      if !(T call).locking || rowFree T i w then
        w.advance i call (.read w.changes.length w.row)
      else w
    | _ => w
  | .write i, w =>
    match w.sessions[i]? with
    | some ⟨call,.read seen read⟩ =>
      if rowFree T i w then w.advance i call (writePhase T w.row seen read call) else w
    | _ => w
  | .commit i, w =>
    match w.sessions[i]? with
    | some ⟨call,.wrote seen read row⟩ => w.change i call seen read row
    | _ => w
  | .abort i, w =>
    match w.sessions[i]? with
    | some ⟨_,.committed⟩ => w
    | some ⟨call,_⟩ => w.advance i call .ended
    | none => w

inductive RowEffect (w : RowWorld τ ρ) : RowOp τ → RowWorld τ ρ → Prop
  | unchanged (op : RowOp τ) : RowEffect w op w
  | begun (call : τ) :
      RowEffect w (.begin call) {w with sessions := w.sessions++[⟨call,.begun⟩]}
  | read (i : ℕ) (call : τ) (held : w.sessions[i]? = some ⟨call,.begun⟩)
      (free : (T call).locking = true → rowFree T i w = true) :
      RowEffect w (.read i) (w.advance i call (.read w.changes.length w.row))
  | wrote (i : ℕ) (call : τ) (seen : ℕ) (read row : ρ)
      (held : w.sessions[i]? = some ⟨call,.read seen read⟩) (free : rowFree T i w = true)
      (write : (T call).write read w.row = some row) :
      RowEffect w (.write i) (w.advance i call (.wrote seen read row))
  | ended (op : RowOp τ) (i : ℕ) (call : τ) (phase : RowPhase ρ)
      (held : w.sessions[i]? = some ⟨call,phase⟩) : RowEffect w op (w.advance i call .ended)
  | committed (i : ℕ) (call : τ) (seen : ℕ) (read row : ρ)
      (held : w.sessions[i]? = some ⟨call,.wrote seen read row⟩) :
      RowEffect w (.commit i) (w.change i call seen read row)

theorem rowStep_effect (op : RowOp τ) (w : RowWorld τ ρ) : RowEffect T w op (rowStep T op w) := by
  cases op with
  | begin call => exact .begun call
  | read i =>
    simp only [rowStep]
    split
    · rename_i call hi
      split
      · rename_i hfree
        refine .read i call hi fun hlock => ?_
        simpa [hlock] using hfree
      · exact .unchanged _
    · exact .unchanged _
  | write i =>
    simp only [rowStep]
    split
    · rename_i call seen read hi
      split
      · rename_i hfree
        cases hw : (T call).write read w.row with
        | none =>
          simp only [writePhase,hw]
          exact .ended _ i call _ hi
        | some row =>
          simp only [writePhase,hw]
          exact .wrote i call seen read row hi hfree hw
      · exact .unchanged _
    · exact .unchanged _
  | commit i =>
    simp only [rowStep]
    split
    · rename_i call seen read row hi
      exact .committed i call seen read row hi
    · exact .unchanged _
  | abort i =>
    simp only [rowStep]
    split
    · exact .unchanged _
    · rename_i call phase hne hi
      exact .ended _ i call phase hi
    · exact .unchanged _

theorem rowFree_iff {i : ℕ} {w : RowWorld τ ρ} : rowFree T i w = true ↔
    ∀ k s, k ≠ i → w.sessions[k]? = some s → holdsRow T s = false := by
  simp only [rowFree,List.all_eq_true,List.mem_eraseIdx_iff_getElem?,Bool.not_eq_true']
  constructor
  · intro h k s hk hs
    exact h s ⟨k,hk,hs⟩
  · rintro h s ⟨k,hk,hs⟩
    exact h k s hk hs

/-- Each change replaces the row the one before it has left. -/
def Chained : ρ → List (RowChange τ ρ) → ρ → Prop
  | first, [], last => last = first
  | first, c::cs, last => c.before = first ∧ Chained c.after cs last

variable {c : RowChange τ ρ} {cs : List (RowChange τ ρ)} {version : ρ → ℕ}

theorem chained_snoc {first row : ρ} (h : Chained first cs row) (hc : c.before = row) :
    Chained first (cs++[c]) c.after := by
  induction cs generalizing first with
  | nil =>
    obtain rfl : row = first := h
    exact ⟨hc,rfl⟩
  | cons d cs ih => exact ⟨h.1,ih h.2⟩

theorem chained_last {first last : ρ} (h : Chained first cs last) (hlast : cs.getLast? = some c) :
    last = c.after := by
  induction cs generalizing first with
  | nil => cases hlast
  | cons d cs ih =>
    cases cs with
    | nil =>
      obtain rfl : d = c := Option.some.inj hlast
      exact h.2
    | cons e cs =>
      rw [List.getLast?_cons_cons] at hlast
      exact ih h.2 hlast

/-- What a session has read, unless it has begun only or is over. -/
def readOf (s : RowSession τ ρ) : Option (ℕ × ρ) :=
  match s.phase with
  | .read seen row => some (seen,row)
  | .wrote seen read _ => some (seen,read)
  | _ => none

/-- A read is current until the next change, and a lock keeps changes away. -/
structure RowSound (first : ρ) (w : RowWorld τ ρ) : Prop where
  alone : ∀ (i k : ℕ) s t, w.sessions[i]? = some s → w.sessions[k]? = some t →
    holdsRow T s = true → holdsRow T t = true → i = k
  seen : ∀ (i : ℕ) s seen row, w.sessions[i]? = some s → readOf s = some (seen,row) →
    seen ≤ w.changes.length ∧ (seen = w.changes.length → row = w.row)
  locked : ∀ (i : ℕ) s seen row, w.sessions[i]? = some s → readOf s = some (seen,row) →
    (T s.call).locking = true → seen = w.changes.length
  wrote : ∀ (i : ℕ) call seen read row, w.sessions[i]? = some ⟨call,.wrote seen read row⟩ →
    (T call).write read w.row = some row
  chained : Chained first w.changes w.row
  changes : ∀ (k : ℕ) c, w.changes[k]? = some c →
    (T c.call).write c.read c.before = some c.after ∧ (c.seen = k → c.read = c.before)

theorem start_sound (row : ρ) : RowSound T row (RowWorld.start row) :=
  ⟨fun i k s t h => by simp [RowWorld.start] at h,fun i s n r h => by simp [RowWorld.start] at h,
    fun i s n r h => by simp [RowWorld.start] at h,
    fun i call n r r' h => by simp [RowWorld.start] at h,rfl,
    fun k c h => by simp [RowWorld.start] at h⟩

variable {T}

/-- One session goes on while the row stays as it is. -/
theorem advance_sound {first : ρ} {w : RowWorld τ ρ} (h : RowSound T first w) (i : ℕ) (call : τ)
    {phase : RowPhase ρ} (hfree : holdsRow T ⟨call,phase⟩ = true → rowFree T i w = true)
    (hseen : ∀ seen row, readOf ⟨call,phase⟩ = some (seen,row) → seen ≤ w.changes.length ∧
      (seen = w.changes.length → row = w.row) ∧
      ((T call).locking = true → seen = w.changes.length))
    (hwrote : ∀ seen read row, phase = .wrote seen read row →
      (T call).write read w.row = some row) :
    RowSound T first (w.advance i call phase) := by
  refine ⟨?_,?_,?_,?_,h.chained,h.changes⟩
  · intro j k s t hj hk hs ht
    rcases set_get hj with ⟨rfl,rfl⟩ | ⟨hji,hj⟩
    · rcases set_get hk with ⟨rfl,-⟩ | ⟨hki,hk⟩
      · rfl
      · rw [(rowFree_iff T).mp (hfree hs) k t hki hk] at ht
        cases ht
    · rcases set_get hk with ⟨-,rfl⟩ | ⟨-,hk⟩
      · rw [(rowFree_iff T).mp (hfree ht) j s hji hj] at hs
        cases hs
      · exact h.alone j k s t hj hk hs ht
  · intro j s seen row hj hr
    rcases set_get hj with ⟨-,rfl⟩ | ⟨-,hj⟩
    · exact ⟨(hseen seen row hr).1,(hseen seen row hr).2.1⟩
    · exact h.seen j s seen row hj hr
  · intro j s seen row hj hr hlock
    rcases set_get hj with ⟨-,rfl⟩ | ⟨-,hj⟩
    · exact (hseen seen row hr).2.2 hlock
    · exact h.locked j s seen row hj hr hlock
  · intro j c seen read row hj
    rcases set_get hj with ⟨-,hs⟩ | ⟨-,hj⟩
    · cases hs
      exact hwrote seen read row rfl
    · exact h.wrote j c seen read row hj

theorem begun_sound {first : ρ} {w : RowWorld τ ρ} (h : RowSound T first w) (call : τ) :
    RowSound T first {w with sessions := w.sessions++[⟨call,.begun⟩]} := by
  refine ⟨?_,?_,?_,?_,h.chained,h.changes⟩
  · intro i k s t hi hk hs ht
    rcases snoc_get hi with hi | ⟨-,rfl⟩
    · rcases snoc_get hk with hk | ⟨-,rfl⟩
      · exact h.alone i k s t hi hk hs ht
      · cases ht
    · cases hs
  · intro i s seen row hi hr
    rcases snoc_get hi with hi | ⟨-,rfl⟩
    · exact h.seen i s seen row hi hr
    · cases hr
  · intro i s seen row hi hr hlock
    rcases snoc_get hi with hi | ⟨-,rfl⟩
    · exact h.locked i s seen row hi hr hlock
    · cases hr
  · intro i c seen read row hi
    rcases snoc_get hi with hi | ⟨-,hs⟩
    · exact h.wrote i c seen read row hi
    · cases hs

theorem committed_sound {first : ρ} {w : RowWorld τ ρ} (h : RowSound T first w) (i : ℕ)
    {call : τ} {seen : ℕ} {read row : ρ}
    (held : w.sessions[i]? = some ⟨call,.wrote seen read row⟩) :
    RowSound T first (w.change i call seen read row) := by
  have hidle : ∀ k s, k ≠ i → w.sessions[k]? = some s → holdsRow T s = false := by
    intro k s hk hs
    by_contra hheld
    exact hk (h.alone k i s _ hs held (eq_true_of_ne_false hheld) rfl)
  have hlater : (w.change i call seen read row).changes.length = w.changes.length+1 := by
    simp [RowWorld.change]
  refine ⟨?_,?_,?_,?_,chained_snoc h.chained rfl,?_⟩
  · intro j k s t hj hk hs ht
    rcases set_get hj with ⟨-,rfl⟩ | ⟨hji,hj⟩
    · cases hs
    · rw [hidle j s hji hj] at hs
      cases hs
  · intro j s n r hj hr
    rcases set_get hj with ⟨-,rfl⟩ | ⟨hji,hj⟩
    · cases hr
    · have hle := (h.seen j s n r hj hr).1
      rw [hlater]
      exact ⟨by omega,fun hn => by omega⟩
  · intro j s n r hj hr hlock
    rcases set_get hj with ⟨-,rfl⟩ | ⟨hji,hj⟩
    · cases hr
    · have hfree := hidle j s hji hj
      obtain ⟨c,phase⟩ := s
      cases phase with
      | read n' r' =>
        rw [show holdsRow T ⟨c,.read n' r'⟩ = (T c).locking from rfl,hlock] at hfree
        cases hfree
      | wrote n' r' r'' => cases hfree
      | begun => cases hr
      | committed => cases hr
      | ended => cases hr
  · intro j c n r r' hj
    rcases set_get hj with ⟨-,hs⟩ | ⟨hji,hj⟩
    · cases hs
    · cases hidle j _ hji hj
  · intro k c hc
    rcases snoc_get hc with hc | ⟨rfl,rfl⟩
    · exact h.changes k c hc
    · exact ⟨h.wrote i call seen read row held,(h.seen i _ seen read held rfl).2⟩

theorem effect_sound {first : ρ} {op : RowOp τ} {w w' : RowWorld τ ρ} (h : RowSound T first w)
    (he : RowEffect T w op w') : RowSound T first w' := by
  cases he with
  | unchanged => exact h
  | begun call => exact begun_sound h call
  | read i call held free =>
    refine advance_sound h i call free ?_ ?_
    · intro seen row hr
      cases hr
      exact ⟨Nat.le_refl _,fun _ => rfl,fun _ => rfl⟩
    · intro seen read row hp
      cases hp
  | wrote i call seen read row held free write =>
    refine advance_sound h i call (fun _ => free) ?_ ?_
    · intro n r hr
      cases hr
      have hseen := h.seen i _ seen read held rfl
      exact ⟨hseen.1,hseen.2,h.locked i _ seen read held rfl⟩
    · intro n r r' hp
      cases hp
      exact write
  | ended op i call phase held =>
    refine advance_sound h i call ?_ ?_ ?_
    · intro hheld
      cases hheld
    · intro n r hr
      cases hr
    · intro n r r' hp
      cases hp
  | committed i call seen read row held => exact committed_sound h i held

theorem step_rowSound {first : ρ} (op : RowOp τ) (w : RowWorld τ ρ) (h : RowSound T first w) :
    RowSound T first (rowStep T op w) :=
  effect_sound h (rowStep_effect T op w)

theorem run_rowSound (ops : List (RowOp τ)) (row : ρ) :
    RowSound T row (run (rowStep T) ops (RowWorld.start row)) :=
  run_invariant step_rowSound ops _ (start_sound T row)

variable {first read : ρ} {w : RowWorld τ ρ} {i seen : ℕ} {call : τ}

theorem locking_current (hs : RowSound T first w) (hlock : (T call).locking = true)
    (held : w.sessions[i]? = some ⟨call,.read seen read⟩) :
    read = w.row ∧ rowFree T i w = true := by
  have hseen := hs.locked i _ seen read held rfl hlock
  refine ⟨(hs.seen i _ seen read held rfl).2 hseen,(rowFree_iff T).mpr fun k s hk hget => ?_⟩
  by_contra hheld
  exact hk (hs.alone k i s _ hget held (eq_true_of_ne_false hheld) hlock)

theorem locking_write (hs : RowSound T first w) (hlock : (T call).locking = true)
    (held : w.sessions[i]? = some ⟨call,.read seen read⟩) :
    rowStep T (.write i) w = w.advance i call (writePhase T w.row seen read call) := by
  simp only [rowStep,held,(locking_current hs hlock held).2,if_true]

theorem locking_commits {row : ρ} (hs : RowSound T first w) (hlock : (T call).locking = true)
    (held : w.sessions[i]? = some ⟨call,.read seen read⟩)
    (hwrite : (T call).write w.row w.row = some row) :
    run (rowStep T) [.write i,.commit i] w = w.change i call seen w.row row := by
  obtain ⟨rfl,-⟩ := locking_current hs hlock held
  have hlt := (List.getElem?_eq_some_iff.mp held).1
  rw [run_cons,locking_write hs hlock held,writePhase,hwrite]
  simp [rowStep,RowWorld.advance,RowWorld.change,hlt]

/-- A condition on the call, the read, the number of changes and the row that is found. -/
abbrev WriteCondition (τ ρ : Type) := τ → ℕ → ρ → ℕ → ρ → Prop

/-- The step writes under the condition, if it writes at all. -/
def WritesMeet (T : τ → RowTransaction ρ) (P : WriteCondition τ ρ) :
    RowOp τ → RowWorld τ ρ → Prop
  | .write i, w =>
    match w.sessions[i]? with
    | some ⟨call,.read seen read⟩ => ((T call).write read w.row).isSome = true →
      P call seen read w.changes.length w.row
    | _ => True
  | _, _ => True

instance (P : WriteCondition τ ρ) [∀ call seen read n found, Decidable (P call seen read n found)]
    (op : RowOp τ) (w : RowWorld τ ρ) : Decidable (WritesMeet T P op w) :=
  match op with
  | .write i =>
    match h : w.sessions[i]? with
    | some ⟨call,.read seen read⟩ =>
      decidable_of_iff (((T call).write read w.row).isSome = true →
        P call seen read w.changes.length w.row) (by rw [WritesMeet,h])
    | some ⟨_,.begun⟩ | some ⟨_,.wrote _ _ _⟩ | some ⟨_,.committed⟩ | some ⟨_,.ended⟩ | none =>
      .isTrue (by simp only [WritesMeet,h])
  | .begin _ | .read _ | .commit _ | .abort _ => .isTrue trivial

/-- No change is committed between the read and the write of a transaction. -/
def fresh : WriteCondition τ ρ := fun _ seen _ n _ => seen = n

instance (call : τ) (seen : ℕ) (read : ρ) (n : ℕ) (found : ρ) :
    Decidable (fresh call seen read n found) :=
  inferInstanceAs (Decidable (seen = n))

variable {P : WriteCondition τ ρ}

structure RowMeets (P : WriteCondition τ ρ) (w : RowWorld τ ρ) : Prop where
  wrote : ∀ (i : ℕ) call seen read row, w.sessions[i]? = some ⟨call,.wrote seen read row⟩ →
    P call seen read w.changes.length w.row
  changes : ∀ (k : ℕ) c, w.changes[k]? = some c → P c.call c.seen c.read k c.before

theorem start_meets (row : ρ) : RowMeets P (RowWorld.start row) :=
  ⟨fun i call n r r' h => by simp [RowWorld.start] at h,
    fun k c h => by simp [RowWorld.start] at h⟩

theorem locking_fresh {first : ρ} {op : RowOp τ} {w : RowWorld τ ρ} (h : RowSound T first w)
    (hlock : ∀ call, (T call).locking = true) : WritesMeet T fresh op w := by
  cases op with
  | write i =>
    simp only [WritesMeet]
    split
    · rename_i call seen read hi
      exact fun _ => h.locked i _ seen read hi rfl (hlock call)
    · trivial
  | begin call => trivial
  | read i => trivial
  | commit i => trivial
  | abort i => trivial

theorem writesMeet_held {i : ℕ} {w : RowWorld τ ρ} {call : τ} {seen : ℕ} {read row : ρ}
    (h : WritesMeet T P (.write i) w) (held : w.sessions[i]? = some ⟨call,.read seen read⟩)
    (write : (T call).write read w.row = some row) :
    P call seen read w.changes.length w.row := by
  simp only [WritesMeet,held,write] at h
  exact h rfl

theorem advance_meets {w : RowWorld τ ρ} (h : RowMeets P w) (i : ℕ) (call : τ)
    {phase : RowPhase ρ} (hphase : ∀ seen read row, phase = .wrote seen read row →
      P call seen read w.changes.length w.row) :
    RowMeets P (w.advance i call phase) := by
  refine ⟨?_,h.changes⟩
  intro k c seen read row hk
  rcases set_get hk with ⟨-,hs⟩ | ⟨-,hk⟩
  · cases hs
    exact hphase seen read row rfl
  · exact h.wrote k c seen read row hk

theorem effect_meets {first : ρ} {op : RowOp τ} {w w' : RowWorld τ ρ} (hs : RowSound T first w)
    (h : RowMeets P w) (hguard : WritesMeet T P op w) (he : RowEffect T w op w') :
    RowMeets P w' := by
  cases he with
  | unchanged => exact h
  | begun call =>
    refine ⟨?_,h.changes⟩
    intro i c seen read row hi
    rcases snoc_get hi with hi | ⟨-,hs⟩
    · exact h.wrote i c seen read row hi
    · cases hs
  | read i call held free =>
    apply advance_meets h
    intro seen read row hp
    cases hp
  | wrote i call seen read row held free write =>
    apply advance_meets h
    intro n r r' hp
    cases hp
    exact writesMeet_held hguard held write
  | ended op i call phase held =>
    apply advance_meets h
    intro n r r' hp
    cases hp
  | committed i call seen read row held =>
    constructor
    · intro k c n r r' hk
      rcases set_get hk with ⟨-,hp⟩ | ⟨hki,hk⟩
      · cases hp
      · exact absurd (hs.alone k i _ _ hk held rfl rfl) hki
    · intro k c hk
      rcases snoc_get hk with hk | ⟨rfl,rfl⟩
      · exact h.changes k c hk
      · exact h.wrote i call seen read row held

theorem step_meets {first : ρ} (op : RowOp τ) (w : RowWorld τ ρ) (hg : WritesMeet T P op w)
    (h : RowSound T first w ∧ RowMeets P w) :
    RowSound T first (rowStep T op w) ∧ RowMeets P (rowStep T op w) :=
  ⟨step_rowSound op w h.1,effect_meets h.1 h.2 hg (rowStep_effect T op w)⟩

theorem run_meets (ops : List (RowOp τ)) (row : ρ)
    (hg : Along (rowStep T) (WritesMeet T P) ops (RowWorld.start row)) :
    RowMeets P (run (rowStep T) ops (RowWorld.start row)) :=
  (guarded_invariant step_meets ops _ hg ⟨start_sound T row,start_meets row⟩).2

/-- Every change raises the count by one. -/
def Counts (version : ρ → ℕ) (cs : List (RowChange τ ρ)) : Prop :=
  ∀ c ∈ cs, version c.after = version c.before+1

theorem chained_count {first last : ρ} (h : Chained first cs last) (hv : Counts version cs) :
    version last = version first+cs.length ∧
    cs.map (fun c => version c.before) = List.range' (version first) cs.length := by
  induction cs generalizing first with
  | nil =>
    obtain rfl : last = first := h
    exact ⟨rfl,rfl⟩
  | cons c cs ih =>
    obtain ⟨hc,hrest⟩ := h
    obtain ⟨hlast,hmap⟩ := ih hrest fun d hd => hv d (List.mem_cons_of_mem _ hd)
    have hnext := hv c List.mem_cons_self
    rw [hc] at hnext
    constructor
    · rw [hlast,hnext,List.length_cons]
      omega
    · rw [List.map_cons,List.length_cons,List.range'_succ,hmap,hnext,hc]

theorem chained_distinct {first last : ρ} (h : Chained first cs last) (hv : Counts version cs) :
    (cs.map fun c => version c.before).Nodup ∧ (cs.map fun c => version c.after).Nodup := by
  have hbefore := (chained_count h hv).2
  have hnodup : (cs.map fun c => version c.before).Nodup := by
    rw [hbefore]
    exact List.nodup_range'
  refine ⟨hnodup,?_⟩
  have hafter : (cs.map fun c => version c.after) =
      (cs.map fun c => version c.before).map (·+1) := by
    rw [List.map_map]
    exact List.map_congr_left fun c hc => hv c hc
  rw [hafter]
  exact List.Nodup.map (fun a b hab => Nat.succ.inj hab) hnodup

theorem chained_passed {first last : ρ} (h : Chained first cs last) (hv : Counts version cs) {n : ℕ}
    (hfirst : version first ≤ n) (hlast : n < version last) : ∃! i : ℕ, ∃ c : RowChange τ ρ,
      cs[i]? = some c ∧ version c.before = n := by
  obtain ⟨hcount,hmap⟩ := chained_count h hv
  have hget : ∀ i c, cs[i]? = some c → version c.before = version first+i := by
    intro i c hi
    have hlist : (cs.map fun c => version c.before)[i]? = some (version c.before) := by
      rw [List.getElem?_map,hi]
      rfl
    rw [hmap,List.getElem?_range' (List.getElem?_eq_some_iff.mp hi).1] at hlist
    simpa using (Option.some.inj hlist).symm
  have hlt : n-version first < cs.length := by omega
  refine ⟨n-version first,⟨cs[n-version first],List.getElem?_eq_getElem hlt,?_⟩,?_⟩
  · rw [hget _ _ (List.getElem?_eq_getElem hlt)]
    omega
  · rintro i ⟨c,hi,hc⟩
    have := hget i c hi
    omega

def rowHistory (first : ρ) (cs : List (RowChange τ ρ)) : List ρ := first::cs.map RowChange.after

theorem before_history {first last : ρ} (h : Chained first cs last) (hc : c ∈ cs) :
    c.before ∈ rowHistory first cs := by
  induction cs generalizing first with
  | nil => cases hc
  | cons d cs ih =>
    rcases List.mem_cons.mp hc with rfl | hc
    · rw [h.1]
      exact List.mem_cons_self
    · exact List.mem_cons_of_mem _ (ih h.2 hc)

theorem history_versions {first last : ρ} (h : Chained first cs last) (hv : Counts version cs) :
    (rowHistory first cs).map version = List.range' (version first) (cs.length+1) := by
  have hbefore := (chained_count h hv).2
  have hafter : (cs.map RowChange.after).map version =
      (cs.map fun c => version c.before).map (·+1) := by
    rw [List.map_map,List.map_map]
    exact List.map_congr_left fun c hc => hv c hc
  rw [rowHistory,List.map_cons,hafter,hbefore,List.range'_succ]
  congr 1
  rw [List.range'_eq_map_range,List.range'_eq_map_range,List.map_map]
  exact List.map_congr_left fun n _ => Nat.add_right_comm _ _ _

theorem history_row {first last : ρ} (h : Chained first cs last) (hv : Counts version cs)
    {row row' : ρ} (hrow : row ∈ rowHistory first cs) (hrow' : row' ∈ rowHistory first cs)
    (heq : version row = version row') : row = row' := by
  have hnodup : ((rowHistory first cs).map version).Nodup := by
    rw [history_versions h hv]
    exact List.nodup_range'
  exact List.inj_on_of_nodup_map hnodup hrow hrow' heq

/-- Every change replaces the row it has read and raises its version by one. -/
structure Lossless (version : ρ → ℕ) (first : ρ) (w : RowWorld τ ρ) : Prop where
  chained : Chained first w.changes w.row
  raised : Counts version w.changes
  distinct : (w.changes.map fun c => version c.after).Nodup
  current : ∀ (k : ℕ) c, w.changes[k]? = some c → c.seen = k ∧ c.read = c.before

theorem fresh_lossless {first : ρ} {w : RowWorld τ ρ} (hs : RowSound T first w)
    (hm : RowMeets fresh w)
    (hraise : ∀ call read row, (T call).write read read = some row → version row = version read+1) :
    Lossless version first w := by
  have hcurrent : ∀ (k : ℕ) c, w.changes[k]? = some c → c.seen = k ∧ c.read = c.before := by
    intro k c hk
    have hseen : c.seen = k := hm.changes k c hk
    exact ⟨hseen,(hs.changes k c hk).2 hseen⟩
  have hraised : Counts version w.changes := by
    intro c hc
    obtain ⟨k,hk⟩ := List.getElem?_of_mem hc
    have hwrite := (hs.changes k c hk).1
    rw [(hcurrent k c hk).2] at hwrite
    exact hraise c.call c.before c.after hwrite
  exact ⟨hs.chained,hraised,(chained_distinct hs.chained hraised).2,hcurrent⟩

end Relational
