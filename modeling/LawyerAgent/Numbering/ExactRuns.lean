import Mathlib.Data.List.Basic
import Mathlib.Data.List.Range
import Mathlib.Order.Basic

/-!
# Runs of numbers between anchors

A reader of a numbered text meets anchors, whose number is certain, candidates
and barriers. It accepts the candidates met between two anchors when no barrier
came among them and their numbers fill the gap between the anchors' exactly.
-/

set_option autoImplicit false

namespace Numbering

variable {ι κ : Type}

inductive Event (κ : Type)
  | barrier
  | anchor (number : ℕ)
  | candidate (item : κ)

structure State (κ : Type) where
  left : Option ℕ
  pending : List κ
  accepted : List κ

def State.start : State κ := ⟨none,[],[]⟩

def exactRun (number : κ → ℕ) (left : ℕ) (items : List κ) (right : ℕ) : Bool :=
  ((right:ℤ)-left-1 == items.length) &&
  (items.zipIdx 1).all fun item => number item.1 == left+item.2

def close (number : κ → ℕ) (left : Option ℕ) (pending : List κ) (right : ℕ) : List κ :=
  match left with
  | some left => if !pending.isEmpty && exactRun number left pending right then pending else []
  | none => []

def step (number : κ → ℕ) (s : State κ) : Event κ → State κ
  | .barrier => ⟨none,[],s.accepted⟩
  | .candidate item => if s.left.isSome then ⟨s.left,s.pending++[item],s.accepted⟩ else s
  | .anchor n => ⟨some n,[],s.accepted++close number s.left s.pending n⟩

def accept (number : κ → ℕ) (events : List (Event κ)) : List κ :=
  (events.foldl (step number) .start).accepted

def candidates (events : List (Event κ)) : List κ :=
  events.filterMap fun
    | .candidate item => some item
    | _ => none

structure Run (κ : Type) where
  left : ℕ
  items : List κ
  right : ℕ

/-- The two anchors and the items between them count up by one. -/
def Run.Exact (number : κ → ℕ) (r : Run κ) : Prop :=
  r.left::(r.items.map number++[r.right]) = List.range' r.left (r.items.length+2)

/-- The anchors of the run were met at `i` and `j`, and nothing between them
but its items. -/
def Run.Enclosed (located : List (ι × Event κ)) (r : Run κ) (i j : ι) : Prop :=
  ∃ before between after,
    located = before++(i,.anchor r.left)::(between++(j,.anchor r.right)::after) ∧
    between.map Prod.snd = r.items.map .candidate

variable {number : κ → ℕ} {located : List (ι × Event κ)} {r : Run κ} {s : State κ}

theorem zipIdx_all {left : ℕ} (items : List κ) (start : ℕ) :
    ((items.zipIdx start).all fun item => number item.1 == left+item.2) = true ↔
      items.map number = List.range' (left+start) items.length := by
  induction items generalizing start with
  | nil => simp
  | cons item items ih =>
    simp only [List.zipIdx_cons,List.all_cons,Bool.and_eq_true,beq_iff_eq,ih,List.map_cons,
      List.length_cons,List.range'_succ,List.cons.injEq]
    rw [Nat.add_assoc]

theorem exactRun_iff (number : κ → ℕ) (left : ℕ) (items : List κ) (right : ℕ) :
    exactRun number left items right = true ↔ (⟨left,items,right⟩ : Run κ).Exact number := by
  have hrange : List.range' left (items.length+2) =
      left::(List.range' (left+1) items.length++[left+items.length+1]) := by
    rw [List.range'_succ,List.range'_concat]
    simp [Nat.add_comm,Nat.add_left_comm,Nat.add_assoc]
  simp only [exactRun,Bool.and_eq_true,beq_iff_eq,zipIdx_all,Run.Exact,hrange,List.cons.injEq,
    true_and]
  constructor
  · rintro ⟨hright,hitems⟩
    rw [hitems,show right = left+items.length+1 by omega]
  · intro h
    obtain ⟨hitems,hright⟩ := List.append_inj h (by simp)
    have hlast : right = left+items.length+1 := List.singleton_inj.mp hright
    exact ⟨by omega,hitems⟩

theorem enclosed_mono (h : ∃ i j, r.Enclosed located i j) (rest : List (ι × Event κ)) :
    ∃ i j, r.Enclosed (located++rest) i j := by
  obtain ⟨i,j,before,between,after,rfl,hbetween⟩ := h
  exact ⟨i,j,before,between,after++rest,by simp,hbetween⟩

theorem enclosed_anchors {i j : ι} (h : r.Enclosed located i j) :
    (i,.anchor r.left) ∈ located ∧ (j,.anchor r.right) ∈ located := by
  obtain ⟨before,between,after,rfl,-⟩ := h
  simp

theorem enclosed_between [Preorder ι] {i j k : ι} {e : Event κ} (h : r.Enclosed located i j)
    (hsorted : located.Pairwise fun x y => x.1 ≤ y.1) (hmem : (k,e) ∈ located) (hik : i < k)
    (hkj : k < j) : ∃ item ∈ r.items, e = .candidate item := by
  obtain ⟨before,between,after,rfl,hbetween⟩ := h
  obtain ⟨-,hrest,hcross⟩ := List.pairwise_append.mp hsorted
  have hafter := (List.pairwise_append.mp (List.pairwise_cons.mp hrest).2).2.1
  simp only [List.mem_append,List.mem_cons] at hmem
  rcases hmem with h | h | h | h | h
  · exact absurd (hcross _ h _ List.mem_cons_self) (not_le_of_gt hik)
  · exact absurd (congrArg Prod.fst h).le (not_le_of_gt hik)
  · have hmap : e ∈ r.items.map .candidate := hbetween ▸ List.mem_map_of_mem h
    obtain ⟨item,hitem,rfl⟩ := List.mem_map.mp hmap
    exact ⟨item,hitem,rfl⟩
  · exact absurd (congrArg Prod.fst h).ge (not_le_of_gt hkj)
  · exact absurd ((List.pairwise_cons.mp hafter).1 _ h) (not_le_of_gt hkj)

theorem enclosed_items {i j : ι} {R : ι → ι → Prop} (h : r.Enclosed located i j)
    (hsorted : located.Pairwise fun x y => R x.1 y.1) :
    ∀ item ∈ r.items, ∃ k, (k,.candidate item) ∈ located ∧ R i k ∧ R k j := by
  obtain ⟨before,between,after,rfl,hbetween⟩ := h
  intro item hitem
  have hmap : Event.candidate item ∈ between.map Prod.snd :=
    hbetween ▸ List.mem_map_of_mem hitem
  obtain ⟨⟨k,e⟩,hmem,rfl⟩ := List.mem_map.mp hmap
  have hrest := List.pairwise_cons.mp (List.pairwise_append.mp hsorted).2.1
  have hcross := (List.pairwise_append.mp hrest.2).2.2
  exact ⟨k,by simp [hmem],hrest.1 _ (List.mem_append_left _ hmem),
    hcross _ hmem _ List.mem_cons_self⟩

/-- What a reader holds after the events so far: exact enclosed runs, and the
candidates since the last anchor. -/
structure Traced (number : κ → ℕ) (located : List (ι × Event κ)) (s : State κ) : Prop where
  runs : ∃ runs : List (Run κ), s.accepted = runs.flatMap Run.items ∧
    ∀ r ∈ runs, r.Exact number ∧ ∃ i j, r.Enclosed located i j
  opened : ∀ left, s.left = some left → ∃ before between i,
    located = before++(i,.anchor left)::between ∧
    between.map Prod.snd = s.pending.map .candidate
  idle : s.left = none → s.pending = []
  sublist : (s.accepted++s.pending).Sublist (candidates (located.map Prod.snd))

theorem candidates_append (events rest : List (Event κ)) :
    candidates (events++rest) = candidates events++candidates rest :=
  List.filterMap_append

theorem traced_start (number : κ → ℕ) : Traced number ([] : List (ι × Event κ)) .start :=
  ⟨⟨[],rfl,by simp⟩,by simp [State.start],fun _ => rfl,by simp [State.start]⟩

theorem close_sublist (number : κ → ℕ) (left : Option ℕ) (pending : List κ) (right : ℕ) :
    (close number left pending right).Sublist pending := by
  unfold close
  split
  · split
    · exact List.Sublist.refl _
    · exact List.nil_sublist _
  · exact List.nil_sublist _

theorem traced_barrier (h : Traced number located s) (i : ι) :
    Traced number (located++[(i,.barrier)]) (step number s .barrier) := by
  obtain ⟨runs,haccepted,hruns⟩ := h.runs
  refine ⟨⟨runs,haccepted,fun r hr => ⟨(hruns r hr).1,enclosed_mono (hruns r hr).2 _⟩⟩,
    by simp [step],fun _ => rfl,?_⟩
  rw [List.map_append,candidates_append]
  have hold := (List.sublist_append_left s.accepted s.pending).trans h.sublist
  simpa [step,candidates] using hold

theorem traced_candidate (h : Traced number located s) (i : ι) (item : κ) :
    Traced number (located++[(i,.candidate item)]) (step number s (.candidate item)) := by
  obtain ⟨runs,haccepted,hruns⟩ := h.runs
  have hruns' : ∀ r ∈ runs, r.Exact number ∧
      ∃ k l, r.Enclosed (located++[(i,.candidate item)]) k l :=
    fun r hr => ⟨(hruns r hr).1,enclosed_mono (hruns r hr).2 _⟩
  have hcandidates : candidates ((located++[(i,Event.candidate item)]).map Prod.snd) =
      candidates (located.map Prod.snd)++[item] := by
    rw [List.map_append,candidates_append]
    rfl
  cases hleft : s.left with
  | none =>
    have hstep : step number s (.candidate item) = s := by simp [step,hleft]
    rw [hstep]
    refine ⟨⟨runs,haccepted,hruns'⟩,by simp [hleft],h.idle,?_⟩
    rw [hcandidates]
    exact h.sublist.trans (List.sublist_append_left _ _)
  | some left =>
    have hstep : step number s (.candidate item) = ⟨s.left,s.pending++[item],s.accepted⟩ := by
      simp [step,hleft]
    rw [hstep]
    refine ⟨⟨runs,haccepted,hruns'⟩,?_,by simp [hleft],?_⟩
    · intro left' hleft'
      obtain ⟨before,between,k,rfl,hbetween⟩ := h.opened left' hleft'
      refine ⟨before,between++[(i,Event.candidate item)],k,by simp,?_⟩
      rw [List.map_append,hbetween,List.map_append]
      rfl
    · rw [hcandidates]
      simpa using h.sublist.append (List.Sublist.refl [item])

theorem traced_anchor (h : Traced number located s) (i : ι) (n : ℕ) :
    Traced number (located++[(i,.anchor n)]) (step number s (.anchor n)) := by
  obtain ⟨runs,haccepted,hruns⟩ := h.runs
  have hruns' : ∀ r ∈ runs, r.Exact number ∧
      ∃ k l, r.Enclosed (located++[(i,.anchor n)]) k l :=
    fun r hr => ⟨(hruns r hr).1,enclosed_mono (hruns r hr).2 _⟩
  refine ⟨?_,?_,by simp [step],?_⟩
  · by_cases hclose : ∃ left, s.left = some left ∧ exactRun number left s.pending n = true
    · obtain ⟨left,hleft,hexact⟩ := hclose
      obtain ⟨before,between,k,hlocated,hbetween⟩ := h.opened left hleft
      refine ⟨runs++[⟨left,s.pending,n⟩],?_,?_⟩
      · cases hpending : s.pending with
        | nil => simp [step,close,hleft,hpending,haccepted]
        | cons item items =>
          rw [hpending] at hexact
          simp [step,close,hleft,hpending,hexact,haccepted]
      · intro r hr
        rcases List.mem_append.mp hr with h | h
        · exact hruns' r h
        · obtain rfl := List.mem_singleton.mp h
          exact ⟨(exactRun_iff number left s.pending n).mp hexact,
            k,i,before,between,[],by simp [hlocated],hbetween⟩
    · refine ⟨runs,?_,hruns'⟩
      have hnone : close number s.left s.pending n = [] := by
        cases hleft : s.left with
        | none => rfl
        | some left =>
          have : exactRun number left s.pending n = false := by
            by_contra hne
            exact hclose ⟨left,hleft,by simpa using hne⟩
          simp [close,this]
      simp [step,hnone,haccepted]
  · intro left hleft
    obtain rfl : n = left := by simpa [step] using hleft
    exact ⟨located,[],i,rfl,rfl⟩
  · rw [List.map_append,candidates_append]
    have hclosed := ((List.Sublist.refl s.accepted).append
      (close_sublist number s.left s.pending n)).trans h.sublist
    simpa [step,candidates] using hclosed

theorem traced_step (h : Traced number located s) (e : ι × Event κ) :
    Traced number (located++[e]) (step number s e.2) := by
  obtain ⟨i,e⟩ := e
  cases e with
  | barrier => exact traced_barrier h i
  | anchor n => exact traced_anchor h i n
  | candidate item => exact traced_candidate h i item

theorem traced_foldl (h : Traced number located s) (rest : List (ι × Event κ)) :
    Traced number (located++rest) ((rest.map Prod.snd).foldl (step number) s) := by
  induction rest generalizing located s with
  | nil => simpa using h
  | cons e rest ih => simpa using ih (traced_step h e)

/-- What is accepted falls into exact runs, each met between its two anchors
with nothing else. -/
theorem accept_runs (number : κ → ℕ) (located : List (ι × Event κ)) :
    ∃ runs : List (Run κ), accept number (located.map Prod.snd) = runs.flatMap Run.items ∧
      ∀ r ∈ runs, r.Exact number ∧ ∃ i j, r.Enclosed located i j :=
  (traced_foldl (traced_start number) located).runs

theorem accept_sublist (number : κ → ℕ) (located : List (ι × Event κ)) :
    (accept number (located.map Prod.snd)).Sublist (candidates (located.map Prod.snd)) :=
  (List.sublist_append_left _ _).trans (traced_foldl (traced_start number) located).sublist

theorem accept_mem {item : κ} (h : item ∈ accept number (located.map Prod.snd)) :
    ∃ i, (i,.candidate item) ∈ located := by
  have hmem := (accept_sublist number located).subset h
  simp only [candidates,List.mem_filterMap,List.mem_map] at hmem
  obtain ⟨e,⟨⟨i,e'⟩,hlocated,rfl⟩,he⟩ := hmem
  cases e' with
  | candidate other =>
    cases he
    exact ⟨i,hlocated⟩
  | barrier => cases he
  | anchor n => cases he

theorem accept_pairwise {R : κ → κ → Prop}
    (h : located.Pairwise fun x y => ∀ a b, x.2 = .candidate a → y.2 = .candidate b → R a b) :
    (accept number (located.map Prod.snd)).Pairwise R := by
  refine List.Pairwise.sublist (accept_sublist number located) ?_
  rw [candidates,List.filterMap_map]
  refine List.pairwise_filterMap.mpr (h.imp ?_)
  rintro ⟨i,x⟩ ⟨j,y⟩ hxy a ha b hb
  cases x <;> cases y <;> cases ha <;> cases hb
  exact hxy a b rfl rfl

end Numbering
