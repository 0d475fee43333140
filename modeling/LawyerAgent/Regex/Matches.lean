import LawyerAgent.Regex.Pattern

/-!
# What matches take and where they stand

A match takes only characters its pattern names, and so does each of its
groups. The matches of a scan lie in the text one after the other.
-/

set_option autoImplicit false

namespace Regex

variable {α γ : Type}

theorem slice_length (s : List α) (start stop : ℕ) :
    (slice s start stop).length = min stop s.length-start := by
  simp [slice,List.length_take]

theorem slice_append (s : List α) {a b c : ℕ} (hab : a ≤ b) (hbc : b ≤ c) :
    slice s a b++slice s b c = slice s a c := by
  have hb : s.take b = (s.take c).take b := by rw [List.take_take,Nat.min_eq_left hbc]
  have hc : slice s a c = ((s.take c).take b).drop a++(s.take c).drop b := by
    by_cases hlength : b ≤ (s.take c).length
    · conv_lhs => rw [slice,← List.take_append_drop b (s.take c)]
      rw [List.drop_append_of_le_length]
      rw [List.length_take,Nat.min_eq_left hlength]
      exact hab
    · rw [List.take_of_length_le (by omega),List.drop_eq_nil_of_le (by omega : _ ≤ b)]
      simp [slice]
  rw [hc,slice,slice,hb]

theorem mem_of_mem_slice {s : List α} {start stop : ℕ} {a : α} (h : a ∈ slice s start stop) :
    a ∈ s :=
  List.mem_of_mem_take (List.mem_of_mem_drop h)

/-- Every character the pattern takes satisfies `P`; assertions take none. -/
def Pattern.Over (P : α → Prop) : Pattern α γ → Prop
  | .nothing | .ahead _ | .notAhead _ | .atEnd _ => True
  | .set p => ∀ c, p c = true → P c
  | .seq a b | .alt a b => a.Over P ∧ b.Over P
  | .star a | .group _ a => a.Over P

def Match.Over (m : Match γ) (P : α → Prop) (s : List α) : Prop := ∀ c ∈ s.take m.stop, P c

variable {P : α → Prop} {name : γ} {body : List α → List (Match γ)}

theorem andThen_over {m k : Match γ} {s : List α} (hm : m.Over P s)
    (hk : k.Over P (s.drop m.stop)) :
    (m.andThen k).Over P s := by
  intro c hc
  simp only [Match.andThen,List.take_add] at hc
  rcases List.mem_append.mp hc with h | h
  · exact hm c h
  · exact hk c h

theorem slice_drop (s : List α) (n start stop : ℕ) :
    slice s (n+start) (n+stop) = slice (s.drop n) start stop := by
  simp only [slice]
  rw [← List.drop_drop,List.drop_take]
  congr 2
  omega

theorem over_nothing (P : α → Prop) (s : List α) : Match.Over (⟨0,[]⟩ : Match γ) P s := by
  intro c hc
  simp at hc

theorem iterate_over (hbody : ∀ s, ∀ m ∈ body s, m.Over P s) (fuel : ℕ) (s : List α) :
    ∀ m ∈ iterate body fuel s, m.Over P s := by
  induction fuel generalizing s with
  | zero =>
    intro m hm
    exact List.mem_singleton.mp hm ▸ over_nothing P s
  | succ fuel ih =>
    intro m hm
    rcases List.mem_append.mp hm with h | h
    · obtain ⟨first,hfirst,h⟩ := List.mem_flatMap.mp h
      obtain ⟨rest,hrest,rfl⟩ := List.mem_map.mp h
      exact andThen_over (hbody s first (List.mem_filter.mp hfirst).1)
        (ih (s.drop first.stop) rest hrest)
    · exact List.mem_singleton.mp h ▸ over_nothing P s

theorem run_over (p : Pattern α γ) (hp : p.Over P) (s : List α) :
    ∀ m ∈ run p s, m.Over P s := by
  induction p generalizing s with
  | nothing =>
    intro m hm
    exact List.mem_singleton.mp hm ▸ over_nothing P s
  | set p =>
    intro m hm
    cases s with
    | nil => simp [run] at hm
    | cons c s =>
      by_cases h : p c
      · simp only [run,h,if_true,List.mem_singleton] at hm
        subst hm
        intro a ha
        simp only [List.take_succ_cons,List.take_zero,List.mem_singleton] at ha
        exact ha ▸ hp c h
      · simp [run,h] at hm
  | seq a b iha ihb =>
    intro m hm
    obtain ⟨first,hfirst,h⟩ := List.mem_flatMap.mp hm
    obtain ⟨rest,hrest,rfl⟩ := List.mem_map.mp h
    exact andThen_over (iha hp.1 s first hfirst) (ihb hp.2 _ rest hrest)
  | alt a b iha ihb =>
    intro m hm
    rcases List.mem_append.mp hm with h | h
    · exact iha hp.1 s m h
    · exact ihb hp.2 s m h
  | star a ih => exact iterate_over (ih hp) s.length s
  | group name a ih =>
    intro m hm
    obtain ⟨inner,hinner,rfl⟩ := List.mem_map.mp hm
    exact ih hp s inner hinner
  | ahead a ih =>
    intro m hm
    obtain ⟨inner,hinner,rfl⟩ := List.mem_map.mp hm
    intro c hc
    simp at hc
  | notAhead a ih =>
    intro m hm
    by_cases h : (run a s).isEmpty
    · simp only [run,h,if_true,List.mem_singleton] at hm
      exact hm ▸ over_nothing P s
    · simp [run,h] at hm
  | atEnd newline =>
    intro m hm
    rcases s with _ | ⟨c,_ | _⟩
    · exact List.mem_singleton.mp hm ▸ over_nothing P _
    · by_cases h : newline c
      · simp only [run,h,if_true,List.mem_singleton] at hm
        exact hm ▸ over_nothing P _
      · simp [run,h] at hm
    · simp [run] at hm

theorem startOf_le_stopOf [DecidableEq γ] {m : Match γ} {length : ℕ} (h : m.Within length)
    (name : γ) : m.startOf name ≤ m.stopOf name := by
  unfold Match.startOf Match.stopOf
  cases hgroup : m.group name with
  | none => exact Nat.le_refl 0
  | some c => exact (h.group_le c (group_mem hgroup).1).1

theorem stopOf_le [DecidableEq γ] {m : Match γ} {length : ℕ} (h : m.Within length) (name : γ) :
    m.stopOf name ≤ length := by
  unfold Match.stopOf
  cases hgroup : m.group name with
  | none => exact Nat.zero_le _
  | some c => exact (h.group_le c (group_mem hgroup).1).2

theorem textOf_eq_slice [DecidableEq γ] (m : Match γ) (name : γ) (s : List α) :
    m.textOf name s = slice s (m.startOf name) (m.stopOf name) := by
  unfold Match.textOf Match.startOf Match.stopOf
  cases m.group name with
  | none => simp [slice]
  | some c => rfl

theorem start_andThen (k : Match γ) : (⟨0,[]⟩ : Match γ).andThen k = k := by
  obtain ⟨stop,groups⟩ := k
  have hshift : Capture.shift (γ := γ) 0 = id := by
    funext c
    simp [Capture.shift]
  simp [Match.andThen,hshift]

theorem run_skip {p : α → Bool} {c : α} (h : p c = false) (q : Pattern α γ) (s : List α) :
    run (.seq (.star (.set p)) q) (c::s) = run q (c::s) := by
  have hmap : (run q (c::s)).map (⟨0,[]⟩ : Match γ).andThen = run q (c::s) := by
    simp [funext start_andThen]
  simpa [run,iterate,h] using hmap

theorem findFrom_match (p : Pattern α γ) (s : List α) (pos skip : ℕ) :
    ∀ f ∈ findFrom p pos skip s,
      pos+skip ≤ f.1 ∧ 0 < f.2.stop ∧ match? p (s.drop (f.1-pos)) = some f.2 ∧
      f.1+f.2.stop ≤ pos+s.length := by
  induction s generalizing pos skip with
  | nil => simp [findFrom]
  | cons c s ih =>
    have htail : ∀ skip', ∀ f ∈ findFrom p (pos+1) skip' s,
        pos+1+skip' ≤ f.1 ∧ 0 < f.2.stop ∧ match? p ((c::s).drop (f.1-pos)) = some f.2 ∧
        f.1+f.2.stop ≤ pos+(c::s).length := by
      intro skip' f hf
      obtain ⟨hle,hpos,hmatch,hstop⟩ := ih (pos+1) skip' f hf
      have hdrop : (c::s).drop (f.1-pos) = s.drop (f.1-(pos+1)) := by
        rw [show f.1-pos = (f.1-(pos+1))+1 by omega,List.drop_succ_cons]
      refine ⟨hle,hpos,hdrop ▸ hmatch,?_⟩
      rw [List.length_cons]
      omega
    intro f hf
    cases skip with
    | succ skip =>
      have h := htail skip f hf
      exact ⟨by omega,h.2⟩
    | zero =>
      rw [findFrom] at hf
      split at hf
      · rename_i m hm
        split at hf
        · have h := htail 0 f hf
          exact ⟨by omega,h.2⟩
        · rcases List.mem_cons.mp hf with rfl | h
          · have hw := (match_within hm).stop_le
            refine ⟨Nat.le_refl _,Nat.pos_of_ne_zero ‹_›,?_,?_⟩
            · simpa using hm
            · simpa using hw
          · have h := htail _ f h
            exact ⟨by omega,h.2⟩
      · have h := htail 0 f hf
        exact ⟨by omega,h.2⟩

theorem findFrom_pairwise (p : Pattern α γ) (s : List α) (pos skip : ℕ) :
    (findFrom p pos skip s).Pairwise fun f g => f.1+f.2.stop ≤ g.1 := by
  induction s generalizing pos skip with
  | nil => simp [findFrom]
  | cons c s ih =>
    cases skip with
    | succ skip => exact ih (pos+1) skip
    | zero =>
      rw [findFrom]
      split
      · split
        · exact ih (pos+1) 0
        · rename_i m _ hstop
          refine List.pairwise_cons.mpr ⟨?_,ih (pos+1) (m.stop-1)⟩
          intro g hg
          have := (findFrom_match p s (pos+1) (m.stop-1) g hg).1
          change pos+m.stop ≤ g.1
          omega
      · exact ih (pos+1) 0

theorem findIter_match {p : Pattern α γ} {s : List α} {f : ℕ × Match γ}
    (h : f ∈ findIter p s) :
    0 < f.2.stop ∧ match? p (s.drop f.1) = some f.2 ∧ f.1+f.2.stop ≤ s.length := by
  obtain ⟨-,hpos,hmatch,hstop⟩ := findFrom_match p s 0 0 f h
  exact ⟨hpos,by simpa using hmatch,by simpa using hstop⟩

theorem findIter_pairwise (p : Pattern α γ) (s : List α) :
    (findIter p s).Pairwise fun f g => f.1+f.2.stop ≤ g.1 :=
  findFrom_pairwise p s 0 0

end Regex

namespace Regex

variable {α γ : Type}

variable {s : List α} {p : α → Bool}

theorem match_seq {a b : Pattern α γ} {m k : Match γ} (ha : match? a s = some m)
    (hb : match? b (s.drop m.stop) = some k) : match? (.seq a b) s = some (m.andThen k) := by
  obtain ⟨later,hrun⟩ := List.head?_eq_some_iff.mp ha
  obtain ⟨rest,hnext⟩ := List.head?_eq_some_iff.mp hb
  unfold match?
  rw [run,hrun,List.flatMap_cons,hnext]
  rfl

theorem match_group {a : Pattern α γ} {m : Match γ} (name : γ) (h : match? a s = some m) :
    match? (.group name a) s = some ⟨m.stop,m.groups++[⟨name,0,m.stop⟩]⟩ := by
  obtain ⟨later,hrun⟩ := List.head?_eq_some_iff.mp h
  unfold match?
  rw [run,hrun]
  rfl

theorem match_alt_right {a b : Pattern α γ} {m : Match γ} (ha : run a s = [])
    (hb : match? b s = some m) : match? (.alt a b) s = some m := by
  unfold match? at hb ⊢
  rw [run,ha]
  exact hb

theorem match_set {c : α} (h : p c = true) :
    match? (.set p : Pattern α γ) (c::s) = some ⟨1,[]⟩ := by
  unfold match?
  rw [run,if_pos h]
  rfl

theorem match_notAhead {a : Pattern α γ} (h : run a s = []) :
    match? (.notAhead a) s = some ⟨0,[]⟩ := by
  unfold match?
  rw [run,h]
  rfl

theorem match_star {word rest : List α} (hword : ∀ c ∈ word, p c = true)
    (hrest : ∀ c ∈ rest.head?, p c = false) :
    match? (.star (.set p) : Pattern α γ) (word++rest) = some ⟨word.length,[]⟩ := by
  have hfuel : ∀ fuel, word.length ≤ fuel →
      (iterate (run (.set p : Pattern α γ)) fuel (word++rest)).head? = some ⟨word.length,[]⟩ := by
    induction word with
    | nil =>
      intro fuel _
      cases fuel with
      | zero => rfl
      | succ fuel =>
        have hnone : run (.set p : Pattern α γ) rest = [] := by
          cases rest with
          | nil => rfl
          | cons c rest => simp [run,hrest c rfl]
        rw [List.nil_append,iterate,hnone]
        rfl
    | cons c word ih =>
      intro fuel hfuel
      cases fuel with
      | zero => simp at hfuel
      | succ fuel =>
        have hone : run (.set p : Pattern α γ) (c::(word++rest)) = [⟨1,[]⟩] := by
          rw [run,if_pos (hword c List.mem_cons_self)]
        obtain ⟨later,hlater⟩ := List.head?_eq_some_iff.mp
          (ih (fun d hd => hword d (List.mem_cons_of_mem _ hd)) fuel (by simpa using hfuel))
        rw [List.cons_append,iterate,hone]
        simp [hlater,Match.andThen,Nat.add_comm]
  exact hfuel (word++rest).length (by simp)

theorem match_plus {word rest : List α} (hne : word ≠ []) (hword : ∀ c ∈ word, p c = true)
    (hrest : ∀ c ∈ rest.head?, p c = false) :
    match? (.plus (.set p) : Pattern α γ) (word++rest) = some ⟨word.length,[]⟩ := by
  obtain ⟨c,word,rfl⟩ := List.exists_cons_of_ne_nil hne
  have hfirst : match? (.set p : Pattern α γ) (c::word++rest) = some ⟨1,[]⟩ :=
    match_set (hword c List.mem_cons_self)
  have hstar : match? (.star (.set p) : Pattern α γ) ((c::word++rest).drop 1) =
      some ⟨word.length,[]⟩ :=
    match_star (fun d hd => hword d (List.mem_cons_of_mem _ hd)) hrest
  rw [Pattern.plus,match_seq hfirst hstar]
  simp [Match.andThen,Nat.add_comm]

theorem match_star_some (a : Pattern α γ) (s : List α) : ∃ m, match? (.star a) s = some m := by
  unfold match? run
  cases hlength : s.length with
  | zero => exact ⟨_,rfl⟩
  | succ fuel =>
    rw [iterate]
    cases hsome : (((run a s).filter (0 < ·.stop)).flatMap fun m =>
        (iterate (run a) fuel (s.drop m.stop)).map m.andThen) with
    | nil => exact ⟨_,rfl⟩
    | cons m later => exact ⟨m,rfl⟩

theorem star_groups {m : Match γ} (h : match? (.star (.set p) : Pattern α γ) s = some m) :
    m.groups = [] := by
  have hall : ∀ fuel s, ∀ m ∈ iterate (run (.set p : Pattern α γ)) fuel s, m.groups = [] := by
    intro fuel
    induction fuel with
    | zero =>
      intro s m hm
      rw [List.mem_singleton.mp hm]
    | succ fuel ih =>
      intro s m hm
      rcases List.mem_append.mp hm with hm | hm
      · obtain ⟨first,hfirst,hm⟩ := List.mem_flatMap.mp hm
        obtain ⟨later,hlater,rfl⟩ := List.mem_map.mp hm
        have hone : first.groups = [] := by
          have hmem := (List.mem_filter.mp hfirst).1
          cases s with
          | nil => cases hmem
          | cons c s =>
            rw [run] at hmem
            split at hmem
            · rw [List.mem_singleton.mp hmem]
            · cases hmem
        simp [Match.andThen,hone,ih _ later hlater]
      · rw [List.mem_singleton.mp hm]
  exact hall s.length s m (List.mem_of_mem_head? h)

theorem fullmatch_first {p : Pattern α γ} {m : Match γ} (h : match? p s = some m)
    (hstop : m.stop = s.length) : fullmatch? p s = some m := by
  obtain ⟨later,hrun⟩ := List.head?_eq_some_iff.mp h
  unfold fullmatch?
  rw [hrun,List.find?_cons_of_pos (by simp [hstop])]

end Regex
