import Mathlib.Data.List.Basic

/-!
# Regular expressions with backtracking

`run` lists the matches at the front of a text in the order a backtracking
matcher tries them: alternatives from left to right, repetitions as long as
possible. The first of them is the match. An iteration of `star` that takes
nothing is not repeated.
-/

set_option autoImplicit false

namespace Regex

variable {α γ : Type}

inductive Pattern (α γ : Type)
  | nothing
  | set (p : α → Bool)
  | seq (first second : Pattern α γ)
  | alt (first second : Pattern α γ)
  | star (body : Pattern α γ)
  | group (name : γ) (body : Pattern α γ)
  | ahead (body : Pattern α γ)
  | notAhead (body : Pattern α γ)
  /-- At the end of the text or before a last newline. -/
  | atEnd (newline : α → Bool)

structure Capture (γ : Type) where
  name : γ
  start : ℕ
  stop : ℕ

structure Match (γ : Type) where
  stop : ℕ
  groups : List (Capture γ)

namespace Pattern

def seqs : List (Pattern α γ) → Pattern α γ
  | [] => .nothing
  | [p] => p
  | p::q::ps => .seq p (seqs (q::ps))

def alts : List (Pattern α γ) → Pattern α γ
  | [] => .set fun _ => false
  | [p] => p
  | p::q::ps => .alt p (alts (q::ps))

def plus (p : Pattern α γ) : Pattern α γ := .seq p (.star p)

def opt (p : Pattern α γ) : Pattern α γ := .alt p .nothing

def times (p : Pattern α γ) : ℕ → Pattern α γ
  | 0 => .nothing
  | n+1 => .seq p (times p n)

def upTo (p : Pattern α γ) : ℕ → Pattern α γ
  | 0 => .nothing
  | n+1 => .opt (.seq p (upTo p n))

def between (p : Pattern α γ) (least most : ℕ) : Pattern α γ :=
  .seq (p.times least) (p.upTo (most-least))

def char [DecidableEq α] (a : α) : Pattern α γ := .set (· == a)

def text [DecidableEq α] (s : List α) : Pattern α γ := seqs (s.map char)

end Pattern

def Capture.shift (n : ℕ) (c : Capture γ) : Capture γ := ⟨c.name,n+c.start,n+c.stop⟩

/-- The match of a sequence: `k` starts where `m` stops. -/
def Match.andThen (m k : Match γ) : Match γ :=
  ⟨m.stop+k.stop,m.groups++k.groups.map (Capture.shift m.stop)⟩

def iterate (body : List α → List (Match γ)) : ℕ → List α → List (Match γ)
  | 0, _ => [⟨0,[]⟩]
  | fuel+1, s =>
    (((body s).filter (0 < ·.stop)).flatMap fun m =>
      (iterate body fuel (s.drop m.stop)).map m.andThen)++[⟨0,[]⟩]

def run : Pattern α γ → List α → List (Match γ)
  | .nothing, _ => [⟨0,[]⟩]
  | .set _, [] => []
  | .set p, c::_ => if p c then [⟨1,[]⟩] else []
  | .seq a b, s => (run a s).flatMap fun m => (run b (s.drop m.stop)).map m.andThen
  | .alt a b, s => run a s++run b s
  | .star a, s => iterate (run a) s.length s
  | .group name a, s => (run a s).map fun m => ⟨m.stop,m.groups++[⟨name,0,m.stop⟩]⟩
  | .ahead a, s => (run a s).head?.toList.map fun m => ⟨0,m.groups⟩
  | .notAhead a, s => if (run a s).isEmpty then [⟨0,[]⟩] else []
  | .atEnd _, [] => [⟨0,[]⟩]
  | .atEnd newline, [c] => if newline c then [⟨0,[]⟩] else []
  | .atEnd _, _::_::_ => []

def match? (p : Pattern α γ) (s : List α) : Option (Match γ) := (run p s).head?

def fullmatch? (p : Pattern α γ) (s : List α) : Option (Match γ) :=
  (run p s).find? (·.stop == s.length)

def search (p : Pattern α γ) (s : List α) : Bool := s.tails.any fun t => (match? p t).isSome

/-- A group's last capture. -/
def Match.group [DecidableEq γ] (m : Match γ) (name : γ) : Option (Capture γ) :=
  m.groups.reverse.find? (·.name == name)

def slice (s : List α) (start stop : ℕ) : List α := (s.take stop).drop start

def Capture.text (c : Capture γ) (s : List α) : List α := slice s c.start c.stop

def Match.stopOf [DecidableEq γ] (m : Match γ) (name : γ) : ℕ :=
  (m.group name).elim 0 Capture.stop

def Match.startOf [DecidableEq γ] (m : Match γ) (name : γ) : ℕ :=
  (m.group name).elim 0 Capture.start

def Match.textOf [DecidableEq γ] (m : Match γ) (name : γ) (s : List α) : List α :=
  (m.group name).elim [] fun c => c.text s

/-- The matches that take something, from left to right, each after the one
before it; `skip` characters still belong to the last of them. -/
def findFrom (p : Pattern α γ) : ℕ → ℕ → List α → List (ℕ × Match γ)
  | _, _, [] => []
  | pos, skip+1, _::s => findFrom p (pos+1) skip s
  | pos, 0, c::s =>
    match match? p (c::s) with
    | some m =>
      if m.stop = 0 then findFrom p (pos+1) 0 s
      else (pos,m)::findFrom p (pos+1) (m.stop-1) s
    | none => findFrom p (pos+1) 0 s

def findIter (p : Pattern α γ) (s : List α) : List (ℕ × Match γ) := findFrom p 0 0 s

def piecesFrom (s : List α) (start : ℕ) : List (ℕ × Match γ) → List (List α)
  | [] => [s.drop start]
  | (i,m)::rest => slice s start i::piecesFrom s (i+m.stop) rest

def split (p : Pattern α γ) (s : List α) : List (List α) := piecesFrom s 0 (findIter p s)

structure Match.Within (m : Match γ) (length : ℕ) : Prop where
  stop_le : m.stop ≤ length
  group_le : ∀ c ∈ m.groups, c.start ≤ c.stop ∧ c.stop ≤ length

theorem within_nothing (length : ℕ) : Match.Within (⟨0,[]⟩ : Match γ) length :=
  ⟨Nat.zero_le _,by simp⟩

theorem andThen_within {m k : Match γ} {length : ℕ} (hm : m.Within length)
    (hk : k.Within (length-m.stop)) : (m.andThen k).Within length := by
  have hms := hm.stop_le
  have hks := hk.stop_le
  refine ⟨?_,?_⟩
  · simp only [Match.andThen]
    omega
  · intro c hc
    rcases List.mem_append.mp hc with h | h
    · exact hm.group_le c h
    · obtain ⟨d,hd,rfl⟩ := List.mem_map.mp h
      have := hk.group_le d hd
      simp only [Capture.shift]
      omega

theorem iterate_within {body : List α → List (Match γ)}
    (hbody : ∀ s, ∀ m ∈ body s, m.Within s.length) (fuel : ℕ) (s : List α) :
    ∀ m ∈ iterate body fuel s, m.Within s.length := by
  induction fuel generalizing s with
  | zero =>
    intro m hm
    rw [List.mem_singleton.mp hm]
    exact within_nothing _
  | succ fuel ih =>
    intro m hm
    rcases List.mem_append.mp hm with h | h
    · obtain ⟨first,hfirst,h⟩ := List.mem_flatMap.mp h
      obtain ⟨rest,hrest,rfl⟩ := List.mem_map.mp h
      have hlength : (s.drop first.stop).length = s.length-first.stop := List.length_drop
      exact andThen_within (hbody s first (List.mem_filter.mp hfirst).1)
        (hlength ▸ ih (s.drop first.stop) rest hrest)
    · rw [List.mem_singleton.mp h]
      exact within_nothing _

theorem run_within (p : Pattern α γ) (s : List α) : ∀ m ∈ run p s, m.Within s.length := by
  induction p generalizing s with
  | nothing =>
    intro m hm
    rw [List.mem_singleton.mp hm]
    exact within_nothing _
  | set p =>
    intro m hm
    cases s with
    | nil => simp [run] at hm
    | cons c s =>
      by_cases hp : p c
      · simp only [run,hp,if_true,List.mem_singleton] at hm
        subst hm
        exact ⟨by simp,by simp⟩
      · simp [run,hp] at hm
  | seq a b iha ihb =>
    intro m hm
    obtain ⟨first,hfirst,h⟩ := List.mem_flatMap.mp hm
    obtain ⟨rest,hrest,rfl⟩ := List.mem_map.mp h
    have hlength : (s.drop first.stop).length = s.length-first.stop := List.length_drop
    exact andThen_within (iha s first hfirst) (hlength ▸ ihb _ rest hrest)
  | alt a b iha ihb =>
    intro m hm
    rcases List.mem_append.mp hm with h | h
    · exact iha s m h
    · exact ihb s m h
  | star a ih => exact iterate_within ih s.length s
  | group name a ih =>
    intro m hm
    obtain ⟨inner,hinner,rfl⟩ := List.mem_map.mp hm
    have hw := ih s inner hinner
    refine ⟨hw.stop_le,?_⟩
    intro c hc
    rcases List.mem_append.mp hc with h | h
    · exact hw.group_le c h
    · rw [List.mem_singleton.mp h]
      exact ⟨Nat.zero_le _,hw.stop_le⟩
  | ahead a ih =>
    intro m hm
    obtain ⟨inner,hinner,rfl⟩ := List.mem_map.mp hm
    have hw := ih s inner (List.mem_of_mem_head? (Option.mem_toList.mp hinner))
    exact ⟨Nat.zero_le _,hw.group_le⟩
  | notAhead a ih =>
    intro m hm
    by_cases h : (run a s).isEmpty
    · simp only [run,h,if_true,List.mem_singleton] at hm
      exact hm ▸ within_nothing _
    · simp [run,h] at hm
  | atEnd newline =>
    intro m hm
    match s with
    | [] => exact List.mem_singleton.mp hm ▸ within_nothing _
    | [c] =>
      by_cases h : newline c
      · simp only [run,h,if_true,List.mem_singleton] at hm
        exact hm ▸ within_nothing _
      · simp [run,h] at hm
    | _::_::_ => simp [run] at hm

theorem match_within {p : Pattern α γ} {s : List α} {m : Match γ} (h : match? p s = some m) :
    m.Within s.length :=
  run_within p s m (List.mem_of_mem_head? h)

theorem group_mem [DecidableEq γ] {m : Match γ} {name : γ} {c : Capture γ}
    (h : m.group name = some c) : c ∈ m.groups ∧ c.name = name :=
  ⟨List.mem_reverse.mp (List.mem_of_find?_eq_some h),by
    simpa using List.find?_some h⟩

example : search (.text ['b'] : Pattern Char Unit) ['a','b'] = true := by decide +kernel

end Regex
