import LawyerAgent.PythonRepr
import LawyerAgent.Ranking.Positions
import LawyerAgent.RetrievalAnswers
import Mathlib.Algebra.Order.Field.Rat
import Mathlib.Data.Char
import Mathlib.Data.List.Lex
import Mathlib.Data.Rat.Floor

/-!
# Reciprocal rank fusion

The lexical and the dense hits are fused by the sum of `1/(k+rank)` over the
places of a chunk in both lists. Scores are taken in exact arithmetic.
-/

set_option autoImplicit false

namespace LawyerAgent.RetrievalFusion
open Ranking Common
open RetrievalAnswers (LegalSearchHit)
open Envelope (uuidText)
open PythonRepr (uuidText_inj)

structure ScoredHit extends LegalSearchHit where
  score : ℚ
deriving DecidableEq

/-- `round` takes the nearest multiple, of two equally near ones the even one. -/
def roundEven (q : ℚ) : ℤ :=
  let rest := q-⌊q⌋
  if rest < 1/2 then ⌊q⌋
  else if 1/2 < rest then ⌊q⌋+1
  else if ⌊q⌋%2 = 0 then ⌊q⌋ else ⌊q⌋+1

def round (q : ℚ) (ndigits : ℕ) : ℚ := roundEven (q*10^ndigits)/10^ndigits

/-- The two dictionaries, `by_id` in the order of insertion. -/
structure Scores where
  scores : List Char → ℚ
  byId : List (List Char × ScoredHit)

def Scores.empty : Scores := ⟨fun _ => 0,[]⟩

def setdefault (key : List Char) (hit : ScoredHit) (byId : List (List Char × ScoredHit)) :
    List (List Char × ScoredHit) :=
  if key ∈ byId.map Prod.fst then byId else byId++[(key,hit)]

def addHit (k : ℤ) (s : Scores) (entry : ScoredHit × ℕ) : Scores :=
  let key := uuidText entry.1.chunkId
  ⟨Function.update s.scores key (s.scores key+1/(k+entry.2+1)),setdefault key entry.1 s.byId⟩

def addHits (k : ℤ) (s : Scores) (hits : List ScoredHit) : Scores :=
  hits.zipIdx.foldl (addHit k) s

def sortKey (s : Scores) (item : List Char × ScoredHit) : ℚ ×ₗ List Char :=
  toLex (-s.scores item.1,item.1)

def ordered (s : Scores) : List ScoredHit :=
  (s.byId.insertionSort fun a b => sortKey s a ≤ sortKey s b).map fun item =>
    { item.2 with score := round (s.scores item.1) 9 }

def reciprocalRankFusion (bm25 dense : List ScoredHit) (k : ℤ) : Except String (List ScoredHit) :=
  if k ≤ 0 then .error "fusion k must be a positive integer"
  else .ok (ordered (addHits k (addHits k .empty bm25) dense))

def weight (k : ℤ) (i : ℕ) : ℚ := 1/(k+i+1)

def keyOf (hit : ScoredHit) : List Char := uuidText hit.chunkId

theorem weight_antitone {k : ℤ} (hk : 0 < k) : Antitone (weight k) := by
  intro i j hij
  have hk' : (0 : ℚ) < k := by exact_mod_cast hk
  have hcast : (i : ℚ) ≤ j := by exact_mod_cast hij
  have hpos : (0 : ℚ) < k+i+1 := by positivity
  exact one_div_le_one_div_of_le hpos (by linarith)

theorem addHit_scores (k : ℤ) (s : Scores) (hit : ScoredHit) (i : ℕ) (key : List Char) :
    (addHit k s (hit,i)).scores key =
      s.scores key+if keyOf hit = key then weight k i else 0 := by
  unfold addHit keyOf weight
  by_cases h : uuidText hit.chunkId = key
  · simp [h]
  · simp [h,Function.update_of_ne (Ne.symm h)]

theorem addHits_scores (k : ℤ) (s : Scores) (hits : List ScoredHit) (key : List Char) (start : ℕ) :
    ((hits.zipIdx start).foldl (addHit k) s).scores key =
      s.scores key+score (weight k) key start (hits.map keyOf) := by
  induction hits generalizing s start with
  | nil => simp [score]
  | cons hit hits ih =>
    rw [List.zipIdx_cons,List.foldl_cons,ih,addHit_scores,List.map_cons,score,add_assoc]

theorem setdefault_keys (key : List Char) (hit : ScoredHit) (byId : List (List Char × ScoredHit))
    (other : List Char) : other ∈ (setdefault key hit byId).map Prod.fst ↔
      other ∈ byId.map Prod.fst ∨ other = key := by
  unfold setdefault
  split
  · next h =>
    constructor
    · exact Or.inl
    · rintro (hother | rfl)
      · exact hother
      · exact h
  · simp

/-- Every key stands once and is the key of its hit. -/
structure Keyed (byId : List (List Char × ScoredHit)) : Prop where
  once : (byId.map Prod.fst).Nodup
  own : ∀ item ∈ byId, item.1 = keyOf item.2

theorem setdefault_keyed {byId : List (List Char × ScoredHit)} (h : Keyed byId)
    (hit : ScoredHit) : Keyed (setdefault (keyOf hit) hit byId) := by
  unfold setdefault
  split
  · exact h
  · next hnew =>
    refine ⟨?_,?_⟩
    · rw [List.map_append]
      apply h.once.append (List.nodup_singleton _)
      intro key hkey hsingle
      rw [List.mem_singleton.mp hsingle] at hkey
      exact hnew hkey
    · intro item hitem
      rcases List.mem_append.mp hitem with hold | hnewest
      · exact h.own item hold
      · rw [List.mem_singleton.mp hnewest]

theorem addHits_keyed (k : ℤ) {s : Scores} (h : Keyed s.byId) (hits : List ScoredHit)
    (start : ℕ) : Keyed ((hits.zipIdx start).foldl (addHit k) s).byId ∧
      ∀ key, key ∈ ((hits.zipIdx start).foldl (addHit k) s).byId.map Prod.fst ↔
        key ∈ s.byId.map Prod.fst ∨ key ∈ hits.map keyOf := by
  induction hits generalizing s start with
  | nil => exact ⟨h,fun key => by simp⟩
  | cons hit hits ih =>
    have hstep : Keyed (addHit k s (hit,start)).byId := setdefault_keyed h hit
    obtain ⟨hkeyed,hkeys⟩ := ih hstep (start+1)
    refine ⟨hkeyed,?_⟩
    intro key
    have hfirst := setdefault_keys (keyOf hit) hit s.byId key
    rw [List.zipIdx_cons,List.foldl_cons,hkeys key]
    simp only [addHit,List.map_cons,List.mem_cons]
    rw [show uuidText hit.chunkId = keyOf hit from rfl,hfirst,or_assoc]

def chunkIds (hits : List ScoredHit) : List UUID7 := hits.map fun hit => hit.chunkId

def fusedScore (k : ℤ) (bm25 dense : List ScoredHit) (chunkId : UUID7) : ℚ :=
  score (weight k) chunkId 0 (chunkIds bm25)+score (weight k) chunkId 0 (chunkIds dense)

def fusedKey (k : ℤ) (bm25 dense : List ScoredHit) (chunkId : UUID7) : ℚ ×ₗ List Char :=
  toLex (-fusedScore k bm25 dense chunkId,uuidText chunkId)

/-- The chunks of both lists once each, the higher score first and of equal
scores the smaller id. -/
structure Fuses (k : ℤ) (bm25 dense fused : List ScoredHit) : Prop where
  members : ∀ chunkId, chunkId ∈ chunkIds fused ↔ chunkId ∈ chunkIds bm25 ∨ chunkId ∈ chunkIds dense
  once : (chunkIds fused).Nodup
  sorted : (chunkIds fused).Pairwise fun a b =>
    fusedScore k bm25 dense b < fusedScore k bm25 dense a ∨
      fusedScore k bm25 dense a = fusedScore k bm25 dense b ∧ uuidText a < uuidText b
  scored : ∀ hit ∈ fused, hit.score = round (fusedScore k bm25 dense hit.chunkId) 9

variable {k : ℤ} {bm25 dense : List ScoredHit}

theorem fusedKey_lt {a b : UUID7} : fusedKey k bm25 dense a < fusedKey k bm25 dense b ↔
    fusedScore k bm25 dense b < fusedScore k bm25 dense a ∨
      fusedScore k bm25 dense a = fusedScore k bm25 dense b ∧ uuidText a < uuidText b := by
  rw [fusedKey,fusedKey,Prod.Lex.toLex_lt_toLex,neg_lt_neg_iff,neg_inj]

theorem uuidText_injective : Function.Injective uuidText := fun _ _ h => uuidText_inj h

theorem map_keyOf (hits : List ScoredHit) : hits.map keyOf = (chunkIds hits).map uuidText := by
  simp [chunkIds,keyOf,Function.comp_def]

theorem keyOf_mem {hits : List ScoredHit} {chunkId : UUID7} :
    uuidText chunkId ∈ hits.map keyOf ↔ chunkId ∈ chunkIds hits := by
  rw [map_keyOf,List.mem_map_of_injective uuidText_injective]

def filled (k : ℤ) (bm25 dense : List ScoredHit) : Scores :=
  addHits k (addHits k .empty bm25) dense

theorem filled_scores (chunkId : UUID7) :
    (filled k bm25 dense).scores (uuidText chunkId) = fusedScore k bm25 dense chunkId := by
  unfold filled addHits
  rw [addHits_scores,addHits_scores,map_keyOf,map_keyOf,score_map uuidText_injective,
    score_map uuidText_injective]
  simp [Scores.empty,fusedScore]

theorem filled_keyed : Keyed (filled k bm25 dense).byId ∧
    ∀ key, key ∈ (filled k bm25 dense).byId.map Prod.fst ↔
      key ∈ bm25.map keyOf ∨ key ∈ dense.map keyOf := by
  have hempty : Keyed Scores.empty.byId := ⟨List.nodup_nil,fun item h => absurd h List.not_mem_nil⟩
  obtain ⟨hfirst,hfirstKeys⟩ := addHits_keyed k hempty bm25 0
  obtain ⟨hsecond,hsecondKeys⟩ := addHits_keyed k hfirst dense 0
  refine ⟨hsecond,?_⟩
  intro key
  rw [filled,addHits,addHits,hsecondKeys,hfirstKeys]
  simp [Scores.empty]

def rankedItems (s : Scores) : List (List Char × ScoredHit) :=
  s.byId.insertionSort fun a b => sortKey s a ≤ sortKey s b

theorem rankedItems_mem {s : Scores} {item : List Char × ScoredHit} :
    item ∈ rankedItems s ↔ item ∈ s.byId := (List.perm_insertionSort _ _).mem_iff

theorem chunkIds_ordered (s : Scores) :
    chunkIds (ordered s) = (rankedItems s).map fun item => item.2.chunkId := by
  simp [chunkIds,ordered,rankedItems,Function.comp_def]

theorem rankedItems_keys {s : Scores} (h : Keyed s.byId) :
    (chunkIds (ordered s)).map uuidText = (rankedItems s).map Prod.fst := by
  rw [chunkIds_ordered,List.map_map]
  apply List.map_congr_left
  intro item hitem
  exact (h.own item (rankedItems_mem.mp hitem)).symm

theorem ordered_once {s : Scores} (h : Keyed s.byId) : (chunkIds (ordered s)).Nodup := by
  apply List.Nodup.of_map uuidText
  rw [rankedItems_keys h]
  exact ((List.perm_insertionSort _ _).map Prod.fst).nodup_iff.mpr h.once

theorem fuses : Fuses k bm25 dense (ordered (filled k bm25 dense)) := by
  obtain ⟨hkeyed,hkeys⟩ := @filled_keyed k bm25 dense
  have honce := ordered_once hkeyed
  have hown : ∀ item ∈ rankedItems (filled k bm25 dense), item.1 = uuidText item.2.chunkId :=
    fun item hitem => hkeyed.own item (rankedItems_mem.mp hitem)
  refine ⟨?_,honce,?_,?_⟩
  · intro chunkId
    have hmem : uuidText chunkId ∈ (rankedItems (filled k bm25 dense)).map Prod.fst ↔
        uuidText chunkId ∈ (filled k bm25 dense).byId.map Prod.fst :=
      ((List.perm_insertionSort _ _).map Prod.fst).mem_iff
    rw [← List.mem_map_of_injective uuidText_injective,rankedItems_keys hkeyed,hmem,hkeys,
      keyOf_mem,keyOf_mem]
  · have hweak : (rankedItems (filled k bm25 dense)).Pairwise fun a b =>
        sortKey (filled k bm25 dense) a ≤ sortKey (filled k bm25 dense) b :=
      List.pairwise_insertionSort _ _
    rw [chunkIds_ordered] at honce ⊢
    rw [List.pairwise_map]
    have hdistinct := List.pairwise_map.mp honce
    apply (hweak.and hdistinct).imp_of_mem
    rintro a b ha hb ⟨hle,hne⟩
    have hkey : ∀ item ∈ rankedItems (filled k bm25 dense), sortKey (filled k bm25 dense) item =
        fusedKey k bm25 dense item.2.chunkId := by
      intro item hitem
      rw [sortKey,hown item hitem,filled_scores,fusedKey]
    rw [hkey a ha,hkey b hb] at hle
    apply fusedKey_lt.mp
    apply lt_of_le_of_ne hle
    intro heq
    exact hne (uuidText_inj (Prod.ext_iff.mp (toLex.injective heq)).2)
  · intro hit hhit
    obtain ⟨item,hitem,rfl⟩ := List.mem_map.mp hhit
    rw [hown item hitem,filled_scores]

theorem fusedScore_swap (chunkId : UUID7) :
    fusedScore k dense bm25 chunkId = fusedScore k bm25 dense chunkId := add_comm _ _

theorem Fuses.keys_sorted {fused : List ScoredHit} (h : Fuses k bm25 dense fused) :
    (chunkIds fused).Pairwise fun a b => fusedKey k bm25 dense a < fusedKey k bm25 dense b :=
  h.sorted.imp fun hlt => fusedKey_lt.mpr hlt

theorem Fuses.swap {fused : List ScoredHit} (h : Fuses k bm25 dense fused) :
    Fuses k dense bm25 fused := by
  refine ⟨fun chunkId => (h.members chunkId).trans or_comm,h.once,?_,?_⟩
  · simp only [fusedScore_swap]
    exact h.sorted
  · simp only [fusedScore_swap]
    exact h.scored

theorem Fuses.unique {fused other : List ScoredHit} (h : Fuses k bm25 dense fused)
    (h' : Fuses k bm25 dense other) : chunkIds fused = chunkIds other := by
  have hperm : (chunkIds fused).Perm (chunkIds other) :=
    (List.perm_ext_iff_of_nodup h.once h'.once).mpr fun chunkId =>
      (h.members chunkId).trans (h'.members chunkId).symm
  apply hperm.eq_of_pairwise _ h.keys_sorted h'.keys_sorted
  intro a b _ _ hab hba
  exact absurd hba (lt_asymm hab)

def place (chunkId : UUID7) (fused : List ScoredHit) : ℕ := (chunkIds fused).idxOf chunkId

/-- A list with the same chunks, in which one has gained and no other has, ranks it
no later. -/
theorem place_le {fused moved bm25' dense' : List ScoredHit} {chunkId : UUID7}
    (h : Fuses k bm25 dense fused) (h' : Fuses k bm25' dense' moved)
    (hmembers : ∀ id, id ∈ chunkIds bm25' ∨ id ∈ chunkIds dense' ↔
      id ∈ chunkIds bm25 ∨ id ∈ chunkIds dense)
    (hmem : chunkId ∈ chunkIds bm25 ∨ chunkId ∈ chunkIds dense)
    (hgain : fusedScore k bm25 dense chunkId ≤ fusedScore k bm25' dense' chunkId)
    (hlose : ∀ id ≠ chunkId, fusedScore k bm25' dense' id ≤ fusedScore k bm25 dense id) :
    place chunkId moved ≤ place chunkId fused := by
  have hperm : (chunkIds fused).Perm (chunkIds moved) :=
    (List.perm_ext_iff_of_nodup h.once h'.once).mpr fun id =>
      (h.members id).trans ((hmembers id).symm.trans (h'.members id).symm)
  apply idxOf_le hperm h.keys_sorted h'.keys_sorted ((h.members chunkId).mpr hmem)
  intro id hid hbefore
  have hne : id ≠ chunkId := fun heq => lt_irrefl _ (heq ▸ hbefore)
  have hid' := hlose id hne
  rw [fusedKey_lt] at hbefore ⊢
  rcases hbefore with hlt | ⟨heq,htext⟩
  · exact Or.inl (hgain.trans_lt (hlt.trans_le hid'))
  · rcases (hgain.trans (heq.symm.le.trans hid')).lt_or_eq with hlt | hsame
    · exact Or.inl hlt
    · exact Or.inr ⟨hsame.symm,htext⟩

theorem chunkIds_moved (front block back : List ScoredHit) (hit : ScoredHit) :
    chunkIds (front++block++hit::back) =
        chunkIds front++chunkIds block++hit.chunkId::chunkIds back ∧
      chunkIds (front++hit::(block++back)) =
        chunkIds front++hit.chunkId::(chunkIds block++chunkIds back) := by
  simp [chunkIds]

theorem place_moved {front block back fused moved : List ScoredHit} {hit : ScoredHit} (hk : 0 < k)
    (h : Fuses k (front++block++hit::back) dense fused)
    (h' : Fuses k (front++hit::(block++back)) dense moved) :
    place hit.chunkId moved ≤ place hit.chunkId fused := by
  obtain ⟨hbefore,hafter⟩ := chunkIds_moved front block back hit
  apply place_le h h'
  · intro id
    rw [hbefore,hafter]
    simp only [List.mem_append,List.mem_cons]
    tauto
  · left
    rw [hbefore]
    simp
  · unfold fusedScore
    rw [hbefore,hafter]
    gcongr
    exact score_moved_within _ _ _ (weight_antitone hk)
  · intro id hne
    unfold fusedScore
    rw [hbefore,hafter]
    gcongr
    exact score_passed_within _ _ _ (weight_antitone hk) hne

/-- The fused ranking of two lists: what it holds and in which order, the same
for the lists swapped, and no later for a hit that is moved forward. -/
theorem fusion_sound (k : ℤ) (hk : 0 < k) (bm25 dense : List ScoredHit) :
    ∃ fused, reciprocalRankFusion bm25 dense k = .ok fused ∧ Fuses k bm25 dense fused ∧
      (∃ swapped, reciprocalRankFusion dense bm25 k = .ok swapped ∧
        chunkIds swapped = chunkIds fused) ∧
      (∀ front block hit back, bm25 = front++block++hit::back →
        ∃ moved, reciprocalRankFusion (front++hit::(block++back)) dense k = .ok moved ∧
          place hit.chunkId moved ≤ place hit.chunkId fused) ∧
      ∀ front block hit back, dense = front++block++hit::back →
        ∃ moved, reciprocalRankFusion bm25 (front++hit::(block++back)) k = .ok moved ∧
          place hit.chunkId moved ≤ place hit.chunkId fused := by
  have hrun : ∀ bm25 dense, reciprocalRankFusion bm25 dense k =
      .ok (ordered (filled k bm25 dense)) := fun bm25 dense => if_neg (not_le.mpr hk)
  refine ⟨_,hrun bm25 dense,fuses,⟨_,hrun dense bm25,?_⟩,?_,?_⟩
  · exact fuses.unique fuses.swap
  · rintro front block hit back rfl
    exact ⟨_,hrun _ dense,place_moved hk fuses fuses⟩
  · rintro front block hit back rfl
    exact ⟨_,hrun bm25 _,place_moved hk fuses.swap fuses.swap⟩

/-- Two chunks of equal score, each the first hit of one list. -/
theorem fusion_sound_sample : ∃ fused, reciprocalRankFusion [⟨⟨⟨1,1,1⟩,⟨1,1,1⟩,⟨1,1,1⟩⟩,1⟩]
    [⟨⟨⟨2,1,1⟩,⟨1,1,1⟩,⟨1,1,1⟩⟩,1⟩] 60 = .ok fused ∧
      Fuses 60 [⟨⟨⟨1,1,1⟩,⟨1,1,1⟩,⟨1,1,1⟩⟩,1⟩] [⟨⟨⟨2,1,1⟩,⟨1,1,1⟩,⟨1,1,1⟩⟩,1⟩] fused := by
  obtain ⟨fused,hfused,h,-⟩ := fusion_sound 60 (by decide) [⟨⟨⟨1,1,1⟩,⟨1,1,1⟩,⟨1,1,1⟩⟩,1⟩]
    [⟨⟨⟨2,1,1⟩,⟨1,1,1⟩,⟨1,1,1⟩⟩,1⟩]
  exact ⟨fused,hfused,h⟩

end LawyerAgent.RetrievalFusion
