import LawyerAgent.RuleChecks
import LawyerAgent.Relational.Run

/-!
# Repeated rule checks

What a run saves and marks, as one map over the issues, and what follows for
the next run. Open issues are the only ones a run looks at: a disposed issue
neither changes nor keeps its match from being opened again.
-/

set_option autoImplicit false

namespace LawyerAgent.RuleCheckRuns
open Relational Common RuleChecks
open PythonText (strip)

variable {compile : Compiler} {c : RunChecks}

theorem openMatchExists_iff {issues : List RiskIssue} {target : RiskIssue} :
    openMatchExists issues target = true ↔
      ∃ i ∈ issues, i.status = .opened ∧ issueKey i = issueKey target := by
  simp only [openMatchExists,List.any_eq_true,Bool.and_eq_true,beq_iff_eq,issueKey,
    IssueKey.mk.injEq,and_assoc]

/-- The keys of a rule's matches, in the order of the provisions. -/
def ruleKeys (compile : Compiler) (c : RunChecks) (rule : RulePackRule) : List IssueKey :=
  match compile rule.pattern with
  | none => []
  | some search => c.provisions.filterMap fun p =>
      (search p.text).map fun found => ⟨rule.id,p.provisionNo,clamp found⟩

/-- A candidate of the call: open, and of its tenant and document. -/
def Candidate (c : RunChecks) (i : RiskIssue) : Prop :=
  i.status = .opened ∧ i.tenantId = c.tenantId ∧ i.documentId = c.documentId

variable {rule : RulePackRule} {search : String → Option String} {rules : List RulePackRule}
  {i r : RiskIssue}

theorem runProvisions_keys {pack : RulePack} (provisions : List ProvisionInput)
    (issues : List RiskIssue) :
    (provisions.foldl (runProvision c pack rule search) issues).map issueKey =
      issues.map issueKey++provisions.filterMap fun p =>
        (search p.text).map fun found => (⟨rule.id,p.provisionNo,clamp found⟩ : IssueKey) := by
  induction provisions generalizing issues with
  | nil => simp
  | cons p provisions ih =>
    rw [List.foldl_cons,ih,runProvision,List.filterMap_cons]
    cases search p.text with
    | none => rfl
    | some found =>
      rw [List.map_append,List.append_assoc]
      rfl

theorem runProvisions_candidates {pack : RulePack} (provisions : List ProvisionInput)
    {issues : List RiskIssue} (h : ∀ i ∈ issues, Candidate c i) :
    ∀ i ∈ provisions.foldl (runProvision c pack rule search) issues, Candidate c i := by
  induction provisions generalizing issues with
  | nil => exact h
  | cons p provisions ih =>
    rw [List.foldl_cons]
    apply ih
    unfold runProvision
    cases search p.text with
    | none => exact h
    | some found =>
      intro i hi
      rcases List.mem_append.mp hi with hi | hi
      · exact h i hi
      · obtain rfl := List.mem_singleton.mp hi
        exact ⟨rfl,rfl,rfl⟩

theorem runRule_ok {pack : RulePack} {issues issues' : List RiskIssue}
    (henabled : rule.enabled = true) (h : runRule compile c pack issues rule = .ok issues') :
    ¬(rule.tenantId ≠ pack.tenantId ∨ rule.packId ≠ pack.id) ∧ (compile rule.pattern).isSome ∧
      issues'.map issueKey = issues.map issueKey++ruleKeys compile c rule ∧
      ((∀ i ∈ issues, Candidate c i) → ∀ i ∈ issues', Candidate c i) := by
  unfold runRule at h
  rw [if_neg (by simp [henabled])] at h
  split at h
  · cases h
  · next hsame =>
    cases hcompile : compile rule.pattern with
    | none => simp [hcompile] at h
    | some search =>
      simp only [hcompile,Except.ok.injEq] at h
      subst h
      refine ⟨hsame,rfl,?_,runProvisions_candidates c.provisions⟩
      rw [runProvisions_keys,ruleKeys,hcompile]

theorem runRules_ok {pack : RulePack} {issues issues' : List RiskIssue}
    (henabled : ∀ rule ∈ rules, rule.enabled = true)
    (h : rules.foldlM (runRule compile c pack) issues = .ok issues') :
    issues'.map issueKey = issues.map issueKey++rules.flatMap (ruleKeys compile c) ∧
      ((∀ i ∈ issues, Candidate c i) → ∀ i ∈ issues', Candidate c i) := by
  induction rules generalizing issues with
  | nil =>
    cases h
    exact ⟨by simp,id⟩
  | cons rule rules ih =>
    rw [List.foldlM_cons,Outcomes.bind_ok] at h
    obtain ⟨next,hrule,hrest⟩ := h
    obtain ⟨-,-,hkeys,hcandidates⟩ := runRule_ok (henabled rule List.mem_cons_self) hrule
    obtain ⟨hrestKeys,hrestCandidates⟩ :=
      ih (fun r hr => henabled r (List.mem_cons_of_mem _ hr)) hrest
    refine ⟨?_,fun hissues => hrestCandidates (hcandidates hissues)⟩
    rw [hrestKeys,hkeys,List.flatMap_cons,List.append_assoc]

/-- Whether the rules run does not depend on what they have found. -/
theorem runRules_again (c' : RunChecks) {pack : RulePack} {issues issues' : List RiskIssue}
    (others : List RiskIssue) (henabled : ∀ rule ∈ rules, rule.enabled = true)
    (h : rules.foldlM (runRule compile c pack) issues = .ok issues') :
    ∃ others', rules.foldlM (runRule compile c' pack) others = .ok others' := by
  induction rules generalizing issues others with
  | nil => exact ⟨others,rfl⟩
  | cons rule rules ih =>
    rw [List.foldlM_cons,Outcomes.bind_ok] at h
    obtain ⟨next,hrule,hrest⟩ := h
    have hon := henabled rule List.mem_cons_self
    obtain ⟨hsame,hcompile,-,-⟩ := runRule_ok hon hrule
    obtain ⟨search,hsearch⟩ := Option.isSome_iff_exists.mp hcompile
    have hagain : runRule compile c' pack others rule =
        .ok (c'.provisions.foldl (runProvision c' pack rule search) others) := by
      unfold runRule
      rw [if_neg (by simp [hon]),if_neg hsame,hsearch]
    obtain ⟨others',hothers⟩ := ih _ (fun r hr => henabled r (List.mem_cons_of_mem _ hr)) hrest
    exact ⟨others',Outcomes.bind_ok.mpr ⟨_,hagain,hothers⟩⟩

theorem runEngine_ok {pack : RulePack} {fresh : List RiskIssue}
    (henabled : ∀ rule ∈ rules, rule.enabled = true)
    (h : runEngine compile c pack rules = .ok fresh) :
    fresh.map issueKey = rules.flatMap (ruleKeys compile c) ∧ ∀ i ∈ fresh, Candidate c i := by
  simp only [runEngine,Outcomes.bind_ok] at h
  obtain ⟨_,-,_,-,h⟩ := h
  obtain ⟨hkeys,hcandidates⟩ := runRules_ok henabled h
  exact ⟨hkeys,hcandidates (by simp)⟩

theorem runEngine_again (c' : RunChecks) {pack : RulePack} {fresh : List RiskIssue}
    (henabled : ∀ rule ∈ rules, rule.enabled = true) (htenant : c'.tenantId = c.tenantId)
    (h : runEngine compile c pack rules = .ok fresh) :
    ∃ again, runEngine compile c' pack rules = .ok again := by
  simp only [runEngine,Outcomes.bind_ok,Outcomes.require_ok] at h ⊢
  obtain ⟨_,hpack,_,hactive,h⟩ := h
  obtain ⟨again,hagain⟩ := runRules_again c' [] henabled h
  exact ⟨again,(),htenant.trans hpack,(),hactive,hagain⟩

/-- The candidates that no existing open issue matches. -/
def unmatched (existing fresh : List RiskIssue) : List RiskIssue :=
  fresh.filter fun i => !openMatchExists existing i

theorem saveUnmatched_ok {existing fresh created : List RiskIssue} {s t : RuleStore}
    (h : saveUnmatched existing fresh s = .ok (created,t)) :
    created = unmatched existing fresh ∧ t.packs = s.packs ∧ t.rules = s.rules ∧
      t.issues.rows = created.reverse++s.issues.rows := by
  induction fresh generalizing s created with
  | nil =>
    obtain ⟨rfl,rfl⟩ := pure_ok.mp h
    exact ⟨rfl,rfl,rfl,rfl⟩
  | cons candidate fresh ih =>
    unfold saveUnmatched at h
    by_cases hmatch : openMatchExists existing candidate = true
    · rw [if_pos hmatch] at h
      rw [unmatched,List.filter_cons_of_neg (by simp [hmatch])]
      exact ih h
    · rw [if_neg hmatch] at h
      simp only [bind_ok,pure_ok,saveIssue,zoom_ok,insertRow_ok] at h
      obtain ⟨_,u,⟨issues,hrows,rfl⟩,rest,v,hrest,rfl,rfl⟩ := h
      obtain ⟨hcreated,hpacks,hrules,hissues⟩ := ih hrest
      refine ⟨?_,hpacks,hrules,?_⟩
      · rw [unmatched,List.filter_cons_of_pos (by simp [hmatch]),hcreated]
        rfl
      · change issues.rows = candidate::s.issues.rows at hrows
        rw [hissues,List.reverse_cons,List.append_assoc]
        exact congrArg _ hrows

theorem saveUnmatched_none {existing fresh : List RiskIssue} (s : RuleStore)
    (h : ∀ i ∈ fresh, openMatchExists existing i = true) :
    saveUnmatched existing fresh s = .ok ([],s) := by
  induction fresh with
  | nil => rfl
  | cons candidate fresh ih =>
    unfold saveUnmatched
    rw [if_pos (h candidate List.mem_cons_self)]
    exact ih fun i hi => h i (List.mem_cons_of_mem _ hi)

/-- An old issue that is marked, and takes the row with it. -/
def marks (c : RunChecks) (fresh : List RiskIssue) (r old : RiskIssue) : Bool :=
  old.status == .opened && !openMatchExists fresh old && isOpenRow c.tenantId old.id r

def markBy (c : RunChecks) (fresh existing : List RiskIssue) (r : RiskIssue) : RiskIssue :=
  if existing.any (marks c fresh r) then r.markStale c.now else r

theorem markUnmatched_ok {fresh existing : List RiskIssue} {s t : RuleStore} {u : Unit}
    (h : markUnmatched c fresh existing s = .ok (u,t)) :
    t.packs = s.packs ∧ t.rules = s.rules ∧
      t.issues.rows = s.issues.rows.map (markBy c fresh existing) := by
  induction existing generalizing s with
  | nil =>
    obtain ⟨-,rfl⟩ := pure_ok.mp h
    exact ⟨rfl,rfl,(List.map_id _).symm⟩
  | cons old existing ih =>
    unfold markUnmatched at h
    by_cases hskip : old.status ≠ .opened ∨ openMatchExists fresh old = true
    · rw [if_pos hskip] at h
      obtain ⟨hpacks,hrules,hrows⟩ := ih h
      refine ⟨hpacks,hrules,?_⟩
      have hunmarked : ∀ r, marks c fresh r old = false := by
        intro r
        rcases hskip with hclosed | hmatch
        · simp [marks,hclosed]
        · simp [marks,hmatch]
      rw [hrows]
      refine List.map_congr_left fun r _ => ?_
      rw [markBy,markBy,List.any_cons,hunmarked,Bool.false_or]
    · rw [if_neg hskip] at h
      obtain ⟨hopen,hunmatched⟩ := not_or.mp hskip
      rw [ne_eq,not_not] at hopen
      simp only [bind_ok,pure_ok,markOpenIssueStale,zoom_ok,updateRows_ok] at h
      obtain ⟨_,v,⟨_,_,⟨issues,⟨-,hissues⟩,rfl⟩,-,rfl⟩,hrest⟩ := h
      obtain ⟨hpacks,hrules,hrows⟩ := ih hrest
      refine ⟨hpacks,hrules,?_⟩
      change issues.rows = s.issues.rows.map _ at hissues
      rw [hrows]
      change issues.rows.map _ = _
      rw [hissues,List.map_map]
      refine List.map_congr_left fun r _ => ?_
      have hfirst : marks c fresh r old = isOpenRow c.tenantId old.id r := by
        simp [marks,hopen,hunmatched]
      rw [Function.comp_apply,markBy,markBy,List.any_cons,hfirst]
      by_cases hrow : isOpenRow c.tenantId old.id r = true
      · -- A marked row is no longer open, so no later issue marks it again.
        have hstale : ∀ o, marks c fresh (r.markStale c.now) o = false := by
          simp [marks,isOpenRow,RiskIssue.markStale]
        rw [if_pos hrow,hrow,Bool.true_or,if_pos rfl,
          if_neg (by simp only [List.any_eq_true,hstale]; simp)]
      · rw [if_neg hrow,eq_false_of_ne_true hrow,Bool.false_or]

theorem markUnmatched_none {fresh existing : List RiskIssue} (s : RuleStore)
    (h : ∀ i ∈ existing, i.status = .opened → openMatchExists fresh i = true) :
    markUnmatched c fresh existing s = .ok ((),s) := by
  induction existing with
  | nil => rfl
  | cons old existing ih =>
    have hold : old.status ≠ .opened ∨ openMatchExists fresh old = true := by
      by_cases hopen : old.status = .opened
      · exact Or.inr (h old List.mem_cons_self hopen)
      · exact Or.inl hopen
    unfold markUnmatched
    rw [if_pos hold]
    exact ih fun i hi => h i (List.mem_cons_of_mem _ hi)

def activePack (tenantId : UUID7) (s : RuleStore) : Option RulePack :=
  ((selectRows (fun p => p.tenantId == tenantId && p.active) s.packs).insertionSort
    fun p q => q.version ≤ p.version).head?

def enabledRules (tenantId packId : UUID7) (s : RuleStore) : List RulePackRule :=
  selectRows (fun r => r.tenantId == tenantId && r.packId == packId && r.enabled) s.rules

def existingIssues (c : RunChecks) (s : RuleStore) : List RiskIssue :=
  selectRows (fun i => i.tenantId == c.tenantId && i.documentId == c.documentId) s.issues

theorem mem_existing {s : RuleStore} :
    i ∈ existingIssues c s ↔
      i ∈ s.issues ∧ i.tenantId = c.tenantId ∧ i.documentId = c.documentId := by
  simp [existingIssues,mem_selectRows]

/-- An open issue of the document that the run does not find again. -/
def Lost (c : RunChecks) (fresh : List RiskIssue) (r : RiskIssue) : Prop :=
  r.tenantId = c.tenantId ∧ r.documentId = c.documentId ∧ r.status = .opened ∧
    openMatchExists fresh r = false

instance (fresh : List RiskIssue) (r : RiskIssue) : Decidable (Lost c fresh r) :=
  inferInstanceAs (Decidable (_ ∧ _))

def settle (c : RunChecks) (fresh : List RiskIssue) (r : RiskIssue) : RiskIssue :=
  if Lost c fresh r then r.markStale c.now else r

structure Ran (compile : Compiler) (c : RunChecks) (s t : RuleStore) (pack : RulePack)
    (fresh created : List RiskIssue) : Prop where
  active : activePack c.tenantId s = some pack
  nonempty : enabledRules c.tenantId pack.id s ≠ []
  engine : runEngine compile c pack (enabledRules c.tenantId pack.id s) = .ok fresh
  saved : created = unmatched (existingIssues c s) fresh
  packs : t.packs = s.packs
  rules : t.rules = s.rules
  issues : t.issues.rows = (created.reverse++s.issues.rows).map (settle c fresh)

theorem enabledRules_enabled {packId : UUID7} {s : RuleStore} :
    ∀ rule ∈ enabledRules c.tenantId packId s, rule.enabled = true := by
  intro rule hrule
  have hmatch := (mem_selectRows.mp hrule).2
  simp only [Bool.and_eq_true] at hmatch
  exact hmatch.2

theorem candidate_matched {fresh : List RiskIssue} (hi : i ∈ fresh) (h : Candidate c i) :
    openMatchExists fresh i = true :=
  openMatchExists_iff.mpr ⟨i,hi,h.1,rfl⟩

theorem runChecks_ok {s t : RuleStore} {created : List RiskIssue}
    (h : runChecks compile c s = .ok (created,t)) :
    ∃ pack fresh, Ran compile c s t pack fresh created := by
  simp only [runChecks,bind_ok,orFail_ok,require_ok,ofExcept_ok,pure_ok,getActivePack,
    rulesForPack,issuesForDocument,read_ok] at h
  obtain ⟨_,_,⟨hpack,rfl⟩,pack,_,⟨rfl,rfl⟩,_,_,⟨rfl,rfl⟩,_,_,⟨hrules,rfl⟩,fresh,_,⟨hengine,rfl⟩,
    _,_,⟨rfl,rfl⟩,_,u,hsave,_,_,hmark,rfl,rfl⟩ := h
  obtain ⟨hcreated,hpacks,hrulesKept,hissues⟩ := saveUnmatched_ok hsave
  obtain ⟨hpacks',hrules',hrows⟩ := markUnmatched_ok hmark
  refine ⟨pack,fresh,hpack,hrules,hengine,hcreated,hpacks'.trans hpacks,hrules'.trans hrulesKept,?_⟩
  have hcandidates := (runEngine_ok (enabledRules_enabled (c := c)) hengine).2
  rw [hrows,← hissues]
  refine List.map_congr_left fun r hr => ?_
  change (if (existingIssues c s).any (marks c fresh r) = true then r.markStale c.now else r) = _
  rw [settle]
  have hsame : (existingIssues c s).any (marks c fresh r) = true ↔ Lost c fresh r := by
    rw [List.any_eq_true]
    constructor
    · rintro ⟨old,hold,hmarks⟩
      obtain ⟨hin,htenant,hdocument⟩ := mem_existing.mp hold
      simp only [marks,isOpenRow,Bool.and_eq_true,beq_iff_eq,Bool.not_eq_true'] at hmarks
      obtain ⟨⟨hopen,hunmatched⟩,⟨-,hid⟩,-⟩ := hmarks
      have hu : old ∈ u.issues := by
        rw [mem_rows,hissues]
        exact List.mem_append_right _ hin
      have hrow : r = old := eq_of_key (t := u.issues) hr hu hid
      rw [hrow]
      exact ⟨htenant,hdocument,hopen,hunmatched⟩
    · rintro ⟨htenant,hdocument,hopen,hunmatched⟩
      have hold : r ∈ s.issues.rows := by
        rw [hissues] at hr
        rcases List.mem_append.mp hr with hnew | hold
        · -- A new issue is a candidate, which matches itself.
          rw [List.mem_reverse,hcreated] at hnew
          have hfresh := (List.mem_filter.mp hnew).1
          rw [candidate_matched hfresh (hcandidates r hfresh)] at hunmatched
          cases hunmatched
        · exact hold
      refine ⟨r,mem_existing.mpr ⟨hold,htenant,hdocument⟩,?_⟩
      simp [marks,isOpenRow,hopen,hunmatched,htenant]
  by_cases hlost : Lost c fresh r
  · rw [if_pos (hsame.mpr hlost),if_pos hlost]
  · rw [if_neg (mt hsame.mp hlost),if_neg hlost]

section AfterRun

variable {s t : RuleStore} {pack : RulePack} {fresh created : List RiskIssue}

theorem candidates_matched (hcandidates : ∀ i ∈ fresh, Candidate c i) {target : RiskIssue} :
    openMatchExists fresh target = true ↔ issueKey target ∈ fresh.map issueKey := by
  rw [openMatchExists_iff,List.mem_map]
  constructor
  · rintro ⟨i,hi,-,hkey⟩
    exact ⟨i,hi,hkey⟩
  · rintro ⟨i,hi,hkey⟩
    exact ⟨i,hi,(hcandidates i hi).1,hkey⟩

theorem ran_candidates (h : Ran compile c s t pack fresh created) : ∀ i ∈ fresh, Candidate c i :=
  (runEngine_ok enabledRules_enabled h.engine).2

theorem ran_keys (h : Ran compile c s t pack fresh created) :
    fresh.map issueKey = (enabledRules c.tenantId pack.id s).flatMap (ruleKeys compile c) :=
  (runEngine_ok (enabledRules_enabled (c := c)) h.engine).1

theorem mem_ran (h : Ran compile c s t pack fresh created) :
    r ∈ t.issues ↔ ∃ x, (x ∈ created ∨ x ∈ s.issues) ∧ settle c fresh x = r := by
  rw [mem_rows,h.issues,List.mem_map]
  simp only [List.mem_append,List.mem_reverse]
  rfl

theorem mem_created (h : Ran compile c s t pack fresh created) :
    i ∈ created ↔ i ∈ fresh ∧ openMatchExists (existingIssues c s) i = false := by
  rw [h.saved,unmatched,List.mem_filter,Bool.not_eq_true']

/-- A new issue stays as it was saved. -/
theorem settle_created (h : Ran compile c s t pack fresh created) (hi : i ∈ created) :
    settle c fresh i = i := by
  have hfresh := ((mem_created h).mp hi).1
  have hmatch := candidate_matched hfresh (ran_candidates h i hfresh)
  rw [settle,if_neg]
  rintro ⟨-,-,-,hlost⟩
  rw [hmatch] at hlost
  cases hlost

/-- An issue that is not open stays as it was. -/
theorem settle_closed (h : r.status ≠ .opened) : settle c fresh r = r :=
  if_neg fun hlost => h hlost.2.2.1

theorem open_after (h : Ran compile c s t pack fresh created) :
    r ∈ existingIssues c t ∧ r.status = .opened ↔
      (r ∈ existingIssues c s ∧ r.status = .opened ∧ openMatchExists fresh r = true) ∨
        r ∈ created := by
  rw [mem_existing,mem_ran h]
  constructor
  · rintro ⟨⟨⟨x,hx,rfl⟩,htenant,hdocument⟩,hopen⟩
    rcases hx with hx | hx
    · rw [settle_created h hx]
      exact Or.inr hx
    · left
      by_cases hlost : Lost c fresh x
      · rw [settle,if_pos hlost] at hopen
        cases hopen
      · rw [settle,if_neg hlost] at htenant hdocument hopen ⊢
        refine ⟨mem_existing.mpr ⟨hx,htenant,hdocument⟩,hopen,?_⟩
        by_contra hmatch
        exact hlost ⟨htenant,hdocument,hopen,eq_false_of_ne_true hmatch⟩
  · rintro (⟨hexisting,hopen,hmatch⟩ | hcreated)
    · obtain ⟨hin,htenant,hdocument⟩ := mem_existing.mp hexisting
      have hkept : settle c fresh r = r := by
        rw [settle,if_neg]
        rintro ⟨-,-,-,hlost⟩
        rw [hmatch] at hlost
        cases hlost
      exact ⟨⟨⟨r,Or.inr hin,hkept⟩,htenant,hdocument⟩,hopen⟩
    · obtain ⟨hopen,htenant,hdocument⟩ :=
        ran_candidates h r ((mem_created h).mp hcreated).1
      exact ⟨⟨⟨r,Or.inl hcreated,settle_created h hcreated⟩,htenant,hdocument⟩,hopen⟩

theorem fresh_open (h : Ran compile c s t pack fresh created) {key : IssueKey}
    (hkey : key ∈ fresh.map issueKey) :
    ∃ r ∈ existingIssues c t, r.status = .opened ∧ issueKey r = key := by
  obtain ⟨i,hi,rfl⟩ := List.mem_map.mp hkey
  have hall := ran_candidates h
  by_cases hmatch : openMatchExists (existingIssues c s) i = true
  · obtain ⟨r,hr,hopen,hsame⟩ := openMatchExists_iff.mp hmatch
    have hagain : openMatchExists fresh r = true :=
      (candidates_matched hall).mpr (hsame ▸ List.mem_map_of_mem hi)
    have hafter := (open_after h).mpr (Or.inl ⟨hr,hopen,hagain⟩)
    exact ⟨r,hafter.1,hafter.2,hsame⟩
  · have hcreated := (mem_created h).mpr ⟨hi,eq_false_of_ne_true hmatch⟩
    have hafter := (open_after h).mpr (Or.inr hcreated)
    exact ⟨i,hafter.1,hafter.2,rfl⟩

theorem runChecks_again (h : Ran compile c s t pack fresh created) {again : RunChecks}
    (htenant : again.tenantId = c.tenantId) (hdocument : again.documentId = c.documentId)
    (hprovisions : again.provisions = c.provisions) :
    runChecks compile again t = .ok ([],t) := by
  have hrules : ∀ packId, enabledRules again.tenantId packId t =
    enabledRules c.tenantId packId s := by
    intro packId
    rw [enabledRules,enabledRules,h.rules,htenant]
  have hpack : activePack again.tenantId t = some pack := by
    rw [← h.active,activePack,activePack,h.packs,htenant]
  have hexisting : existingIssues again t = existingIssues c t := by
    rw [existingIssues,existingIssues,htenant,hdocument]
  obtain ⟨fresh',hengine⟩ := runEngine_again again enabledRules_enabled htenant h.engine
  obtain ⟨hkeys',hcandidates'⟩ := runEngine_ok (enabledRules_enabled (c := c)) hengine
  have hkeys : fresh'.map issueKey = fresh.map issueKey := by
    rw [hkeys',ran_keys h]
    refine List.flatMap_congr fun rule _ => ?_
    rw [ruleKeys,ruleKeys,hprovisions]
  have hfound : ∀ i ∈ fresh', openMatchExists (existingIssues again t) i = true := by
    intro i hi
    rw [hexisting,openMatchExists_iff]
    exact fresh_open h (hkeys ▸ List.mem_map_of_mem hi)
  have hkept : ∀ i ∈ existingIssues again t, i.status = .opened →
      openMatchExists fresh' i = true := by
    intro i hi hopen
    rw [hexisting] at hi
    rw [candidates_matched hcandidates',hkeys]
    rcases (open_after h).mp ⟨hi,hopen⟩ with ⟨-,-,hmatch⟩ | hcreated
    · exact (candidates_matched (ran_candidates h)).mp hmatch
    · exact List.mem_map_of_mem ((mem_created h).mp hcreated).1
  have hpackRules : enabledRules again.tenantId pack.id t ≠ [] := by
    rw [hrules]
    exact h.nonempty
  have hagain : runEngine compile again pack (enabledRules again.tenantId pack.id t) =
      .ok fresh' := by
    rw [hrules]
    exact hengine
  simp only [runChecks,bind_ok,orFail_ok,require_ok,ofExcept_ok,pure_ok,getActivePack,
    rulesForPack,issuesForDocument,read_ok]
  exact ⟨_,_,⟨hpack,rfl⟩,pack,_,⟨rfl,rfl⟩,_,_,⟨rfl,rfl⟩,(),_,⟨hpackRules,rfl⟩,fresh',_,⟨hagain,rfl⟩,
    _,_,⟨rfl,rfl⟩,_,_,saveUnmatched_none t hfound,(),_,markUnmatched_none t hkept,rfl,rfl⟩

end AfterRun

def openIssues (c : RunChecks) (s : RuleStore) : List RiskIssue :=
  (existingIssues c s).filter fun i => i.status == .opened

theorem mem_open {s : RuleStore} :
    i ∈ openIssues c s ↔ i ∈ existingIssues c s ∧ i.status = .opened := by
  rw [openIssues,List.mem_filter,beq_iff_eq]

section Results

variable {s t : RuleStore} {pack : RulePack} {fresh created : List RiskIssue}

theorem created_apart (h : Ran compile c s t pack fresh created) {i old : RiskIssue}
    (hi : i ∈ created) (hold : old ∈ openIssues c s) : issueKey old ≠ issueKey i := by
  intro hkey
  obtain ⟨hexisting,hopen⟩ := mem_open.mp hold
  have hmatch := openMatchExists_iff.mpr ⟨old,hexisting,hopen,hkey⟩
  rw [((mem_created h).mp hi).2] at hmatch
  cases hmatch

theorem mem_open_after (h : Ran compile c s t pack fresh created) (hi : i ∈ openIssues c t) :
    i ∈ openIssues c s ∨ i ∈ created := by
  rcases (open_after h).mp (mem_open.mp hi) with ⟨hexisting,hopen,-⟩ | hcreated
  · exact Or.inl (mem_open.mpr ⟨hexisting,hopen⟩)
  · exact Or.inr hcreated

theorem same_key (h : Ran compile c s t pack fresh created) {i j : RiskIssue}
    (hi : i ∈ openIssues c t) (hj : j ∈ openIssues c t) (hkey : issueKey i = issueKey j) :
    (i ∈ openIssues c s ∧ j ∈ openIssues c s) ∨ (i ∈ created ∧ j ∈ created) := by
  rcases mem_open_after h hi with hi | hi
  · rcases mem_open_after h hj with hj | hj
    · exact Or.inl ⟨hi,hj⟩
    · exact absurd hkey (created_apart h hj hi)
  · rcases mem_open_after h hj with hj | hj
    · exact absurd hkey.symm (created_apart h hi hj)
    · exact Or.inr ⟨hi,hj⟩

theorem ruleKeys_rule {key : IssueKey} (h : key ∈ ruleKeys compile c rule) :
    key.ruleId = rule.id := by
  unfold ruleKeys at h
  split at h
  · cases h
  · obtain ⟨p,-,hp⟩ := List.mem_filterMap.mp h
    obtain ⟨found,-,rfl⟩ := Option.map_eq_some_iff.mp hp
    rfl

theorem keys_nodup (h : Ran compile c s t pack fresh created)
    (hrules : ∀ rule ∈ s.rules, (ruleKeys compile c rule).Nodup) :
    (created.map issueKey).Nodup := by
  have hall : (fresh.map issueKey).Nodup := by
    rw [ran_keys h,List.nodup_flatMap]
    refine ⟨fun rule hrule => hrules rule (mem_selectRows.mp hrule).1,?_⟩
    have hapart : (enabledRules c.tenantId pack.id s).Pairwise (Apart tenantRulePackRules) :=
      s.rules.legal.2.filter _
    refine hapart.imp fun hrs key hr hs => hrs.1 ?_
    exact (ruleKeys_rule hr).symm.trans (ruleKeys_rule hs)
  rw [h.saved]
  exact hall.sublist (List.filter_sublist.map _)

theorem open_nodup (h : Ran compile c s t pack fresh created)
    (hopen : ((openIssues c s).map issueKey).Nodup)
    (hcreated : (created.map issueKey).Nodup) : ((openIssues c t).map issueKey).Nodup := by
  have hrows : (openIssues c t).Nodup := ((nodup_rows t.issues).filter _).filter _
  refine hrows.map_on fun i hi j hj hkey => ?_
  rcases same_key h hi hj hkey with ⟨hi,hj⟩ | ⟨hi,hj⟩
  · exact List.inj_on_of_nodup_map hopen hi hj hkey
  · exact List.inj_on_of_nodup_map hcreated hi hj hkey

theorem found_created (h : Ran compile c s t pack fresh created) {key : IssueKey}
    (hkey : key ∈ (enabledRules c.tenantId pack.id s).flatMap (ruleKeys compile c)) :
    (∃ i ∈ created, issueKey i = key) ↔ ¬∃ old ∈ openIssues c s, issueKey old = key := by
  constructor
  · rintro ⟨i,hi,rfl⟩ ⟨old,hold,hsame⟩
    exact created_apart h hi hold hsame
  · intro hnone
    rw [← ran_keys h] at hkey
    obtain ⟨i,hi,rfl⟩ := List.mem_map.mp hkey
    refine ⟨i,(mem_created h).mpr ⟨hi,?_⟩,rfl⟩
    by_contra hmatch
    obtain ⟨old,hold,hopen,hsame⟩ := openMatchExists_iff.mp (eq_true_of_ne_false hmatch)
    exact hnone ⟨old,mem_open.mpr ⟨hold,hopen⟩,hsame⟩

theorem closed_kept (h : Ran compile c s t pack fresh created) (hr : r ∈ s.issues)
    (hclosed : r.status ≠ .opened) : r ∈ t.issues :=
  (mem_ran h).mpr ⟨r,Or.inr hr,settle_closed hclosed⟩

end Results

inductive Operation where
  | check (c : RunChecks)
  | dispose (tenantId issueId : UUID7) (status : RiskIssueStatus) (reason : String) (now : Time)

def step (compile : Compiler) : Operation → RuleStore → RuleStore
  | .check c, s => commit (runChecks compile c) s
  | .dispose tenantId issueId status reason now, s =>
    commit (dispose tenantId issueId status reason now) s

/-- An open issue goes stale or is decided with a reason, and nothing else of it
changes. -/
def Follows (i j : RiskIssue) : Prop :=
  j = i ∨ i.status = .opened ∧ ((∃ now, j = i.markStale now) ∨ ∃ status reason now,
    disposable status = true ∧ strip reason.toList ≠ [] ∧ j = i.dispose status reason now)

def IssuesFollow (s t : RuleStore) : Prop := ∀ i ∈ s.issues, ∃ j ∈ t.issues, Follows i j

theorem follows_closed {i j : RiskIssue} (h : Follows i j) : j = i ∨ j.status ≠ .opened := by
  rcases h with rfl | ⟨-,⟨_,rfl⟩ | ⟨status,_,_,hstatus,-,rfl⟩⟩
  · exact .inl rfl
  · exact .inr nofun
  · right
    rintro rfl
    cases hstatus

instance : Std.Refl IssuesFollow := ⟨fun _ i h => ⟨i,h,.inl rfl⟩⟩

instance : IsTrans RuleStore IssuesFollow where
  trans := by
    intro s t u h k i hi
    obtain ⟨j,hj,hij⟩ := h i hi
    obtain ⟨l,hl,hjl⟩ := k j hj
    refine ⟨l,hl,?_⟩
    rcases follows_closed hij with rfl | hclosed
    · exact hjl
    · rcases hjl with rfl | ⟨hopen,-⟩
      · exact hij
      · exact absurd hopen hclosed

theorem check_follows {s t : RuleStore} {pack : RulePack} {fresh created : List RiskIssue}
    (h : Ran compile c s t pack fresh created) : IssuesFollow s t := by
  intro i hi
  refine ⟨settle c fresh i,(mem_ran h).mpr ⟨i,Or.inr hi,rfl⟩,?_⟩
  unfold settle
  split
  · next hlost => exact .inr ⟨hlost.2.2.1,.inl ⟨c.now,rfl⟩⟩
  · exact .inl rfl

theorem dispose_follows {tenantId issueId : UUID7} {status : RiskIssueStatus} {reason : String}
    {now : Time} {s t : RuleStore} {done : Bool}
    (h : dispose tenantId issueId status reason now s = .ok (done,t)) : IssuesFollow s t := by
  simp only [dispose,findIssue,bind_ok,read_ok] at h
  obtain ⟨found,_,⟨-,rfl⟩,h⟩ := h
  cases found with
  | none =>
    obtain ⟨-,rfl⟩ := pure_ok.mp h
    exact refl s
  | some issue =>
    simp only [disposeRiskIssue,disposeIssue,bind_ok,ofExcept_ok,require_ok,zoom_ok,updateRows_ok,
      pure_ok,Outcomes.bind_ok,Outcomes.require_ok] at h
    obtain ⟨_,_,⟨⟨_,-,_,-,hreason⟩,rfl⟩,_,_,⟨hstatus,rfl⟩,n,_,⟨issues,⟨-,hrows⟩,rfl⟩,-,rfl⟩ := h
    intro i hi
    change ∃ j ∈ issues.rows, Follows i j
    rw [hrows]
    refine ⟨_,List.mem_map_of_mem hi,?_⟩
    split
    · next hrow =>
      simp only [isOpenRow,Bool.and_eq_true,beq_iff_eq] at hrow
      exact .inr ⟨hrow.2,.inr ⟨status,reason,now,hstatus,hreason,rfl⟩⟩
    · exact .inl rfl

/-- Over every run no issue is lost, and each is settled at most once. -/
theorem issues_follow (compile : Compiler) (ops : List Operation) (s : RuleStore) :
    IssuesFollow s (run (step compile) ops s) := by
  apply run_related
  intro op u
  cases op with
  | check c =>
    refine commit_of (refl u) fun created t h => ?_
    obtain ⟨pack,fresh,hran⟩ := runChecks_ok h
    exact check_follows hran
  | dispose tenantId issueId status reason now =>
    exact commit_of (refl u) fun done t h => dispose_follows h

/-- After a run, two open issues share a key only if they did before or if two
provisions gave it in this run; a repeated run changes nothing; an issue that is
not open stays as it was, and a match is opened if and only if no open issue has
it. -/
theorem checks_settled (compile : Compiler) (c : RunChecks) (s t : RuleStore)
    (created : List RiskIssue) (h : runChecks compile c s = .ok (created,t)) :
    (∀ i ∈ openIssues c t, ∀ j ∈ openIssues c t, issueKey i = issueKey j →
      (i ∈ openIssues c s ∧ j ∈ openIssues c s) ∨ (i ∈ created ∧ j ∈ created)) ∧
    (((openIssues c s).map issueKey).Nodup →
      (∀ rule ∈ s.rules, (ruleKeys compile c rule).Nodup) →
        ((openIssues c t).map issueKey).Nodup) ∧
    (∀ again : RunChecks, again.tenantId = c.tenantId → again.documentId = c.documentId →
      again.provisions = c.provisions → runChecks compile again t = .ok ([],t)) ∧
    (∀ r ∈ s.issues, r.status ≠ .opened → r ∈ t.issues) ∧
    (∃ pack, activePack c.tenantId s = some pack ∧
      ∀ key ∈ (enabledRules c.tenantId pack.id s).flatMap (ruleKeys compile c),
        (∃ i ∈ created, issueKey i = key) ↔ ¬∃ old ∈ openIssues c s, issueKey old = key) := by
  obtain ⟨pack,fresh,hran⟩ := runChecks_ok h
  refine ⟨fun i hi j hj => same_key hran hi hj,?_,?_,?_,pack,hran.active,?_⟩
  · exact fun hopen hrules => open_nodup hran hopen (keys_nodup hran hrules)
  · exact fun again htenant hdocument hprovisions =>
      runChecks_again hran htenant hdocument hprovisions
  · exact fun r hr hclosed => closed_kept hran hr hclosed
  · exact fun key hkey => found_created hran hkey

def literalSearch : Compiler := fun pattern => some fun text =>
  if text.toList.tails.any (pattern.toList.isPrefixOf ·) then some pattern else none

def samplePack : RulePack := ⟨⟨0,1,0⟩,⟨0,2,0⟩,"p",1,true,by decide⟩

def sampleRule : RulePackRule :=
  ⟨⟨0,3,0⟩,⟨0,1,0⟩,⟨0,2,0⟩,.riskPhrase,"l","x",.low,"",true,by decide,by decide⟩

def sampleIssue : RiskIssue where
  id := ⟨0,4,0⟩
  tenantId := ⟨0,2,0⟩
  ruleId := ⟨0,3,0⟩
  packId := ⟨0,1,0⟩
  packVersion := 1
  documentId := ⟨0,5,0⟩
  provisionNo := "1"
  matchedText := "x"
  riskLevel := .low
  status := .rejected
  evidenceLevel := "rule_based"
  dispositionReason := some "r"
  raisedAt := none
  disposedAt := some 0
  ruleBased := rfl
  numbered := by decide

def sampleStore : RuleStore :=
  ⟨Table.single samplePack (by decide),Table.single sampleRule (by decide),
    Table.single sampleIssue (by decide)⟩

def sampleProvision : ProvisionInput := ⟨"1","x",by decide,by decide⟩

def sampleRun (provisions : List ProvisionInput) : RunChecks where
  tenantId := ⟨0,2,0⟩
  documentId := ⟨0,5,0⟩
  provisions := provisions
  newId := fun n => ⟨1,BitVec.ofNat 12 n,0⟩
  now := 0

theorem sample_settled : ∃ t created,
    runChecks literalSearch (sampleRun [sampleProvision]) sampleStore = .ok (created,t) ∧
    runChecks literalSearch (sampleRun [sampleProvision]) t = .ok ([],t) ∧
    sampleIssue ∈ t.issues := by
  have hran : outcome (runChecks literalSearch (sampleRun [sampleProvision])) sampleStore =
      .ok [{sampleIssue with
        id := ⟨1,0,0⟩
        status := .opened
        dispositionReason := none
        disposedAt := none}] := by
    decide
  have hrun := outcome_ok hran
  obtain ⟨-,-,hagain,hclosed,-⟩ := checks_settled literalSearch _ _ _ _ hrun
  exact ⟨_,_,hrun,hagain _ rfl rfl rfl,hclosed sampleIssue (List.mem_singleton_self _) (by decide)⟩

/-- Two provisions of one number have the text of a rejected issue: the run opens
it twice. -/
theorem rejected_opened : ∃ t created,
    runChecks literalSearch (sampleRun [sampleProvision,sampleProvision]) sampleStore =
      .ok (created,t) ∧
    (∃ i ∈ created, i.status = .opened ∧ issueKey i = issueKey sampleIssue) ∧
    sampleIssue ∈ sampleStore.issues ∧ sampleIssue.status = .rejected ∧
    ¬((openIssues (sampleRun [sampleProvision,sampleProvision]) t).map issueKey).Nodup := by
  have hran : outcome (runChecks literalSearch (sampleRun [sampleProvision,sampleProvision]) >>=
      fun created => Relational.read fun t => (created.map fun i => (i.status,issueKey i),
        (openIssues (sampleRun [sampleProvision,sampleProvision]) t).map issueKey)) sampleStore =
      .ok ([(.opened,issueKey sampleIssue),(.opened,issueKey sampleIssue)],
        [issueKey sampleIssue,issueKey sampleIssue]) := by
    decide
  obtain ⟨created,t,hrun,hread⟩ := bind_ok.mp (outcome_ok hran)
  obtain ⟨hcreated,hopen⟩ := Prod.mk.inj (read_ok.mp hread).1
  have hnew : (RiskIssueStatus.opened,issueKey sampleIssue) ∈
      created.map fun i => (i.status,issueKey i) := by
    rw [hcreated]
    exact List.mem_cons_self
  obtain ⟨i,hi,hkey⟩ := List.mem_map.mp hnew
  obtain ⟨hstatus,hkey⟩ := Prod.mk.inj hkey
  refine ⟨t,created,hrun,⟨i,hi,hstatus,hkey⟩,List.mem_singleton_self _,rfl,?_⟩
  rw [hopen]
  decide

end LawyerAgent.RuleCheckRuns
