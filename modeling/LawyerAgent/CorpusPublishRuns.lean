import LawyerAgent.CorpusPublish
import LawyerAgent.Relational.Run

/-!
# Sequences of publish calls

A call on a published dataset takes it out of its state: a passing call
supersedes the snapshot it has just released, a rejected call overwrites it.
-/

set_option autoImplicit false

namespace LawyerAgent.CorpusPublishRuns
open Relational Common CorpusPublish

variable {service : PublishService} {c : PublishCall} {name : String}

def Published (name : String) (s : Inventory) : Prop :=
  ∃ d ∈ s.datasets, d.datasetName = name ∧ d.state = .published

variable {s t : Inventory} {snapshot : DatasetSnapshot} {report : QualityReport}

theorem dataset_unique {d e : DatasetSnapshot} (hd : d ∈ s.datasets) (he : e ∈ s.datasets)
    (h : d.datasetName = e.datasetName) : d = e := by
  apply eq_of_clash hd he
  change (d.datasetName == e.datasetName) = true
  rw [h]
  exact beq_self_eq_true _

theorem published_row {d : DatasetSnapshot} (hd : d ∈ s.datasets) (hname : d.datasetName = name) :
    Published name s ↔ d.state = .published := by
  constructor
  · rintro ⟨e,he,hename,hstate⟩
    rw [dataset_unique hd he (hname.trans hename.symm)]
    exact hstate
  · intro hstate
    exact ⟨d,hd,hname,hstate⟩

theorem lookup_published (name : String) (s : Inventory) :
    ((selectRow (fun d => d.datasetName == name) s.datasets).any fun d =>
      d.state == .published) = true ↔ Published name s := by
  cases h : selectRow (fun d => d.datasetName == name) s.datasets with
  | none =>
    have hnone := selectRow_none.mp h
    constructor
    · intro hany
      cases hany
    · rintro ⟨d,hd,hname,-⟩
      have := hnone d hd
      simp [hname] at this
  | some d =>
    obtain ⟨hd,hname⟩ := selectRow_some h
    rw [published_row hd (by simpa using hname)]
    simp

theorem upsertDataset_ok {u : Unit} (h : upsertDataset snapshot s = .ok (u,t)) :
    Published snapshot.datasetName t ↔ snapshot.state = .published := by
  simp only [upsertDataset,bind_ok,read_ok] at h
  obtain ⟨found,_,⟨hfound,rfl⟩,h⟩ := h
  cases found with
  | none =>
    simp only [zoom_ok,insertRow_ok] at h
    obtain ⟨datasets,hrows,rfl⟩ := h
    have hmem : snapshot ∈ datasets := by
      rw [mem_rows,hrows]
      exact List.mem_cons_self
    exact published_row (s := datasetsOf.set datasets s) hmem rfl
  | some row =>
    simp only [bind_ok,zoom_ok,updateRows_ok,pure_ok] at h
    obtain ⟨_,_,⟨datasets,⟨-,hrows⟩,rfl⟩,-,rfl⟩ := h
    obtain ⟨hrow,hname⟩ := selectRow_some hfound
    have hmem : snapshot.updateFrom row ∈ datasets := by
      rw [mem_rows,hrows,List.mem_map]
      exact ⟨row,hrow,if_pos (beq_self_eq_true _)⟩
    have hrowName : (snapshot.updateFrom row).datasetName = snapshot.datasetName :=
      beq_iff_eq.mp hname
    have hafter := published_row (s := datasetsOf.set datasets s) hmem hrowName
    exact hafter

theorem newSnapshot_ok {id : UUID7} {state : DatasetState} {manifest metrics : JsonObject}
    {releasedAt : Option Time}
    (h : newSnapshot service id state manifest metrics releasedAt = .ok snapshot) :
    snapshot.datasetName = service.datasetName ∧ snapshot.state = state := by
  unfold newSnapshot at h
  split at h
  · split at h
    · cases h
      exact ⟨rfl,rfl⟩
    · cases h
  · cases h

theorem recordFailureIssues_datasets {issues : List String} {u : Unit}
    (h : recordFailureIssues c issues s = .ok (u,t)) : t.datasets = s.datasets := by
  unfold recordFailureIssues at h
  cases hbatch : c.batchId with
  | none =>
    rw [hbatch] at h
    obtain ⟨-,rfl⟩ := pure_ok.mp h
    rfl
  | some batchId =>
    simp only [hbatch,bind_ok,findBatch,read_ok] at h
    obtain ⟨batch,_,⟨-,rfl⟩,h⟩ := h
    cases batch with
    | none =>
      obtain ⟨-,rfl⟩ := pure_ok.mp h
      rfl
    | some batch =>
      simp only [replaceQualityIssues,bind_ok,zoom_ok] at h
      obtain ⟨_,_,⟨_,-,rfl⟩,_,-,rfl⟩ := h
      rfl

theorem completePublished_datasets {u : Unit} (h : completePublished c s = .ok (u,t)) :
    t.datasets = s.datasets := by
  unfold completePublished at h
  cases hbatch : c.batchId with
  | none =>
    rw [hbatch] at h
    obtain ⟨-,rfl⟩ := pure_ok.mp h
    rfl
  | some batchId =>
    simp only [hbatch,completeBatch,bind_ok,zoom_ok,pure_ok] at h
    obtain ⟨_,_,⟨_,_,⟨_,-,rfl⟩,-,rfl⟩,-,rfl⟩ := h
    rfl

theorem publishRejected_ok (h : publishRejected service c report s = .ok (snapshot,t)) :
    ¬Published service.datasetName t := by
  simp only [publishRejected,bind_ok,ofExcept_ok,pure_ok] at h
  obtain ⟨_,_,⟨hnew,rfl⟩,_,u,hupsert,_,v,hrecord,rfl,rfl⟩ := h
  obtain ⟨hname,hstate⟩ := newSnapshot_ok hnew
  have hpublished := upsertDataset_ok hupsert
  rw [hname,hstate] at hpublished
  rw [Published,recordFailureIssues_datasets hrecord]
  intro hafter
  exact absurd (hpublished.mp hafter) (by decide)

/-- A passing call publishes the dataset if and only if it was not published. -/
theorem publishPassed_ok (h : publishPassed service c report s = .ok (snapshot,t)) :
    Published service.datasetName t ↔ ¬Published service.datasetName s := by
  simp only [publishPassed,findDataset,bind_ok,read_ok,require_ok,ofExcept_ok,pure_ok] at h
  obtain ⟨_,_,⟨found,_,⟨hfound,rfl⟩,_,_,⟨-,rfl⟩,rfl,rfl⟩,published,_,⟨hnew,rfl⟩,_,u,hupsert,_,v,
    hcomplete,-,rfl⟩ := h
  obtain ⟨hname,hstate⟩ := newSnapshot_ok hnew
  have hpublished := upsertDataset_ok hupsert
  have hbefore := lookup_published service.datasetName s
  rw [hfound] at hbefore
  rw [hname,hstate] at hpublished
  have hkept : Published service.datasetName v ↔ Published service.datasetName u := by
    rw [Published,Published,completePublished_datasets hcomplete]
  rw [hkept,hpublished,← hbefore]
  split
  · next hany => simp [hany]
  · next hany => simp [hany]

theorem publish_ok (h : publish service c s = .ok ((snapshot,report),t)) :
    report = evaluate service.floats service.gate c.quality ∧
      (report.passed = true →
        (Published service.datasetName t ↔ ¬Published service.datasetName s)) ∧
      (report.passed = false → ¬Published service.datasetName t) := by
  simp only [publish,bind_ok,pure_ok,Prod.mk.injEq] at h
  obtain ⟨_,u,hrun,⟨rfl,rfl⟩,rfl⟩ := h
  refine ⟨rfl,fun hpassed => ?_,fun hfailed => ?_⟩
  · rw [publishReport,if_neg (by simp [hpassed])] at hrun
    exact publishPassed_ok hrun
  · rw [publishReport,if_pos hfailed] at hrun
    exact publishRejected_ok hrun

def step (service : PublishService) (c : PublishCall) (s : Inventory) : Inventory :=
  commit (publish service c) s

/-- A call that returns leaves the dataset published if its gate passes, and a
published snapshot as it is if its gate rejects. -/
def Keeps (service : PublishService) (c : PublishCall) (s : Inventory) : Prop :=
  ∀ snapshot report t, publish service c s = .ok ((snapshot,report),t) →
    (report.passed = true → Published service.datasetName t) ∧
    (report.passed = false → ∀ d ∈ s.datasets, d.datasetName = service.datasetName →
      d.state = .published → d ∈ t.datasets)

/-- The call does not return, or the dataset is not published when it starts. -/
def StartsUnpublished (service : PublishService) (c : PublishCall) (s : Inventory) : Prop :=
  (∃ v t, publish service c s = .ok (v,t)) → ¬Published service.datasetName s

theorem keeps_iff (c : PublishCall) (s : Inventory) :
    Keeps service c s ↔ StartsUnpublished service c s := by
  constructor
  · rintro hkeeps ⟨⟨snapshot,report⟩,t,h⟩ hbefore
    obtain ⟨-,hpassed,hrejected⟩ := publish_ok h
    obtain ⟨hkeepsPassed,hkeepsRejected⟩ := hkeeps snapshot report t h
    by_cases hgate : report.passed = true
    · exact (hpassed hgate).mp (hkeepsPassed hgate) hbefore
    · have hfailed := eq_false_of_ne_true hgate
      obtain ⟨d,hd,hname,hstate⟩ := hbefore
      exact hrejected hfailed ⟨d,hkeepsRejected hfailed d hd hname hstate,hname,hstate⟩
  · intro hstarts snapshot report t h
    obtain ⟨-,hpassed,-⟩ := publish_ok h
    have hbefore := hstarts ⟨_,_,h⟩
    refine ⟨fun hgate => (hpassed hgate).mpr hbefore,fun _ d hd hname hstate => ?_⟩
    exact absurd ⟨d,hd,hname,hstate⟩ hbefore

/-- A call that the gate rejects does not publish the dataset. -/
theorem step_unpublished {c : PublishCall}
    (hgate : (evaluate service.floats service.gate c.quality).passed = false)
    (h : ¬Published service.datasetName s) : ¬Published service.datasetName (step service c s) := by
  refine commit_of (P := fun t => ¬Published service.datasetName t) h ?_
  rintro ⟨snapshot,report⟩ t hrun
  obtain ⟨rfl,-,hrejected⟩ := publish_ok hrun
  exact hrejected hgate

theorem rejected_unpublished {calls : List PublishCall} (h : ¬Published service.datasetName s)
    (hgate : ∀ c ∈ calls.dropLast, (evaluate service.floats service.gate c.quality).passed = false)
    : Along (step service) (StartsUnpublished service) calls s := by
  induction calls generalizing s with
  | nil => trivial
  | cons c calls ih =>
    refine ⟨fun _ => h,?_⟩
    cases calls with
    | nil => trivial
    | cons next calls =>
      rw [List.dropLast_cons_cons] at hgate
      exact ih (step_unpublished (hgate c List.mem_cons_self) h)
        fun d hd => hgate d (List.mem_cons_of_mem _ hd)

/-- Every call of a sequence keeps the dataset published if and only if none of
those that return starts on a published dataset; so does a sequence on an
unpublished dataset of which only the last call passes the gate. -/
theorem published_calls (service : PublishService) (calls : List PublishCall) (s : Inventory) :
    (Along (step service) (Keeps service) calls s ↔
      Along (step service) (StartsUnpublished service) calls s) ∧
    (¬Published service.datasetName s →
      (∀ c ∈ calls.dropLast, (evaluate service.floats service.gate c.quality).passed = false) →
        Along (step service) (Keeps service) calls s) := by
  have hsame : Along (step service) (Keeps service) calls s ↔
      Along (step service) (StartsUnpublished service) calls s := along_congr keeps_iff calls s
  exact ⟨hsame,fun h hgate => hsame.mpr (rejected_unpublished h hgate)⟩

/-- The values of the operations on the coverage of the calls below. -/
def sampleFloats : FloatArithmetic := ⟨fun a b => a/b,id,fun _ => "1.0"⟩

def sampleService : PublishService where
  floats := sampleFloats
  readable := fun _ => true
  gate := ⟨1/2,"docx-zip-v1",by decide +kernel⟩
  datasetName := "dataset_v1"

def sampleCall (numbers : List String) : PublishCall where
  batchId := none
  quality := ⟨numbers.length,numbers,[],0⟩
  manifest := []
  snapshotId := ⟨0,1,0⟩
  issueId := fun n => ⟨0,2,BitVec.ofNat 62 n⟩
  now := 0

def sampleInventory : Inventory := ⟨Table.empty,Table.empty,Table.empty⟩

theorem sample_states (numbers : List String) (h : numbers = ["1"] ∨ numbers = []) :
    ∃ t v u, publish sampleService (sampleCall ["1"]) sampleInventory = .ok (v,t) ∧
      Published "dataset_v1" t ∧
        (∃ w, publish sampleService (sampleCall numbers) t = .ok (w,u)) := by
  have hrun : outcome (publish sampleService (sampleCall ["1"]) >>= fun _ =>
      Relational.read (fun s => s.datasets.rows.map fun d => (d.datasetName,d.state)) >>=
        fun states => publish sampleService (sampleCall numbers) >>= fun _ => pure states)
      sampleInventory = .ok [("dataset_v1",.published)] := by
    rcases h with rfl | rfl <;> decide +kernel
  obtain ⟨v,t,hfirst,hrest⟩ := bind_ok.mp (outcome_ok hrun)
  obtain ⟨states,t',hread,hrest⟩ := bind_ok.mp hrest
  obtain ⟨hstates,rfl⟩ := read_ok.mp hread
  obtain ⟨w,u,hsecond,hpure⟩ := bind_ok.mp hrest
  obtain ⟨rfl,-⟩ := pure_ok.mp hpure
  refine ⟨t,v,u,hfirst,?_,w,hsecond⟩
  have hmem : ("dataset_v1",DatasetState.published) ∈
      t.datasets.rows.map fun d => (d.datasetName,d.state) := by
    rw [hstates]
    exact List.mem_cons_self
  obtain ⟨d,hd,hpair⟩ := List.mem_map.mp hmem
  obtain ⟨hname,hstate⟩ := Prod.mk.inj hpair
  exact ⟨d,hd,hname,hstate⟩

theorem sample_broken (numbers : List String) (h : numbers = ["1"] ∨ numbers = []) :
    ¬Along (step sampleService) (Keeps sampleService)
      [sampleCall ["1"],sampleCall numbers] sampleInventory := by
  rintro ⟨-,hsecond,-⟩
  obtain ⟨t,v,u,hfirst,hpublished,hreturns⟩ := sample_states numbers h
  have hstate : step sampleService (sampleCall ["1"]) sampleInventory = t := commit_ok hfirst
  rw [hstate,keeps_iff] at hsecond
  obtain ⟨w,hw⟩ := hreturns
  exact hsecond ⟨w,u,hw⟩ hpublished

/-- A dataset is published; a second passing call supersedes it, and a rejected
one overwrites it. -/
theorem published_twice :
    ¬Along (step sampleService) (Keeps sampleService)
      [sampleCall ["1"],sampleCall ["1"]] sampleInventory ∧
    ¬Along (step sampleService) (Keeps sampleService)
      [sampleCall ["1"],sampleCall []] sampleInventory :=
  ⟨sample_broken _ (Or.inl rfl),sample_broken _ (Or.inr rfl)⟩

end LawyerAgent.CorpusPublishRuns
