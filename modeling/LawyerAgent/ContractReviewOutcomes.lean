import LawyerAgent.ContractReviewRace

/-!
# Outcomes of review runs

What holds of the runs and of the log after any interleaving of calls: a run
moves one way, is claimed once, is decided once, and its draft is the review
of its own PDF.
-/

set_option autoImplicit false

namespace LawyerAgent.ContractReviewOutcomes
open Relational Common CanonicalJson IdentityTables
open SessionTables ContractReviewTables
open ContractReviewPayloads ContractReviewRuns
open ContractReviewRace
open TenantAuthorization (TenantActor)

structure RowSound (r : ContractReviewRunModel) : Prop where
  lease : r.failureLeaseHash.isSome = true ↔ r.status = .running
  pdf : r.pdfSha256 = none ↔ r.status = .awaitingUpload

def Attaches (runId : UUID7) (pdf : Digest) (e : Returned) : Prop :=
  e.wrote.isSome = true ∧ ∃ actor key digest size now,
    e.call = .attachPdf actor runId key digest size now ∧ fromHex digest = some pdf

/-- The row still says what the finish that decided it has written. -/
def FinishKept (wire : WireModels) (t : Table contractReviewRuns) (e : Returned) : Prop :=
  ∀ actor runId withDraft result parsed manifest now,
    e.call = .finish actor runId withDraft result parsed manifest now → e.wrote.isSome = true →
    firstError (finishPayloadChecks wire result parsed manifest) = none ∧
    ∃ r ∈ t, r.id = runId ∧ r.status = finishTarget withDraft ∧ r.resultJson = some result ∧
      r.parsedDocument = some parsed ∧ r.evidenceManifest = some manifest ∧
      finishIdentityOk runId withDraft result parsed r = true ∧ e.record = some (recordOf r)

def Drafts (runId : UUID7) (e : Returned) : Prop :=
  e.wrote.isSome = true ∧ ∃ actor result parsed manifest now,
    e.call = .finish actor runId true result parsed manifest now

structure Logged (sha256 : List UInt8 → Digest) (wire : WireModels) (e : Returned) : Prop where
  shape : ∀ s, e.wrote = some s → Shape sha256 wire e.call s
  claim : e.wrote = none → ∀ actor runId token clock now,
    e.call ≠ .claim actor runId token clock now

structure Sound (sha256 : List UInt8 → Digest) (wire : WireModels) (w : ReviewWorld) : Prop where
  rows : ∀ r ∈ w.db.runs, RowSound r
  attached : ∀ r ∈ w.db.runs, ∀ pdf, r.pdfSha256 = some pdf → ∃ e ∈ w.log, Attaches r.id pdf e
  drafted : ∀ r ∈ w.db.runs, r.status = .draft → ∃ e ∈ w.log, Drafts r.id e
  counted : Counted w.db.runs w.log
  logged : ∀ e ∈ w.log, Logged sha256 wire e
  kept : ∀ e ∈ w.log, FinishKept wire w.db.runs e
  flying : ∀ p, some p ∈ w.inFlight → Shape sha256 wire p.1 p.2 ∧ Seen w.db.runs p.1

variable {change : RunChange} {r : ContractReviewRunModel} {t t' : Table contractReviewRuns}
  {u : RunUpdate} {e : Returned} {call : RunCall} {record : Option RunRecord} {runId : UUID7}

section Invariant

variable {sha256 : List UInt8 → Digest} {wire : WireModels}

theorem changedRow_pdf (now : Time) (r : ContractReviewRunModel)
    (h : change.expected ≠ .awaitingUpload) :
    (changedRow change now r).pdfSha256 = r.pdfSha256 := by
  cases change with
  | attachPdf key sha256 size => exact absurd rfl h
  | _ => rfl

theorem changedRow_sound (now : Time) (hstatus : r.status = change.expected) (h : RowSound r) :
    RowSound (changedRow change now r) := by
  have hpdf : change.expected ≠ .awaitingUpload → r.pdfSha256 ≠ none := fun hne hnone =>
    hne (hstatus ▸ h.pdf.mp hnone)
  constructor
  · rw [changedRow_status]
    cases change with
    | attachPdf key sha256 size =>
      have hnone : ¬r.failureLeaseHash.isSome = true := fun hs => by
        rw [h.lease.mp hs] at hstatus
        cases hstatus
      exact ⟨fun hs => absurd hs hnone,fun hs => by cases hs⟩
    | claim leaseHash leaseExpiresAt => exact ⟨fun _ => rfl,fun _ => rfl⟩
    | finish withDraft result parsed manifest =>
      cases withDraft <;> simp [changedRow,RunChange.values,RunChange.target,finishTarget]
    | fail code cancelled =>
      cases cancelled <;> simp [changedRow,RunChange.values,RunChange.target,failTarget]
    | failOwned code cancelled manifest =>
      cases cancelled <;> simp [changedRow,RunChange.values,RunChange.target,failTarget]
  · have htarget : change.target ≠ .awaitingUpload := fun ht => by
      have hrank := target_rank change
      rw [ht] at hrank
      cases hrank
    rw [changedRow_status]
    refine ⟨fun hnone => ?_,fun ht => absurd ht htarget⟩
    cases change with
    | attachPdf key sha256 size => cases hnone
    | _ => exact absurd hnone (hpdf (by simp [RunChange.expected]))

theorem replaced_keeps {r x : ContractReviewRunModel} (hmatch : u.matches r = true)
    (hreplaced : Replaced r (changedRow u.change u.now r) t t') (hx : x ∈ t)
    (hne : x.status ≠ u.change.expected) : x ∈ t' := by
  refine (replaced_mem hreplaced).mpr (Or.inr ⟨hx,fun hk => hne ?_⟩)
  rw [eq_of_key hx hreplaced.mem hk]
  exact (matches_row hmatch).2

theorem finishTarget_terminal (withDraft : Bool) : (finishTarget withDraft).terminal = true := by
  cases withDraft <;> rfl

theorem finishKept_mono (ht : ∀ r ∈ t, r.status.terminal = true → r ∈ t')
    (h : FinishKept wire t e) :
    FinishKept wire t' e := by
  intro actor runId withDraft result parsed manifest now hcall hwrote
  obtain ⟨hchecks,r,hr,hid,hstatus,hrest⟩ := h _ _ _ _ _ _ _ hcall hwrote
  exact ⟨hchecks,r,ht r hr (by rw [hstatus]; exact finishTarget_terminal withDraft),hid,hstatus,
    hrest⟩

/-- What a finish was held to stays as long as PDFs stay. -/
theorem seen_mono
    (ht : ∀ r ∈ t, r.pdfSha256 ≠ none → ∃ r' ∈ t', r'.id = r.id ∧ r'.pdfSha256 = r.pdfSha256)
    (h : Seen t call) : Seen t' call := by
  cases call with
  | finish actor runId withDraft result parsed manifest now =>
    obtain ⟨r,hr,hid,hok⟩ := h
    have hpdf : r.pdfSha256 ≠ none := fun hnone => by
      rw [finishIdentityOk,hnone] at hok
      cases hok
    obtain ⟨r',hr',hid',hsame⟩ := ht r hr hpdf
    refine ⟨r',hr',hid'.trans hid,?_⟩
    rw [finishIdentityOk,hsame]
    exact hok
  | _ => trivial

theorem finishKept_updated (hmatch : u.matches r = true)
    (hreplaced : Replaced r (changedRow u.change u.now r) t t')
    (hrecord : u.owner.isSome = true → record = some (recordOf (changedRow u.change u.now r)))
    (hshape : Shape sha256 wire call (.update u)) (hseen : Seen t call) :
    FinishKept wire t' ⟨call,some (.update u),call.returned record⟩ := by
  intro actor runId withDraft result parsed manifest now hcall _
  simp only at hcall
  subst hcall
  cases hshape with
  | finish _ _ _ _ _ _ _ _ hid howner hchecks hchange =>
    obtain ⟨x,hx,hxid,hok⟩ := hseen
    obtain ⟨hrid,-⟩ := matches_row hmatch
    have hxr : x = r := eq_of_key hx hreplaced.mem (by
      change x.id = r.id
      rw [hxid,hrid,hid])
    subst hxr
    have hpdf : (changedRow u.change u.now x).pdfSha256 = x.pdfSha256 :=
      changedRow_pdf u.now x (by rw [hchange]; simp [RunChange.expected])
    refine ⟨hchecks,_,(replaced_mem hreplaced).mpr (Or.inl rfl),?_,?_,?_,?_,?_,?_,hrecord howner⟩
    · rw [changedRow_id,hxid]
    · rw [changedRow_status,hchange]
      rfl
    · rw [hchange]
      rfl
    · rw [hchange]
      rfl
    · rw [hchange]
      rfl
    · rw [finishIdentityOk,hpdf]
      exact hok

theorem drafts_of (hshape : Shape sha256 wire call (.update u)) (htarget : u.change.target =
      .draft) :
    Drafts u.runId ⟨call,some (.update u),record⟩ := by
  cases hshape with
  | finish actor runId withDraft result parsed manifest now _ hid howner hchecks hchange =>
    subst hid
    rw [hchange] at htarget
    cases withDraft with
    | true => exact ⟨rfl,actor,result,parsed,manifest,now,rfl⟩
    | false => cases htarget
  | attachPdf _ _ _ _ _ _ _ _ _ _ hchange =>
    rw [hchange] at htarget
    cases htarget
  | claim _ _ _ _ _ _ _ _ hchange =>
    rw [hchange] at htarget
    cases htarget
  | fail _ _ _ cancelled _ _ _ hchange =>
    rw [hchange] at htarget
    cases cancelled <;> cases htarget
  | failOwned _ _ cancelled _ _ _ _ hchange =>
    rw [hchange] at htarget
    cases cancelled <;> cases htarget

theorem attaches_of {pdf : Digest} (hshape : Shape sha256 wire call (.update u))
    (hexpected : u.change.expected = .awaitingUpload)
    (hpdf : (changedRow u.change u.now r).pdfSha256 = some pdf) :
    Attaches u.runId pdf ⟨call,some (.update u),record⟩ := by
  cases hshape with
  | attachPdf actor runId key digest size now pdf' _ hid htext hchange =>
    subst hid
    rw [hchange] at hpdf
    obtain rfl := Option.some.inj hpdf
    exact ⟨rfl,actor,key,digest,size,now,rfl,htext⟩
  | claim _ _ _ _ _ _ _ _ hchange =>
    rw [hchange] at hexpected
    cases hexpected
  | finish _ _ _ _ _ _ _ _ _ _ _ hchange =>
    rw [hchange] at hexpected
    cases hexpected
  | fail _ _ _ _ _ _ _ hchange =>
    rw [hchange] at hexpected
    cases hexpected
  | failOwned _ _ _ _ _ _ _ hchange =>
    rw [hchange] at hexpected
    cases hexpected

theorem finishKept_other (h : e.wrote = none ∨ ∃ model, e.wrote = some (.insert model))
    (hlogged : Logged sha256 wire e) : FinishKept wire t e := by
  intro actor runId withDraft result parsed manifest now hcall hwrote
  rcases h with h | ⟨model,h⟩
  · rw [h] at hwrote
    cases hwrote
  · have hshape := hlogged.shape _ h
    rw [hcall] at hshape
    cases hshape

theorem progress_inserted {model : ContractReviewRunModel} (h : Inserted model t t')
    (hstatus : model.status = .awaitingUpload) (runId : UUID7) :
    progress runId t' = progress runId t := by
  by_cases hid : model.id = runId
  · subst hid
    have hfresh : ∀ r ∈ t, r.id ≠ model.id := fun r hr hrid => (inserted_fresh h hr).1 hrid.symm
    rw [progress_row ((inserted_mem h).mpr (Or.inl rfl)),progress_none hfresh,hstatus]
    rfl
  · refine progress_congr fun x hx => ?_
    rw [inserted_mem h]
    constructor
    · rintro (rfl | hmem)
      · exact absurd hx hid
      · exact hmem
    · exact Or.inr

theorem sound_inserted {w w' : ReviewWorld} {model : ContractReviewRunModel}
    (h : Sound sha256 wire w) (hshape : Shape sha256 wire call (.insert model))
    (hinserted : Inserted model w.db.runs w'.db.runs)
    (hlog : w'.log = ⟨call,some (.insert model),record⟩::w.log)
    (hflight : ∀ p, some p ∈ w'.inFlight → some p ∈ w.inFlight) : Sound sha256 wire w' := by
  obtain ⟨hstatus,hpdf,hlease⟩ : model.status = .awaitingUpload ∧ model.pdfSha256 = none ∧
      model.failureLeaseHash = none := by
    cases hshape
    exact ⟨rfl,rfl,rfl⟩
  have hold : ∀ r ∈ w.db.runs, r ∈ w'.db.runs := fun r hr =>
    (inserted_mem hinserted).mpr (Or.inr hr)
  have hnew : Logged sha256 wire ⟨call,some (.insert model),record⟩ :=
    ⟨(fun s hs => by cases hs; exact hshape),fun hs => by cases hs⟩
  constructor
  · intro r hr
    rcases (inserted_mem hinserted).mp hr with rfl | hr
    · exact ⟨by simp [hlease,hstatus],by simp [hpdf,hstatus]⟩
    · exact h.rows r hr
  · intro r hr pdf hsome
    rw [hlog]
    rcases (inserted_mem hinserted).mp hr with rfl | hr
    · rw [hpdf] at hsome
      cases hsome
    · obtain ⟨e,he,hattach⟩ := h.attached r hr pdf hsome
      exact ⟨e,List.mem_cons_of_mem _ he,hattach⟩
  · intro r hr hdraft
    rw [hlog]
    rcases (inserted_mem hinserted).mp hr with rfl | hr
    · rw [hstatus] at hdraft
      cases hdraft
    · obtain ⟨e,he,hdrafts⟩ := h.drafted r hr hdraft
      exact ⟨e,List.mem_cons_of_mem _ he,hdrafts⟩
  · rw [hlog]
    exact counted_kept h.counted (progress_inserted hinserted hstatus) fun _ _ => rfl
  · rw [hlog]
    exact List.forall_mem_cons.mpr ⟨hnew,h.logged⟩
  · rw [hlog]
    exact List.forall_mem_cons.mpr ⟨finishKept_other (Or.inr ⟨model,rfl⟩) hnew,
      fun e he => finishKept_mono (fun r hr _ => hold r hr) (h.kept e he)⟩
  · intro p hp
    obtain ⟨hs,hseen⟩ := h.flying p (hflight p hp)
    exact ⟨hs,seen_mono (fun r hr _ => ⟨r,hold r hr,rfl,rfl⟩) hseen⟩

theorem sound_updated {w w' : ReviewWorld} (h : Sound sha256 wire w)
    (hmem : some (call,.update u) ∈ w.inFlight) (hmatch : u.matches r = true)
    (hreplaced : Replaced r (changedRow u.change u.now r) w.db.runs w'.db.runs)
    (hrecord : u.owner.isSome = true → record = some (recordOf (changedRow u.change u.now r)))
    (hlog : w'.log = ⟨call,some (.update u),call.returned record⟩::w.log)
    (hflight : ∀ p, some p ∈ w'.inFlight → some p ∈ w.inFlight) : Sound sha256 wire w' := by
  obtain ⟨hshape,hseen⟩ := h.flying _ hmem
  obtain ⟨hid,hstatus⟩ := matches_row hmatch
  have hr := h.rows r hreplaced.mem
  have hchangedId : (changedRow u.change u.now r).id = u.runId :=
    (changedRow_id u.change u.now r).trans hid
  constructor
  · intro x hx
    rcases (replaced_mem hreplaced).mp hx with rfl | ⟨hx,-⟩
    · exact changedRow_sound u.now hstatus hr
    · exact h.rows x hx
  · intro x hx pdf hsome
    rw [hlog]
    rcases (replaced_mem hreplaced).mp hx with rfl | ⟨hx,-⟩
    · by_cases hexpected : u.change.expected = .awaitingUpload
      · rw [hchangedId]
        exact ⟨_,List.mem_cons_self,attaches_of hshape hexpected hsome⟩
      · rw [changedRow_pdf u.now r hexpected] at hsome
        obtain ⟨e,he,hattach⟩ := h.attached r hreplaced.mem pdf hsome
        rw [changedRow_id]
        exact ⟨e,List.mem_cons_of_mem _ he,hattach⟩
    · obtain ⟨e,he,hattach⟩ := h.attached x hx pdf hsome
      exact ⟨e,List.mem_cons_of_mem _ he,hattach⟩
  · intro x hx hdraft
    rw [hlog]
    rcases (replaced_mem hreplaced).mp hx with rfl | ⟨hx,-⟩
    · rw [changedRow_status] at hdraft
      rw [hchangedId]
      exact ⟨_,List.mem_cons_self,drafts_of hshape hdraft⟩
    · obtain ⟨e,he,hdrafts⟩ := h.drafted x hx hdraft
      exact ⟨e,List.mem_cons_of_mem _ he,hdrafts⟩
  · rw [hlog]
    exact counted_updated h.counted hmatch hreplaced
  · rw [hlog]
    exact List.forall_mem_cons.mpr
      ⟨⟨(fun s hs => by cases hs; exact hshape),fun hs => by cases hs⟩,h.logged⟩
  · rw [hlog]
    refine List.forall_mem_cons.mpr ⟨finishKept_updated hmatch hreplaced hrecord hshape hseen,
      fun e he => finishKept_mono (fun x hx hterminal => ?_) (h.kept e he)⟩
    refine replaced_keeps hmatch hreplaced hx fun heq => ?_
    rw [heq,expected_open] at hterminal
    cases hterminal
  · intro p hp
    obtain ⟨hs,hp⟩ := h.flying p (hflight p hp)
    refine ⟨hs,seen_mono (fun x hx hpdf => ?_) hp⟩
    by_cases hne : x.status = u.change.expected
    · by_cases hxr : x = r
      · subst hxr
        refine ⟨_,(replaced_mem hreplaced).mpr (Or.inl rfl),changedRow_id _ _ _,
          changedRow_pdf u.now x fun hexpected => hpdf (hr.pdf.mpr (hne.trans hexpected))⟩
      · exact ⟨x,(replaced_mem hreplaced).mpr
          (Or.inr ⟨hx,fun hk => hxr (eq_of_key hx hreplaced.mem hk)⟩),rfl,rfl⟩
    · exact ⟨x,replaced_keeps hmatch hreplaced hx hne,rfl,rfl⟩

theorem step_sound (op : ReviewOp) (w : ReviewWorld) (h : Sound sha256 wire w) :
    Sound sha256 wire (reviewStep sha256 wire op w) := by
  have heff : ReviewEffect sha256 wire w (reviewStep sha256 wire op w) := reviewStep_effect op w
  generalize reviewStep sha256 wire op w = w' at heff
  cases heff with
  | idle hruns hlog hflight =>
    constructor
    · rw [hruns]
      exact h.rows
    · rw [hruns,hlog]
      exact h.attached
    · rw [hruns,hlog]
      exact h.drafted
    · rw [hruns,hlog]
      exact h.counted
    · rw [hlog]
      exact h.logged
    · rw [hruns,hlog]
      exact h.kept
    · rw [hruns]
      exact fun p hp => h.flying p (hflight p hp)
  | answered call record hclaim hworld =>
    subst hworld
    have hnew : Logged sha256 wire ⟨call,none,record⟩ :=
      ⟨(fun s hs => by cases hs),fun _ => hclaim⟩
    refine ⟨h.rows,fun r hr pdf hpdf => ?_,fun r hr hdraft => ?_,
      counted_kept h.counted (fun _ => rfl) fun _ _ => rfl,
      List.forall_mem_cons.mpr ⟨hnew,h.logged⟩,
      List.forall_mem_cons.mpr ⟨finishKept_other (Or.inl rfl) hnew,h.kept⟩,h.flying⟩
    · obtain ⟨e,he,hattach⟩ := h.attached r hr pdf hpdf
      exact ⟨e,List.mem_cons_of_mem _ he,hattach⟩
    · obtain ⟨e,he,hdrafts⟩ := h.drafted r hr hdraft
      exact ⟨e,List.mem_cons_of_mem _ he,hdrafts⟩
  | started call s hshape hseen hworld =>
    subst hworld
    refine ⟨h.rows,h.attached,h.drafted,h.counted,h.logged,h.kept,fun p hp => ?_⟩
    rcases List.mem_append.mp hp with hp | hp
    · exact h.flying p hp
    · cases List.mem_singleton.mp hp
      exact ⟨hshape,hseen⟩
  | inserted call model record hmem hinserted hlog hflight =>
    exact sound_inserted h (h.flying _ hmem).1 hinserted hlog hflight
  | updated call u r record hmem hmatch hreplaced hrecord hlog hflight =>
    exact sound_updated h hmem hmatch hreplaced hrecord hlog hflight

end Invariant

inductive Next : RunStatus → RunStatus → Prop
  | upload : Next .awaitingUpload .uploaded
  | claim : Next .uploaded .running
  | decide (s : RunStatus) (h : s.terminal = true) : Next .running s

def Advance (r r' : ContractReviewRunModel) : Prop := r' = r ∨ Next r.status r'.status

def Awaiting (r : ContractReviewRunModel) : Prop := r.status = .awaitingUpload

theorem next_change (change : RunChange) : Next change.expected change.target := by
  cases change with
  | attachPdf key sha256 size => exact .upload
  | claim leaseHash leaseExpiresAt => exact .claim
  | finish withDraft result parsed manifest =>
    exact .decide _ (finishTarget_terminal withDraft)
  | fail code cancelled => exact .decide _ (by cases cancelled <;> rfl)
  | failOwned code cancelled manifest => exact .decide _ (by cases cancelled <;> rfl)

def attaches (runId : UUID7) (e : Returned) : Bool :=
  e.wrote.isSome &&
  match e.call with
  | .attachPdf _ attached _ _ _ _ => attached == runId
  | _ => false

def claims (runId : UUID7) (e : Returned) : Bool :=
  match e.call with
  | .claim _ claimed _ _ _ => claimed == runId
  | _ => false

def decides (runId : UUID7) (e : Returned) : Bool :=
  e.wrote.isSome &&
  match e.call with
  | .finish _ finished _ _ _ _ _ => finished == runId
  | .fail _ failed _ _ _ => failed == runId
  | .failOwned lease _ _ _ _ => lease.runId == runId
  | _ => false

section Runs

variable {sha256 : List UInt8 → Digest} {wire : WireModels}

theorem step_evolves (op : ReviewOp) (w : ReviewWorld) (h : Sound sha256 wire w) :
    Evolves Advance Awaiting w.db.runs (reviewStep sha256 wire op w).db.runs := by
  have hrefl : ∀ r, Advance r r := fun _ => Or.inl rfl
  have heff : ReviewEffect sha256 wire w (reviewStep sha256 wire op w) := reviewStep_effect op w
  generalize reviewStep sha256 wire op w = w' at heff
  cases heff with
  | idle hruns hlog hflight =>
    rw [hruns]
    exact evolves_refl hrefl _
  | answered call record hclaim hworld =>
    subst hworld
    exact evolves_refl hrefl _
  | started call s hshape hseen hworld =>
    subst hworld
    exact evolves_refl hrefl _
  | inserted call model record hmem hinserted hlog hflight =>
    have hawaiting : Awaiting model := by
      cases (h.flying _ hmem).1
      rfl
    exact evolves_inserted hrefl hawaiting hinserted
  | updated call u r record hmem hmatch hreplaced hrecord hlog hflight =>
    refine evolves_replaced hrefl (Or.inr ?_) hreplaced
    rw [(matches_row hmatch).2,changedRow_status]
    exact next_change u.change

theorem advance_terminal {r r' : ContractReviewRunModel} (h : Advance r r')
    (hr : r.status.terminal = true) : r' = r := by
  rcases h with h | h
  · exact h
  · generalize r.status = s at h hr
    generalize r'.status = s' at h
    cases h <;> cases hr

theorem step_terminal (op : ReviewOp) (w : ReviewWorld) (h : Sound sha256 wire w)
    (hr : r ∈ w.db.runs) (hterminal : r.status.terminal = true) :
    r ∈ (reviewStep sha256 wire op w).db.runs := by
  obtain ⟨r',hr',-,hadvance⟩ := (step_evolves op w h).kept r hr
  rw [advance_terminal hadvance hterminal] at hr'
  exact hr'

theorem step_log (op : ReviewOp) (w : ReviewWorld) (he : e ∈ w.log) :
    e ∈ (reviewStep sha256 wire op w).log := by
  have heff : ReviewEffect sha256 wire w (reviewStep sha256 wire op w) := reviewStep_effect op w
  generalize reviewStep sha256 wire op w = w' at heff
  cases heff with
  | idle hruns hlog hflight => exact hlog ▸ he
  | answered call record hclaim hworld =>
    subst hworld
    exact List.mem_cons_of_mem _ he
  | started call s hshape hseen hworld =>
    subst hworld
    exact he
  | inserted call model record hmem hinserted hlog hflight =>
    exact hlog ▸ List.mem_cons_of_mem _ he
  | updated call u r record hmem hmatch hreplaced hrecord hlog hflight =>
    exact hlog ▸ List.mem_cons_of_mem _ he

theorem attaches_moved (h : Logged sha256 wire e) (hattaches : attaches runId e = true) :
    e.movedFrom runId .awaitingUpload = true := by
  obtain ⟨call,wrote,record⟩ := e
  cases wrote with
  | none => cases hattaches
  | some s =>
    cases call with
    | attachPdf actor attached key digest size now =>
      obtain rfl := eq_of_beq hattaches
      cases h.shape s rfl with
      | attachPdf _ _ _ _ _ _ pdf u hid hpdf hchange =>
        simp [Returned.movedFrom,hid,hchange,RunChange.expected]
    | _ => cases hattaches

theorem claims_moved (h : Logged sha256 wire e) (hclaims : claims runId e = true) :
    e.movedFrom runId .uploaded = true := by
  obtain ⟨call,wrote,record⟩ := e
  cases call with
  | claim actor claimed token clock now =>
    cases wrote with
    | none => exact absurd rfl (h.claim rfl actor claimed token clock now)
    | some s =>
      obtain rfl := eq_of_beq hclaims
      cases h.shape s rfl with
      | claim _ _ _ _ _ leaseHash u hid hchange =>
        simp [Returned.movedFrom,hid,hchange,RunChange.expected]
  | _ => cases hclaims

theorem decides_moved (h : Logged sha256 wire e) (runId : UUID7) :
    decides runId e = e.movedFrom runId .running := by
  obtain ⟨call,wrote,record⟩ := e
  cases wrote with
  | none => rfl
  | some s =>
    cases h.shape s rfl with
    | create actor request newId now owner => rfl
    | attachPdf _ _ _ _ _ _ _ u hid hpdf hchange =>
      simp [decides,Returned.movedFrom,hchange,RunChange.expected]
    | claim _ _ _ _ _ _ u hid hchange =>
      simp [decides,Returned.movedFrom,hchange,RunChange.expected]
    | finish _ _ _ _ _ _ _ u hid howner hchecks hchange =>
      simp [decides,Returned.movedFrom,hid,hchange,RunChange.expected]
    | fail _ _ _ _ _ u hid hchange =>
      simp [decides,Returned.movedFrom,hid,hchange,RunChange.expected]
    | failOwned _ _ _ _ _ u hid hchange =>
      simp [decides,Returned.movedFrom,hid,hchange,RunChange.expected]

/-- The row an actor may finish, as the reads of a transition find it. -/
def ownedRow (actor : TenantActor) (runId : UUID7) (now : Time) (db : ContractDatabase) :
    Option ContractReviewRunModel :=
  (authorizedOwner actor "ai_job.create" now db).bind fun owner =>
    selectRow (isOwned owner runId) db.runs

theorem transition_answers {actor : TenantActor} {now : Time}
    {replay validate : ContractReviewRunModel → Bool} {db : ContractDatabase}
    (h : ∀ row ∈ db.runs, row.id = runId → validate row = true ∧ row.status ≠ change.expected ∧
      replay row = true ∧ some (recordOf row) = record) :
    transition actor runId change now replay validate db =
      match ownedRow actor runId now db with
      | some _ => .ok (.answered record,db)
      | none => .error unavailable := by
  unfold ownedRow transition authorize owned
  cases howner : authorizedOwner actor "ai_job.create" now db with
  | none => simp [bind,Relational.read,orFail,Relational.fail,howner]
  | some owner =>
    cases hrow : selectRow (isOwned owner runId) db.runs with
    | none => simp [bind,pure,Relational.read,orFail,Relational.fail,howner,hrow]
    | some row =>
      obtain ⟨hmem,howned⟩ := selectRow_some hrow
      obtain ⟨hvalid,hstatus,hreplay,hrecord⟩ := h row hmem (isOwned_id howned)
      simp [bind,pure,Relational.read,orFail,require,howner,hrow,hvalid,hstatus,hreplay,hrecord]

/-- The finish that decided a run answers with its record, for whoever may
finish the run, in any world that still has the row. -/
theorem finish_again {db : ContractDatabase} (h : FinishKept wire db.runs e) {actor : TenantActor}
    {withDraft : Bool} {result parsed manifest : JsonObject} {now : Time}
    (hcall : e.call = .finish actor runId withDraft result parsed manifest now)
    (hwrote : e.wrote.isSome = true) (again : TenantActor) (later : Time) :
    beginCall sha256 wire (.finish again runId withDraft result parsed manifest later) db =
      match ownedRow again runId later db with
      | some _ => .ok (.answered e.record,db)
      | none => .error unavailable := by
  obtain ⟨hchecks,r,hr,hid,hstatus,hresult,hparsed,hmanifest,hok,hrecord⟩ :=
    h _ _ _ _ _ _ _ hcall hwrote
  have hrows : ∀ row ∈ db.runs, row.id = runId → row = r := fun row hrow hrowId =>
    eq_of_key hrow hr (hrowId.trans hid.symm)
  have hne : finishTarget withDraft ≠ .running := by cases withDraft <;> simp [finishTarget]
  simp only [beginCall,finish,hchecks]
  change transition again runId _ later _ _ db = _
  refine transition_answers fun row hrow hrowId => ?_
  obtain rfl := hrows row hrow hrowId
  exact ⟨hok,by rw [hstatus]; exact hne,by simp [hstatus,hresult,hparsed,hmanifest],hrecord.symm⟩

theorem sound_draft {w : ReviewWorld} (h : Sound sha256 wire w) (hr : r ∈ w.db.runs)
    (hdraft : r.status = .draft) :
    ∃ digest, (∃ e ∈ w.log, e.wrote.isSome = true ∧ ∃ actor key size now,
        e.call = .attachPdf actor r.id key digest size now) ∧
      r.pdfSha256.map hex = some digest ∧
      ∃ result, r.resultJson = some result ∧
        List.lookup "run_id" result = some (.string (uuidString r.id)) ∧
        List.lookup "document_version_id" result = some (.string digest) := by
  have hprints : ∀ (value : Option Json) (text : String), printsAs value text = true →
      value = some (.string text) := by
    intro value text hvalue
    unfold printsAs at hvalue
    split at hvalue
    · rw [eq_of_beq hvalue]
    · cases hvalue
  obtain ⟨e,he,hwrote,actor,result,parsed,manifest,now,hcall⟩ := h.drafted r hr hdraft
  obtain ⟨-,x,hx,hid,-,hresult,-,-,hok,-⟩ := h.kept e he _ _ _ _ _ _ _ hcall hwrote
  obtain rfl := eq_of_key hx hr hid
  obtain ⟨pdf,hpdf,hok⟩ := (Option.any_eq_true _ _).mp hok
  simp only [Bool.and_eq_true,Bool.not_true,Bool.false_or] at hok
  obtain ⟨-,hrun,hversion⟩ := hok
  obtain ⟨a,ha,hattached,attacher,key,digest,size,at',hcall',htext⟩ :=
    h.attached x hx pdf hpdf
  rw [hex_fromHex htext] at hversion
  refine ⟨digest,⟨a,ha,hattached,attacher,key,size,at',hcall'⟩,?_,result,hresult,
    hprints _ _ hrun,hprints _ _ hversion⟩
  rw [hpdf,Option.map_some,hex_fromHex htext]

variable (sha256 wire)

def ReviewWorld.fresh (identity : Identity) (sessions : Table authSessions) : ReviewWorld where
  db := ⟨identity,sessions,.empty⟩

theorem fresh_sound (identity : Identity) (sessions : Table authSessions) :
    Sound sha256 wire (ReviewWorld.fresh identity sessions) := by
  have hnone : ∀ r, ¬r ∈ (Table.empty : Table contractReviewRuns) := not_mem_empty
  refine ⟨fun r hr => absurd hr (hnone r),fun r hr => absurd hr (hnone r),
    fun r hr => absurd hr (hnone r),fun runId s _ => ?_,by simp [ReviewWorld.fresh],
    by simp [ReviewWorld.fresh],by simp [ReviewWorld.fresh]⟩
  simp [ReviewWorld.fresh,progress,selectRow,Table.empty]

/-- What holds of a world that some interleaving of calls has led to. -/
structure RunsDecided (w : ReviewWorld) : Prop where
  moves : ∀ op, Evolves Advance Awaiting w.db.runs (reviewStep sha256 wire op w).db.runs
  terminal : ∀ r ∈ w.db.runs, r.status.terminal = true →
    ∀ later, r ∈ (run (reviewStep sha256 wire) later w).db.runs
  lease : ∀ r ∈ w.db.runs, (r.failureLeaseHash.isSome = true ↔ r.status = .running) ∧
    (r.failureLeaseExpiresAt.isSome = true ↔ r.status = .running)
  attached : ∀ runId, w.log.countP (attaches runId) ≤ 1
  claimed : ∀ runId, w.log.countP (claims runId) ≤ 1
  decided : ∀ r ∈ w.db.runs,
    w.log.countP (decides r.id) = if r.status.terminal then 1 else 0
  repeated : ∀ e ∈ w.log, e.wrote.isSome = true →
    ∀ actor runId withDraft result parsed manifest now,
      e.call = .finish actor runId withDraft result parsed manifest now →
    ∀ later again clock, let db := (run (reviewStep sha256 wire) later w).db
      beginCall sha256 wire (.finish again runId withDraft result parsed manifest clock) db =
        match ownedRow again runId clock db with
        | some _ => .ok (.answered e.record,db)
        | none => .error unavailable
  draft : ∀ r ∈ w.db.runs, r.status = .draft →
    ∃ digest, (∃ e ∈ w.log, e.wrote.isSome = true ∧ ∃ actor key size now,
        e.call = .attachPdf actor r.id key digest size now) ∧
      r.pdfSha256.map hex = some digest ∧
      ∃ result, r.resultJson = some result ∧
        List.lookup "run_id" result = some (.string (uuidString r.id)) ∧
        List.lookup "document_version_id" result = some (.string digest)

theorem runs_decided (identity : Identity) (sessions : Table authSessions)
    (ops : List ReviewOp) :
    RunsDecided sha256 wire
      (run (reviewStep sha256 wire) ops (ReviewWorld.fresh identity sessions)) := by
  have h : Sound sha256 wire
      (run (reviewStep sha256 wire) ops (ReviewWorld.fresh identity sessions)) :=
    run_invariant (fun op w hw => step_sound op w hw) ops _ (fresh_sound sha256 wire _ _)
  generalize run (reviewStep sha256 wire) ops (ReviewWorld.fresh identity sessions) = w at h
  constructor
  · exact fun op => step_evolves op w h
  · intro r hr hterminal later
    exact (run_invariant (I := fun u => Sound sha256 wire u ∧ r ∈ u.db.runs)
      (fun op u hu => ⟨step_sound op u hu.1,step_terminal op u hu.1 hu.2 hterminal⟩)
      later w ⟨h,hr⟩).2
  · intro r hr
    have hcheck := checked hr
    simp only [contractReviewRuns,Bool.and_eq_true,beq_iff_eq] at hcheck
    refine ⟨(h.rows r hr).lease,?_⟩
    rw [← hcheck.1.2]
    exact (h.rows r hr).lease
  · intro runId
    calc w.log.countP (attaches runId)
        ≤ w.log.countP (Returned.movedFrom runId .awaitingUpload) :=
          List.countP_mono_left fun e he => attaches_moved (h.logged e he)
      _ ≤ 1 := h.counted.le_one runId rfl
  · intro runId
    calc w.log.countP (claims runId)
        ≤ w.log.countP (Returned.movedFrom runId .uploaded) :=
          List.countP_mono_left fun e he => claims_moved (h.logged e he)
      _ ≤ 1 := h.counted.le_one runId rfl
  · intro r hr
    rw [List.countP_congr fun e he => by rw [decides_moved (h.logged e he) r.id],
      h.counted r.id .running rfl,progress_row hr]
    simp only [← terminal_iff]
  · intro e he hwrote actor runId withDraft result parsed manifest now hcall later again clock
    obtain ⟨hlater,helater⟩ := run_invariant (I := fun u => Sound sha256 wire u ∧ e ∈ u.log)
      (fun op u hu => ⟨step_sound op u hu.1,step_log op u hu.2⟩) later w ⟨h,he⟩
    exact finish_again (hlater.kept e helater) hcall hwrote again clock
  · exact fun r hr hdraft => sound_draft h hr hdraft

end Runs

end LawyerAgent.ContractReviewOutcomes
