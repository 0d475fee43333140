import LawyerAgent.LegalClaims
import LawyerAgent.LegalCorpus
import LawyerAgent.Outcomes.Except

/-!
# Answers to legal questions

Retrieval hits are restored into evidence from the corpus, the model answers on
a prompt that numbers the evidence, and its claims are published only through
the claim gate. The search index, the access decision and the model are
functions the answer depends on.
-/

set_option autoImplicit false

namespace LawyerAgent.RetrievalAnswers
open Relational Common LegalVersions
open LegalCorpus LegalClaims
open CitationGate (EvidenceItem EvidenceBundle EvidenceAssemblyError evidenceBundle
  assembleItem evidenceIds gateChecks)
open Envelope (uuidText)
open Outcomes (bind_ok)

variable {sha256 : List UInt8 → Digest}

inductive AnswerError where
  | valueError (message : String)
  | search (message : String)
  | versionNotFound (versionId : UUID7)
  | provisionNotFound (versionId provisionId : UUID7)
  | evidence (error : EvidenceAssemblyError)
  | chat (message : String)

structure LegalSearchHit where
  chunkId : UUID7
  provisionId : UUID7
  versionId : UUID7
deriving DecidableEq

def versionWithInstrument (s : Corpus sha256) (versionId : UUID7) :
    Option (LegalVersion × LegalInstrument) := do
  let version ← selectRow (fun v => v.value.id == versionId) s.versions
  let instrument ← selectRow (fun i => i.value.id == version.value.instrumentId) s.instruments
  pure (version,instrument)

structure Restored (sha256 : List UInt8 → Digest) where
  version : LegalVersion
  instrument : LegalInstrument
  provision : Provision sha256

def restoreHit (s : Corpus sha256) (hit : LegalSearchHit) :
    Except AnswerError (Restored sha256) :=
  match versionWithInstrument s hit.versionId with
  | none => .error (.versionNotFound hit.versionId)
  | some (version,instrument) =>
    match (provisionsForVersion s hit.versionId).find? fun p => p.value.id == hit.provisionId with
    | none => .error (.provisionNotFound hit.versionId hit.provisionId)
    | some provision => .ok ⟨version,instrument,provision⟩

/-- Hits on one provision of a version are restored once, in the order of the first. -/
def restoreHits (s : Corpus sha256) : List (UUID7 × UUID7) → List LegalSearchHit →
    Except AnswerError (List (Restored sha256))
  | _, [] => .ok []
  | seen, hit::hits =>
    if (hit.versionId,hit.provisionId) ∈ seen then restoreHits s seen hits
    else do
      let restored ← restoreHit s hit
      let rest ← restoreHits s ((hit.versionId,hit.provisionId)::seen) hits
      pure (restored::rest)

def evidenceProvision (p : Provision sha256) : CitationGate.Provision :=
  ⟨p.value.id,p.value.provisionNo,String.ofList p.value.fullText⟩

def evidenceItem (access : Option (UUID7 → Bool)) (r : Restored sha256) :
    Except AnswerError EvidenceItem :=
  match assembleItem r.version r.instrument.value.title (evidenceProvision r.provision)
      (access.all fun authorize => authorize r.provision.value.id) with
  | .ok item => .ok item
  | .error error => .error (.evidence error)

def evidenceItems (access : Option (UUID7 → Bool)) :
    List (Restored sha256) → Except AnswerError (List EvidenceItem)
  | [] => .ok []
  | r::rs => do
    let item ← evidenceItem access r
    let items ← evidenceItems access rs
    pure (item::items)

def assemble (access : Option (UUID7 → Bool)) (s : Corpus sha256) (hits : List LegalSearchHit) :
    Except AnswerError (Option EvidenceBundle) := do
  if hits = [] then pure none
  else
    let ordered ← restoreHits s [] hits
    let items ← evidenceItems access ordered
    match evidenceBundle items with
    | .ok bundle => pure (some bundle)
    | .error message => .error (.valueError message)

def evidenceBudgetChars : ℕ := 12000

def perItemCapChars : ℕ := 3000

def truncationMark : String := "…（条文过长已截断，引用核验以依据编号对应的权威条文为准）"

def systemHeader : String :=
  "你是中国大陆法律法规问答助手。你只能依据下方给出的条文依据回答，"++
  "逐条给出结论，每个结论都必须引用至少一个依据编号；"++
  "不得引用列表之外的依据，不得编造条文。"

def instruction : String :=
  "依据列表编号引用。回答输出 JSON："++
  "\x7b\"claims\":[\x7b\"text\":\"完整结论表述\",\"evidence_ids\":[\"依据编号(uuid)\"]\x7d]\x7d，"++
  "evidence_ids 只能取自上方列表中的依据编号。"

def promptBody (text : String) : String :=
  if perItemCapChars < text.length then
    String.ofList (text.toList.take perItemCapChars)++truncationMark
  else text

def promptLine (index : ℕ) (item : EvidenceItem) : String :=
  "["++toString index++"]（依据编号 "++String.ofList (uuidText item.value.evidenceId)++"）《"++
    item.value.instrumentTitle++"》"++item.value.versionLabel++" "++item.value.provisionNo++"："++
    promptBody item.value.provisionText

/-- The first line is kept whatever it costs. -/
def promptLines : ℕ → ℕ → List EvidenceItem → List String
  | _, _, [] => []
  | used, index, item::items =>
    let line := promptLine index item
    if evidenceBudgetChars < used+line.length ∧ 0 < used then []
    else line::promptLines (used+line.length) (index+1) items

def buildClaimsSystemPrompt (items : List EvidenceItem) : Except AnswerError String :=
  let lines := promptLines 0 1 items
  if lines = [] then .error (.valueError "no evidence item fits the prompt budget")
  else .ok (systemHeader++"\n\n"++"\n".intercalate lines++"\n\n"++instruction)

inductive ChatRole where
  | system
  | user
deriving DecidableEq

structure ChatMessage where
  role : ChatRole
  content : String
deriving DecidableEq

structure TokenUsage where
  promptTokens : ℕ := 0
  completionTokens : ℕ := 0
  totalTokens : ℕ := 0
deriving DecidableEq

structure SearchRequest where
  datasetAlias : String
  query : String
  modelRef : String
  dimension : ℤ
  versionId : Option UUID7
  limit : ℤ
  bm25Size : ℤ
  knnSize : ℤ

structure QaService (sha256 : List UInt8 → Digest) where
  search : SearchRequest → Except String (List LegalSearchHit)
  corpus : Corpus sha256
  access : Option (UUID7 → Bool)
  chat : String → List ChatMessage → Except String (String × TokenUsage)
  library : Library
  embedModelRef : String
  embedDimension : ℤ

structure AnswerCall where
  datasetAlias : String
  question : String
  targetDate : Date
  versionId : Option UUID7 := none
  limit : ℤ := 12
  bm25Size : ℤ := 80
  knnSize : ℤ := 80
  modelRef : Option String := none
  dimension : Option ℤ := none

structure LegalRetrievalAnswer where
  text : String
  refused : Bool
  reason : String
  claims : List LegalClaim := []
  citations : List EvidenceItem := []
  usage : Option TokenUsage := none

def chatModelRef : String := "deepseek-chat"

def noEvidenceText : String := "未能在当前法规数据集中找到与问题相关的有效依据，暂不作答。"

def parseFailedText : String := "模型未返回可核验的结构化结论，已安全拒答，请换一种问法重试。"

def notSupportedText : String := "模型结论引用的依据未通过核验，已拒绝发布该结论。"

def unverifiableText : String := "无法核验的回答已安全拒答。"

def refusalText (reason : String) : String :=
  if "claim_not_supported:".toList.isPrefixOf reason.toList then notSupportedText
  else
    let code := reason.toList.takeWhile (· != ':')
    if code = "no_evidence".toList then noEvidenceText
    else if code = "claim_parse_failed".toList then parseFailedText
    else unverifiableText

def refusal (reason : String) (usage : Option TokenUsage) : LegalRetrievalAnswer where
  text := refusalText reason
  refused := true
  reason := reason
  usage := usage

def effectiveModelRef (svc : QaService sha256) (call : AnswerCall) : String :=
  call.modelRef.getD svc.embedModelRef

def effectiveDimension (svc : QaService sha256) (call : AnswerCall) : ℤ :=
  call.dimension.getD svc.embedDimension

def answerChecks (svc : QaService sha256) (call : AnswerCall) : List (Bool × String) :=
  [(nonempty call.datasetAlias,"dataset alias must be non-empty text"),
   (nonempty call.question,"question must be non-empty text"),
   (1 ≤ call.limit,"limit must be a positive integer"),
   (nonempty (effectiveModelRef svc call),"model_ref must be non-empty text"),
   (0 < effectiveDimension svc call,"dimension must be a positive integer")]

def searchRequest (svc : QaService sha256) (call : AnswerCall) : SearchRequest where
  datasetAlias := call.datasetAlias
  query := call.question
  modelRef := effectiveModelRef svc call
  dimension := effectiveDimension svc call
  versionId := call.versionId
  limit := call.limit
  bm25Size := call.bm25Size
  knnSize := call.knnSize

def searchChecks (request : SearchRequest) : List (Bool × String) :=
  [(nonempty request.datasetAlias,"dataset alias must be non-empty text"),
   (nonempty request.query,"search query must be non-empty text")]

def requireAll (checks : List (Bool × String)) : Except AnswerError Unit :=
  match firstError checks with
  | none => .ok ()
  | some message => .error (.valueError message)

def searchEvidence (svc : QaService sha256) (request : SearchRequest) :
    Except AnswerError (Option EvidenceBundle) := do
  requireAll (searchChecks request)
  match svc.search request with
  | .error message => .error (.search message)
  | .ok hits => assemble svc.access svc.corpus hits

/-- The identifiers in the order in which they first occur. -/
def firstCited (seen : List UUID7) : List UUID7 → List UUID7
  | [] => []
  | id::ids => if id ∈ seen then firstCited seen ids else id::firstCited (id::seen) ids

def citedIds (claims : List LegalClaim) : List UUID7 :=
  claims.flatMap fun claim => claim.value.evidenceIds

def citedItems (bundle : EvidenceBundle) : List UUID7 → Except AnswerError (List EvidenceItem)
  | [] => .ok []
  | id::ids =>
    match bundle.find id with
    | none => .error (.valueError "evidence id is not in this bundle")
    | some item => do
      let items ← citedItems bundle ids
      pure (item::items)

def numberedText (claims : List LegalClaim) : String :=
  "\n\n".intercalate (claims.zipIdx.map fun claim =>
    toString (claim.2+1)++". "++claim.1.value.text)

def publish (bundle : EvidenceBundle) (claims : List LegalClaim) (usage : TokenUsage) :
    Except AnswerError LegalRetrievalAnswer := do
  let citations ← citedItems bundle (firstCited [] (citedIds claims))
  pure
    { text := numberedText claims
      refused := false
      reason := "allowed"
      claims := claims
      citations := citations
      usage := some usage }

def gated (bundle : EvidenceBundle) (claims : List LegalClaim) (targetDate : Date)
    (usage : TokenUsage) : Except AnswerError LegalRetrievalAnswer :=
  let result := LegalClaimGate.verify bundle claims targetDate
  if !result.allowed then .ok (refusal result.reason (some usage))
  else publish bundle claims usage

def messages (prompt question : String) : List ChatMessage :=
  [⟨.system,prompt⟩,⟨.user,question⟩]

def answer (svc : QaService sha256) (call : AnswerCall) :
    Except AnswerError LegalRetrievalAnswer := do
  requireAll (answerChecks svc call)
  match ← searchEvidence svc (searchRequest svc call) with
  | none => pure (refusal "no_evidence" none)
  | some bundle =>
    let prompt ← buildClaimsSystemPrompt bundle.items
    match svc.chat chatModelRef (messages prompt call.question) with
    | .error message => .error (.chat message)
    | .ok (text,usage) =>
      match parseClaimsText svc.library text with
      | .error (.parse _) => pure (refusal "claim_parse_failed" (some usage))
      | .error (.raised message) => .error (.valueError message)
      | .ok claims => gated bundle claims call.targetDate usage

/-- The item was restored from the provision and the version the hit names. -/
def RestoredFrom (access : Option (UUID7 → Bool)) (s : Corpus sha256) (hit : LegalSearchHit)
    (item : EvidenceItem) : Prop :=
  ∃ r : Restored sha256, versionWithInstrument s hit.versionId = some (r.version,r.instrument) ∧
    r.provision ∈ provisionsForVersion s hit.versionId ∧
    r.provision.value.id = hit.provisionId ∧ evidenceItem access r = .ok item

variable {s : Corpus sha256} {access : Option (UUID7 → Bool)} {hits : List LegalSearchHit}
  {bundle : EvidenceBundle}

theorem version_named {versionId : UUID7} {version : LegalVersion} {instrument : LegalInstrument}
    (h : versionWithInstrument s versionId = some (version,instrument)) :
    version.value.id = versionId := by
  simp only [versionWithInstrument,Option.bind_eq_bind,Option.bind_eq_some_iff] at h
  obtain ⟨v,hv,i,-,hpair⟩ := h
  cases hpair
  simpa using (selectRow_some hv).2

theorem evidenceItem_fields {r : Restored sha256} {item : EvidenceItem}
    (h : evidenceItem access r = .ok item) :
    item.value.evidenceId = r.provision.value.id ∧ item.value.versionId = r.version.value.id ∧
      item.value.provisionText = String.ofList r.provision.value.fullText ∧
      item.value.authorized = access.all (fun authorize => authorize r.provision.value.id) := by
  unfold evidenceItem at h
  split at h
  · rename_i made hmade
    cases h
    unfold assembleItem at hmade
    split_ifs at hmade
    split at hmade
    · rename_i made' hinit
      cases hmade
      rw [postInit_ok hinit]
      exact ⟨rfl,rfl,rfl,rfl⟩
    · cases hmade
  · cases h

theorem restored_names {hit : LegalSearchHit} {item : EvidenceItem}
    (h : RestoredFrom access s hit item) :
    item.value.evidenceId = hit.provisionId ∧ item.value.versionId = hit.versionId := by
  obtain ⟨r,hversion,-,hid,hitem⟩ := h
  obtain ⟨hevidence,hversionId,-,-⟩ := evidenceItem_fields hitem
  exact ⟨hevidence.trans hid,hversionId.trans (version_named hversion)⟩

theorem restoreHit_ok {hit : LegalSearchHit} {r : Restored sha256} (h : restoreHit s hit = .ok r) :
    versionWithInstrument s hit.versionId = some (r.version,r.instrument) ∧
      r.provision ∈ provisionsForVersion s hit.versionId ∧
      r.provision.value.id = hit.provisionId := by
  unfold restoreHit at h
  split at h
  · cases h
  · rename_i version instrument hversion
    split at h
    · cases h
    · rename_i provision hfind
      cases h
      exact ⟨hversion,List.mem_of_find?_eq_some hfind,by simpa using List.find?_some hfind⟩

theorem restoreHits_ok {seen : List (UUID7 × UUID7)} {rs : List (Restored sha256)}
    (h : restoreHits s seen hits = .ok rs) :
    ∀ r ∈ rs, ∃ hit ∈ hits, restoreHit s hit = .ok r := by
  induction hits generalizing seen rs with
  | nil =>
    cases h
    intro r hr
    cases hr
  | cons hit hits ih =>
    unfold restoreHits at h
    intro r hr
    split_ifs at h with hseen
    · obtain ⟨hit',hmem,hr'⟩ := ih h r hr
      exact ⟨hit',List.mem_cons_of_mem _ hmem,hr'⟩
    · obtain ⟨restored,hrestored,h⟩ := bind_ok.mp h
      obtain ⟨rest,hrest,h⟩ := bind_ok.mp h
      cases h
      rcases List.mem_cons.mp hr with rfl | hr
      · exact ⟨hit,List.mem_cons_self,hrestored⟩
      · obtain ⟨hit',hmem,hr'⟩ := ih hrest r hr
        exact ⟨hit',List.mem_cons_of_mem _ hmem,hr'⟩

theorem evidenceItems_ok {rs : List (Restored sha256)} {items : List EvidenceItem}
    (h : evidenceItems access rs = .ok items) :
    ∀ item ∈ items, ∃ r ∈ rs, evidenceItem access r = .ok item := by
  induction rs generalizing items with
  | nil =>
    cases h
    intro item hitem
    cases hitem
  | cons r rs ih =>
    obtain ⟨item,hitem,h⟩ := bind_ok.mp h
    obtain ⟨rest,hrest,h⟩ := bind_ok.mp h
    cases h
    intro other hother
    rcases List.mem_cons.mp hother with rfl | hother
    · exact ⟨r,List.mem_cons_self,hitem⟩
    · obtain ⟨r',hmem,hr'⟩ := ih hrest other hother
      exact ⟨r',List.mem_cons_of_mem _ hmem,hr'⟩

theorem assemble_ok (h : assemble access s hits = .ok (some bundle)) :
    ∀ item ∈ bundle.items, ∃ hit ∈ hits, RestoredFrom access s hit item := by
  unfold assemble at h
  split_ifs at h with hnone
  · cases h
  · obtain ⟨rs,hrs,h⟩ := bind_ok.mp h
    obtain ⟨items,hitems,h⟩ := bind_ok.mp h
    unfold evidenceBundle at h
    split_ifs at h with hfilled hdistinct
    cases h
    intro item hitem
    obtain ⟨r,hr,hitem⟩ := evidenceItems_ok hitems item hitem
    obtain ⟨hit,hmem,hrestored⟩ := restoreHits_ok hrs r hr
    obtain ⟨hversion,hprovision,hid⟩ := restoreHit_ok hrestored
    exact ⟨hit,hmem,r,hversion,hprovision,hid,hitem⟩

theorem mem_firstCited {ids : List UUID7} {seen : List UUID7} {id : UUID7} :
    id ∈ firstCited seen ids ↔ id ∈ ids ∧ id ∉ seen := by
  induction ids generalizing seen with
  | nil => simp [firstCited]
  | cons head ids ih =>
    unfold firstCited
    split_ifs with hseen
    · rw [ih]
      grind
    · rw [List.mem_cons,ih]
      grind

theorem firstCited_nodup (ids seen : List UUID7) : (firstCited seen ids).Nodup := by
  induction ids generalizing seen with
  | nil => exact List.nodup_nil
  | cons head ids ih =>
    unfold firstCited
    split_ifs with hseen
    · exact ih seen
    · refine List.nodup_cons.mpr ⟨fun hmem => ?_,ih _⟩
      exact (mem_firstCited.mp hmem).2 List.mem_cons_self

theorem firstCited_order (ids seen : List UUID7) :
    (firstCited seen ids).Pairwise fun a b => ids.idxOf a < ids.idxOf b := by
  induction ids generalizing seen with
  | nil => exact List.Pairwise.nil
  | cons head ids ih =>
    have hshift : ∀ a, a ≠ head → (head::ids).idxOf a = ids.idxOf a+1 := by
      intro a ha
      rw [List.idxOf_cons_ne _ (Ne.symm ha)]
    unfold firstCited
    split_ifs with hseen
    · refine (ih seen).imp_of_mem fun {a b} ha hb hab => ?_
      have hne : ∀ x ∈ firstCited seen ids, x ≠ head := by
        rintro x hx rfl
        exact (mem_firstCited.mp hx).2 hseen
      rw [hshift a (hne a ha),hshift b (hne b hb)]
      omega
    · have hne : ∀ x ∈ firstCited (head::seen) ids, x ≠ head := by
        rintro x hx rfl
        exact (mem_firstCited.mp hx).2 List.mem_cons_self
      refine List.Pairwise.cons ?_ ((ih (head::seen)).imp_of_mem fun {a b} ha hb hab => ?_)
      · intro b hb
        rw [hshift b (hne b hb),List.idxOf_cons_self]
        omega
      · rw [hshift a (hne a ha),hshift b (hne b hb)]
        omega

theorem citedItems_ok {ids : List UUID7} {items : List EvidenceItem}
    (h : citedItems bundle ids = .ok items) :
    evidenceIds items = ids ∧ ∀ item ∈ items, item ∈ bundle.items := by
  induction ids generalizing items with
  | nil =>
    cases h
    exact ⟨rfl,fun item hitem => nomatch hitem⟩
  | cons id ids ih =>
    unfold citedItems at h
    split at h
    · cases h
    · rename_i item hfind
      obtain ⟨rest,hrest,h⟩ := bind_ok.mp h
      cases h
      obtain ⟨hids,hmem⟩ := ih hrest
      have hid : item.value.evidenceId = id := by simpa using List.find?_some hfind
      constructor
      · rw [evidenceIds,List.map_cons,← evidenceIds,hids,hid]
      · exact List.forall_mem_cons.mpr ⟨List.mem_of_find?_eq_some hfind,hmem⟩

def refusalTexts : List String :=
  [noEvidenceText,parseFailedText,notSupportedText,unverifiableText]

def refusalReasons : List String := "no_evidence"::"claim_parse_failed"::gateReasons

/-- A refusal shows texts of the service only. -/
structure Refused (a : LegalRetrievalAnswer) : Prop where
  text : a.text ∈ refusalTexts
  reason : a.reason ∈ refusalReasons
  claims : a.claims = []
  citations : a.citations = []

/-- The item is authorized, in force, and restored from a hit of the version it is of. -/
structure Supports (svc : QaService sha256) (targetDate : Date) (hits : List LegalSearchHit)
    (item : EvidenceItem) : Prop where
  authorized : item.value.authorized = true
  inForce : ∀ c ∈ gateChecks item.value targetDate, c.1 = true
  restored : ∃ hit ∈ hits, RestoredFrom svc.access svc.corpus hit item ∧
    item.value.evidenceId = hit.provisionId ∧ item.value.versionId = hit.versionId

structure Published (svc : QaService sha256) (call : AnswerCall) (hits : List LegalSearchHit)
    (a : LegalRetrievalAnswer) : Prop where
  parsed : ∃ prompt text usage, svc.chat chatModelRef (messages prompt call.question) =
    .ok (text,usage) ∧ parseClaimsText svc.library text = .ok a.claims
  claimed : a.claims ≠ []
  supported : ∀ claim ∈ a.claims, ∀ id ∈ claim.value.evidenceIds, ∃ item ∈ a.citations,
    item.value.evidenceId = id ∧ Supports svc call.targetDate hits item
  cited : ∀ id, id ∈ evidenceIds a.citations ↔
    ∃ claim ∈ a.claims, id ∈ claim.value.evidenceIds
  once : (evidenceIds a.citations).Nodup
  order : (evidenceIds a.citations).Pairwise fun x y =>
    (citedIds a.claims).idxOf x < (citedIds a.claims).idxOf y
  text : a.text = numberedText a.claims

theorem refusalText_mem (reason : String) : refusalText reason ∈ refusalTexts := by
  unfold refusalText refusalTexts
  simp only
  split_ifs
  · simp
  · simp
  · simp
  · simp

theorem refusal_refused {reason : String} (usage : Option TokenUsage)
    (h : reason ∈ refusalReasons) : Refused (refusal reason usage) :=
  ⟨refusalText_mem reason,h,rfl,rfl⟩

theorem searchEvidence_ok {svc : QaService sha256} {request : SearchRequest}
    (h : searchEvidence svc request = .ok (some bundle)) :
    ∃ hits, svc.search request = .ok hits ∧
      ∀ item ∈ bundle.items, ∃ hit ∈ hits, RestoredFrom svc.access svc.corpus hit item := by
  obtain ⟨-,-,h⟩ := bind_ok.mp h
  split at h
  · cases h
  · rename_i hits hsearch
    exact ⟨hits,hsearch,assemble_ok h⟩

theorem gated_ok {claims : List LegalClaim} {targetDate : Date} {usage : TokenUsage}
    {a : LegalRetrievalAnswer} (h : gated bundle claims targetDate usage = .ok a) :
    (Refused a ∧ a.refused = true) ∨
    ((LegalClaimGate.verify bundle claims targetDate).allowed = true ∧ a.refused = false ∧
      a.claims = claims ∧ a.text = numberedText claims ∧
      citedItems bundle (firstCited [] (citedIds claims)) = .ok a.citations) := by
  unfold gated at h
  cases hallowed : (LegalClaimGate.verify bundle claims targetDate).allowed with
  | false =>
    simp only [hallowed,Bool.not_false,if_true] at h
    cases h
    left
    refine ⟨refusal_refused _ ?_,rfl⟩
    exact List.mem_cons_of_mem _ (List.mem_cons_of_mem _ (verify_refused hallowed))
  | true =>
    simp only [hallowed,Bool.not_true,Bool.false_eq_true,if_false] at h
    obtain ⟨citations,hcitations,h⟩ := bind_ok.mp h
    cases h
    exact Or.inr ⟨rfl,rfl,rfl,rfl,hcitations⟩

theorem mem_citedIds {claims : List LegalClaim} {id : UUID7} :
    id ∈ citedIds claims ↔ ∃ claim ∈ claims, id ∈ claim.value.evidenceIds :=
  List.mem_flatMap

theorem gated_published {svc : QaService sha256} {call : AnswerCall} {a : LegalRetrievalAnswer}
    (hbundle : ∀ item ∈ bundle.items, ∃ hit ∈ hits, RestoredFrom svc.access svc.corpus hit item)
    (hparsed : ∃ prompt text usage, svc.chat chatModelRef (messages prompt call.question) = .ok
      (text,usage) ∧ parseClaimsText svc.library text = .ok a.claims)
    (hallowed : (LegalClaimGate.verify bundle a.claims call.targetDate).allowed = true)
    (htext : a.text = numberedText a.claims)
    (hcitations : citedItems bundle (firstCited [] (citedIds a.claims)) = .ok a.citations) :
    Published svc call hits a := by
  obtain ⟨hids,hmem⟩ := citedItems_ok hcitations
  obtain ⟨hclaims,hgate⟩ := verify_allowed hallowed
  have hcited : ∀ id, id ∈ evidenceIds a.citations ↔
      ∃ claim ∈ a.claims, id ∈ claim.value.evidenceIds := by
    intro id
    rw [hids,mem_firstCited,mem_citedIds]
    simp
  refine ⟨hparsed,hclaims,?_,hcited,?_,?_,htext⟩
  · intro claim hclaim id hid
    obtain ⟨item,hitem,heq⟩ := List.mem_map.mp ((hcited id).mpr ⟨claim,hclaim,hid⟩)
    obtain ⟨found,hfound,hchecks⟩ := hgate claim hclaim id hid
    have hsame : found = item := by
      have hid' : found.value.evidenceId = item.value.evidenceId := by
        have := List.find?_some hfound
        simpa [heq] using this
      exact List.inj_on_of_nodup_map bundle.distinct (List.mem_of_find?_eq_some hfound)
        (hmem item hitem) hid'
    obtain ⟨hit,hhit,hrestored⟩ := hbundle item (hmem item hitem)
    rw [hsame] at hchecks
    have hauthorized := hchecks _ List.mem_cons_self
    exact ⟨item,hitem,heq,hauthorized,hchecks,hit,hhit,hrestored,restored_names hrestored⟩
  · rw [hids]
    exact firstCited_nodup _ _
  · rw [hids]
    exact firstCited_order _ _

/-- Every answer is a refusal in the words of the service, or publishes claims that are
supported by restored evidence. -/
theorem answer_supported (svc : QaService sha256) (call : AnswerCall) (a : LegalRetrievalAnswer)
    (h : answer svc call = .ok a) :
    (a.refused = true → Refused a) ∧
    (a.refused = false → ∃ hits, svc.search (searchRequest svc call) = .ok hits ∧
      Published svc call hits a) := by
  obtain ⟨-,-,h⟩ := bind_ok.mp h
  obtain ⟨found,hfound,h⟩ := bind_ok.mp h
  cases found with
  | none =>
    cases h
    exact ⟨fun _ => refusal_refused _ List.mem_cons_self,fun h => nomatch h⟩
  | some bundle =>
    obtain ⟨hits,hsearch,hbundle⟩ := searchEvidence_ok hfound
    obtain ⟨prompt,-,h⟩ := bind_ok.mp h
    cases hchat : svc.chat chatModelRef (messages prompt call.question) with
    | error message =>
      simp only [hchat] at h
      cases h
    | ok reply =>
      obtain ⟨text,usage⟩ := reply
      simp only [hchat] at h
      cases hparse : parseClaimsText svc.library text with
      | error failure =>
        simp only [hparse] at h
        cases failure with
        | parse message =>
          cases h
          exact ⟨fun _ => refusal_refused _ (List.mem_cons_of_mem _ List.mem_cons_self),
            fun h => nomatch h⟩
        | raised message => cases h
      | ok claims =>
        simp only [hparse] at h
        rcases gated_ok h with ⟨hrefused,hflag⟩ | ⟨hallowed,hflag,rfl,htext,hcitations⟩
        · constructor
          · intro _
            exact hrefused
          · intro hpublished
            rw [hflag] at hpublished
            cases hpublished
        · constructor
          · intro hrefused
            rw [hflag] at hrefused
            cases hrefused
          · intro _
            exact ⟨hits,hsearch,gated_published hbundle ⟨prompt,text,usage,hchat,hparse⟩ hallowed
              htext hcitations⟩

def sampleHash (_ : List UInt8) : Digest := 0

def sampleInstrument : LegalInstrumentFields where
  id := ⟨0,0,1⟩
  title := "t"
  issuingAuthority := "a"
  jurisdiction := "j"
  regionCode := none
  category := .law

def sampleVersion : LegalVersionFields where
  id := ⟨0,0,2⟩
  instrumentId := ⟨0,0,1⟩
  versionLabel := "v"
  status := .current
  publishedOn := some 0
  effectiveOn := some 1
  repealedOn := none
  sourceRef := some "s"
  datasetVersion := some "d"

def sampleProvision : ProvisionFields where
  id := ⟨0,0,3⟩
  versionId := ⟨0,0,2⟩
  provisionNo := "1"
  level := .article
  structurePath := []
  title := none
  fullText := ['x']
  contentHash := 0
  charStart := 0
  charEnd := 1

def sampleCorpus : Corpus sampleHash where
  instruments := Table.single ⟨sampleInstrument,by decide⟩ (by decide)
  versions := Table.single ⟨sampleVersion,by decide⟩ (by decide)
  provisions := Table.single ⟨sampleProvision,by decide⟩ (by decide)
  chunks := Table.empty

/-- What the model answers, and the document it stands for. -/
def sampleOutput : String :=
  "\x7b\"claims\":[\x7b\"text\":\"c\","++
  "\"evidence_ids\":[\"00000000-0000-7000-8000-000000000003\"]\x7d]\x7d"

def samplePayload : Json :=
  .object [("claims",.array [.object [("text",.string "c"),
    ("evidence_ids",.array [.string "00000000-0000-7000-8000-000000000003"])]])]

def sampleLibrary : Library where
  loads text := .ok (if text = sampleOutput.toList then some samplePayload else none)
  uuid
    | .string "00000000-0000-7000-8000-000000000003" => some (UUID7.int ⟨0,0,3⟩)
    | _ => none
  splitlines text := [text]

def sampleService : QaService sampleHash where
  search _ := .ok [⟨⟨0,0,4⟩,⟨0,0,3⟩,⟨0,0,2⟩⟩]
  corpus := sampleCorpus
  access := none
  chat _ _ := .ok (sampleOutput,{})
  library := sampleLibrary
  embedModelRef := "BAAI/bge-small-zh-v1.5"
  embedDimension := 512

def sampleCall : AnswerCall where
  datasetAlias := "dataset_v1"
  question := "q"
  targetDate := 1

def shows (outcome : Except AnswerError LegalRetrievalAnswer) (text : String) : Bool :=
  match outcome with
  | .ok a => !a.refused && a.text == text
  | .error _ => false

theorem sample_supported : ∃ a, answer sampleService sampleCall = .ok a ∧ a.text = "1. c" ∧
    ∃ hits, sampleService.search (searchRequest sampleService sampleCall) = .ok hits ∧
      Published sampleService sampleCall hits a := by
  have hshows : shows (answer sampleService sampleCall) "1. c" = true := by decide
  cases hanswer : answer sampleService sampleCall with
  | error e =>
    rw [hanswer] at hshows
    cases hshows
  | ok a =>
    rw [hanswer] at hshows
    simp only [shows,Bool.and_eq_true,Bool.not_eq_true',beq_iff_eq] at hshows
    exact ⟨a,rfl,hshows.2,(answer_supported sampleService sampleCall a hanswer).2 hshows.1⟩

end LawyerAgent.RetrievalAnswers
