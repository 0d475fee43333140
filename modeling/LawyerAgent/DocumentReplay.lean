import LawyerAgent.IdempotencyClients
import LawyerAgent.MatterDocuments

/-!
# Replayed registrations

A completed registration answers every later call of its member under the same
key. The fingerprint covers the file name, the MIME type and the payload but
not the matter, so a call on another matter with the same file is a replay.
-/

set_option autoImplicit false

namespace LawyerAgent.DocumentReplay
open Relational Common MatterDocuments
open Idempotency IdempotencyRepository IdempotencyService
open IdempotencyFingerprint
open IdempotencyClients (complete_answered)
open CanonicalJson (encode dumps hex hex_inj)
open JsonReader (sorted sortFields dumps_inj)

/-- Matters, documents, versions and completed records are kept. -/
structure Grows (s t : Workspace) : Prop where
  matters : ∀ m ∈ s.matters, m ∈ t.matters
  documents : ∀ d ∈ s.documents, d ∈ t.documents
  versions : ∀ v ∈ s.versions, v ∈ t.versions
  completed : ∀ r ∈ s.records, r.status = .completed → r ∈ t.records

instance : Std.Refl Grows := ⟨fun _ => ⟨fun _ h => h,fun _ h => h,fun _ h => h,fun _ h _ => h⟩⟩

instance : IsTrans Workspace Grows where
  trans := fun _ _ _ h k =>
    ⟨fun m hm => k.matters m (h.matters m hm),fun d hd => k.documents d (h.documents d hd),
      fun v hv => k.versions v (h.versions v hv),
      fun r hr hs => k.completed r (h.completed r hr hs) hs⟩

theorem inserted_kept {ρ κ : Type} {T : Schema ρ κ} {r : ρ} {t t' : Table T}
    (h : t'.rows = r::t.rows) : ∀ x ∈ t, x ∈ t' := by
  intro x hx
  rw [mem_rows,h]
  exact List.mem_cons_of_mem _ hx

section Calls

variable {S : DocumentService} {service : Checked idempotencyServiceChecks}
  {c : RegisterDocument} {key : String} {userId membershipId : UUID7} {s t : Workspace}
  {v : DocumentVersion}

structure Uploaded (S : DocumentService) (c : RegisterDocument) (userId membershipId : UUID7)
    (s : Workspace) (v : DocumentVersion) (t : Workspace) : Prop where
  version : v = uploadedVersion S c userId membershipId
  documents : t.documents.rows = uploadedDocument c::s.documents.rows
  versions : t.versions.rows = v::s.versions.rows
  matters : t.matters = s.matters
  records : t.records = s.records

theorem completeUpload_ok (h : completeUpload S c userId membershipId s = .ok (v,t)) :
    Uploaded S c userId membershipId s v t := by
  obtain ⟨_,s₁,h₁,hk₁⟩ := bind_ok.mp h
  obtain ⟨-,rfl⟩ := require_ok.mp h₁
  obtain ⟨_,s₂,h₂,hk₂⟩ := bind_ok.mp hk₁
  obtain ⟨-,rfl⟩ := require_ok.mp h₂
  obtain ⟨_,s₃,h₃,hk₃⟩ := bind_ok.mp hk₂
  obtain ⟨-,rfl⟩ := require_ok.mp h₃
  obtain ⟨_,s₄,h₄,hk₄⟩ := bind_ok.mp hk₃
  obtain ⟨documents,hdocuments,rfl⟩ := zoom_ok.mp h₄
  obtain ⟨_,s₅,h₅,hk₅⟩ := bind_ok.mp hk₄
  obtain ⟨versions,hversions,rfl⟩ := zoom_ok.mp h₅
  obtain ⟨rfl,rfl⟩ := pure_ok.mp hk₅
  exact ⟨rfl,insertRow_ok.mp hdocuments,insertRow_ok.mp hversions,
    rfl,rfl⟩

theorem uploaded_grows (h : Uploaded S c userId membershipId s v t) : Grows s t where
  matters _ hm := h.matters ▸ hm
  documents := inserted_kept h.documents
  versions := inserted_kept h.versions
  completed _ hr _ := h.records ▸ hr

/-- The store has a completed record that answers with the document. -/
structure Answered (t : Records) (key : IdempotencyKey) (fingerprint : Digest)
    (documentId : UUID7) (r : IdempotencyRecordModel) : Prop where
  mem : r ∈ t
  key : recordKey r = key
  completed : r.status = .completed
  fingerprint : r.requestFingerprint = fingerprint
  result : storedResult r = .ok (some (documentResult documentId))

theorem complete_answers {q : ReserveRequest} {t₁ t₂ t₃ : Records}
    {reservation : IdempotencyReservation} {documentId : UUID7} {now : Time}
    (hreserve : ReserveEffect q t₁ reservation t₂)
    (hcomplete : IdempotencyService.complete reservation (documentResult documentId) now t₂ =
      .ok ((),t₃)) :
    (∃ r, Answered t₃ (requestKey q) q.prepared.requestFingerprint documentId r) ∧
    ∀ x ∈ t₁, x.status = .completed → x ∈ t₃ := by
  obtain ⟨⟨r,hr⟩,hkept⟩ := complete_answered hreserve hcomplete
  exact ⟨⟨r,hr.mem,hr.key,hr.completed,hr.fingerprint,hr.result⟩,hkept⟩

/-- What a call with a key has done: it found a completed record of its key, or
it has stored its document and completed a record. -/
inductive OnceEffect (S : DocumentService) (c : RegisterDocument) (userId membershipId : UUID7)
    (q : ReserveRequest) (s : Workspace) : DocumentVersion → Workspace → Prop where
  | replayed (r : IdempotencyRecordModel) (v : DocumentVersion) (mem : r ∈ s.records)
      (key : recordKey r = requestKey q) : OnceEffect S c userId membershipId q s v s
  | created (t : Workspace) (r : IdempotencyRecordModel)
      (document : uploadedDocument c ∈ t.documents)
      (stored : uploadedVersion S c userId membershipId ∈ t.versions)
      (answered : Answered t.records (requestKey q) q.prepared.requestFingerprint
        c.documentId r) (grows : Grows s t) :
      OnceEffect S c userId membershipId q s (uploadedVersion S c userId membershipId) t

theorem registerOnce_effect (hfresh : ∀ r ∈ s.records, r.id ≠ c.recordId)
    (h : registerOnce S service c key userId membershipId s = .ok (v,t)) :
    ∃ p, prepare S.hmac S.sha256 S.keyHashSecret (registerRequest S c key) = .ok p ∧
      OnceEffect S c userId membershipId (reserveDocument service c membershipId p.prepared)
        s v t := by
  obtain ⟨p,s₁,h₁,hk₁⟩ := bind_ok.mp h
  obtain ⟨hprepare,rfl⟩ := ofExcept_ok.mp h₁
  obtain ⟨reservation,s₂,h₂,hk₂⟩ := bind_ok.mp hk₁
  obtain ⟨records,hreserve,rfl⟩ := within_ok.mp h₂
  have heffect := (reserve_effect hfresh hreserve).2
  refine ⟨p,hprepare,?_⟩
  cases hreplay : reservation.replay with
  | some replay =>
    rw [hreplay] at hk₂
    obtain ⟨found,s₃,h₃,hk₃⟩ := bind_ok.mp hk₂
    obtain ⟨-,rfl⟩ := read_ok.mp h₃
    obtain ⟨-,rfl⟩ := orFail_ok.mp hk₃
    cases heffect with
    | inserted t' new => cases hreplay
    | restarted r t' key fingerprint status row => cases hreplay
    | replayed r result mem key fingerprint completed => exact .replayed r v mem key
  | none =>
    rw [hreplay] at hk₂
    obtain ⟨created,s₃,h₃,hk₃⟩ := bind_ok.mp hk₂
    obtain ⟨hversion,hdocuments,hversions,hmatters,hrecords⟩ := completeUpload_ok h₃
    obtain ⟨_,s₄,h₄,hk₄⟩ := bind_ok.mp hk₃
    obtain ⟨records',hcomplete,rfl⟩ := within_ok.mp h₄
    obtain ⟨rfl,rfl⟩ := pure_ok.mp hk₄
    have hdocumentId : created.documentId = c.documentId := by rw [hversion]; rfl
    change IdempotencyService.complete reservation _ _ s₃.records = _ at hcomplete
    rw [hrecords,hdocumentId] at hcomplete
    obtain ⟨⟨r,hanswered⟩,hcompleted⟩ := complete_answers heffect hcomplete
    have hdocument : uploadedDocument c ∈ s₃.documents := by
      rw [mem_rows,hdocuments]
      exact List.mem_cons_self
    have hstored : created ∈ s₃.versions := by
      rw [mem_rows,hversions]
      exact List.mem_cons_self
    subst hversion
    exact .created _ r hdocument hstored hanswered
      ⟨fun m hm => hmatters ▸ hm,inserted_kept hdocuments,inserted_kept hversions,hcompleted⟩

theorem onceEffect_grows {q : ReserveRequest}
    (h : OnceEffect S c userId membershipId q s v t) : Grows s t := by
  cases h with
  | replayed r v mem key => exact refl s
  | created t r document stored answered grows => exact grows

/-- The checks that a call of a member passes before its key is read. -/
structure Admitted (d : RegisterDocument) (s : Workspace) : Prop where
  payload : d.payload ≠ []
  actor : d.membershipUserId.isSome = true
  matter : (getMatter d.tenantId d.matterId s).isSome = true

theorem registerDocument_ok (h : registerDocument S c s = .ok (v,t)) :
    ∃ userId membershipId, Admitted c s ∧ c.membershipId = some membershipId ∧
      ((∃ service key, S.idempotency = some service ∧ c.idempotencyKey = some key ∧ key ≠ "" ∧
          registerOnce S service c key userId membershipId s = .ok (v,t)) ∨
        (∀ service key, S.idempotency = some service → c.idempotencyKey = some key → key = "") ∧
          completeUpload S c userId membershipId s = .ok (v,t)) := by
  obtain ⟨_,s₁,h₁,hk₁⟩ := bind_ok.mp h
  obtain ⟨hpayload,rfl⟩ := require_ok.mp h₁
  obtain ⟨userId,s₂,h₂,hk₂⟩ := bind_ok.mp hk₁
  obtain ⟨huser,rfl⟩ := orFail_ok.mp h₂
  obtain ⟨membershipId,s₃,h₃,hk₃⟩ := bind_ok.mp hk₂
  obtain ⟨hmember,rfl⟩ := orFail_ok.mp h₃
  obtain ⟨matter,s₄,h₄,hk₄⟩ := bind_ok.mp hk₃
  obtain ⟨hmatter,rfl⟩ := read_ok.mp h₄
  obtain ⟨_,s₅,h₅,hk₅⟩ := bind_ok.mp hk₄
  obtain ⟨hsome,rfl⟩ := require_ok.mp h₅
  have hadmitted : Admitted c s := ⟨hpayload,by rw [huser]; rfl,by rw [hmatter]; exact hsome⟩
  refine ⟨userId,membershipId,hadmitted,hmember,?_⟩
  cases hservice : S.idempotency with
  | none =>
    simp only [hservice] at hk₅
    exact .inr ⟨(fun _ _ hnone => nomatch hnone),hk₅⟩
  | some service =>
    cases hkey : c.idempotencyKey with
    | none =>
      simp only [hservice,hkey] at hk₅
      exact .inr ⟨(fun _ _ _ hnone => nomatch hnone),hk₅⟩
    | some key =>
      simp only [hservice,hkey] at hk₅
      by_cases hempty : key = ""
      · rw [if_pos hempty] at hk₅
        exact .inr ⟨fun _ _ _ hsome => Option.some.inj hsome ▸ hempty,hk₅⟩
      · rw [if_neg hempty] at hk₅
        exact .inl ⟨service,key,rfl,rfl,hempty,hk₅⟩

theorem registerDocument_grows (hfresh : ∀ r ∈ s.records, r.id ≠ c.recordId)
    (h : registerDocument S c s = .ok (v,t)) : Grows s t := by
  obtain ⟨userId,membershipId,-,-,⟨service,key,-,-,-,honce⟩ | ⟨-,hupload⟩⟩ := registerDocument_ok h
  · obtain ⟨p,-,heffect⟩ := registerOnce_effect hfresh honce
    exact onceEffect_grows heffect
  · exact uploaded_grows (completeUpload_ok hupload)

end Calls

inductive WorkspaceOp where
  | createMatter (matter : TenantMatter)
  | register (call : RegisterDocument)

/-- An identifier is never drawn twice. -/
def workspaceStep (S : DocumentService) : WorkspaceOp → Workspace → Workspace
  | .createMatter matter, s => commit (zoom mattersOf (insertRow .integrityError matter) :
      WorkspaceTx Unit) s
  | .register call, s =>
    if s.records.rows.any fun r => r.id == call.recordId then s
    else commit (registerDocument S call) s

theorem step_grows (S : DocumentService) (op : WorkspaceOp) (s : Workspace) :
    Grows s (workspaceStep S op s) := by
  cases op with
  | createMatter matter =>
    refine commit_of (refl s) fun _ t h => ?_
    obtain ⟨matters,hmatters,rfl⟩ := zoom_ok.mp h
    exact ⟨inserted_kept (insertRow_ok.mp hmatters),fun _ h => h,fun _ h => h,
      fun _ h _ => h⟩
  | register call =>
    simp only [workspaceStep]
    split
    · exact refl s
    · rename_i hfresh
      have hids : ∀ r ∈ s.records, r.id ≠ call.recordId := by
        simpa [mem_rows] using hfresh
      exact commit_of (refl s) fun v t h => registerDocument_grows hids h

theorem run_grows (S : DocumentService) (ops : List WorkspaceOp) (s : Workspace) :
    Grows s (run (workspaceStep S) ops s) :=
  run_related (step_grows S) ops s

/-- No document and no version is ever lost or edited. -/
theorem documents_stay (S : DocumentService) (ops later : List WorkspaceOp) (s : Workspace) :
    Grows (run (workspaceStep S) ops s) (run (workspaceStep S) (ops++later) s) := by
  rw [run_append]
  exact run_grows S later _

section Fingerprints

variable {S : DocumentService} {c d : RegisterDocument} {key : String}

def registerFields (fileName mimeType payloadSha256 : String) : JsonObject :=
  [("file_name",.string fileName),("mime_type",.string mimeType),
    ("payload_sha256",.string payloadSha256)]

def registerRoute : List Char :=
  "/api/v1/tenants/\x7btenant_id\x7d/matters/\x7bmatter_id\x7d/documents".toList

theorem register_input (S : DocumentService) (c : RegisterDocument) (key : String) :
    Input (registerRequest S c key) "POST".toList registerRoute
      (registerFields c.fileName c.mimeType (hex (S.sha256 c.payload))) where
  method_ok := by
    change canonicalMethod "POST" = _
    decide
  route_ok := by
    change canonicalRoute
      "/api/v1/tenants/\x7btenant_id\x7d/matters/\x7bmatter_id\x7d/documents" = _
    decide +kernel
  values_ok := by rfl
  finite_ok := by rfl

theorem registerFields_sorted (fileName mimeType payloadSha256 : String) :
    sorted (.object (registerFields fileName mimeType payloadSha256)) =
      .object (registerFields fileName mimeType payloadSha256) := by
  have hkeys : ((registerFields fileName mimeType payloadSha256).map Prod.fst).Pairwise
      (· ≤ ·) := by
    change ["file_name","mime_type","payload_sha256"].Pairwise (· ≤ ·)
    decide
  have hpair := List.pairwise_map.mp hkeys
  have hsort : sortFields (registerFields fileName mimeType payloadSha256) =
      registerFields fileName mimeType payloadSha256 := hpair.insertionSort_eq
  exact congrArg Json.object hsort

def registerFingerprint (S : DocumentService) (c : RegisterDocument) : Digest :=
  S.sha256 (fingerprintInput "POST".toList registerRoute
    (encode (dumps (.object
      (registerFields c.fileName c.mimeType (hex (S.sha256 c.payload)))))))

def keyHash (S : DocumentService) (key : String) : Digest :=
  S.hmac S.keyHashSecret (encode "idempotency-key:v1:".toList++encode key.toList)

theorem prepare_register (hkey : keyOk key = true) :
    ∃ p, prepare S.hmac S.sha256 S.keyHashSecret (registerRequest S c key) = .ok p ∧
      p.prepared = ⟨keyHash S key,registerFingerprint S c⟩ :=
  ⟨_,prepare_of (requestInput_of hkey (register_input S c key)),rfl⟩

theorem prepare_key {q : IdempotencyRequest} {p : PreparedRequest}
    (h : prepare S.hmac S.sha256 S.keyHashSecret q = .ok p) : keyOk q.key = true := by
  obtain ⟨x,hx,-⟩ := prepare_ok h
  by_contra hkey
  rw [requestInput,if_neg hkey] at hx
  cases hx

/-- The hash tells the payloads of two calls apart, and their requests. -/
structure CollisionFree (S : DocumentService) (c d : RegisterDocument) (key : String) :
    Prop where
  payloads : S.sha256 c.payload = S.sha256 d.payload → c.payload = d.payload
  requests : Separates S.sha256 (registerRequest S c key) (registerRequest S d key)

/-- The file of a call, which is all that its fingerprint covers. -/
def sameFile (c d : RegisterDocument) : Prop :=
  c.fileName = d.fileName ∧ c.mimeType = d.mimeType ∧ c.payload = d.payload

theorem fingerprint_same (h : sameFile c d) :
    registerFingerprint S c = registerFingerprint S d := by
  simp only [registerFingerprint,h.1,h.2.1,h.2.2]

theorem fingerprint_differs (hkey : keyOk key = true) (hfree : CollisionFree S c d key)
    (h : registerFingerprint S c = registerFingerprint S d) : sameFile c d := by
  have hinput := hfree.requests _ _ (requestInput_of hkey (register_input S c key))
    (requestInput_of hkey (register_input S d key)) h
  have hplain := method_plain (register_input S c key).method_ok
  have hroute := route_plain (register_input S c key).route_ok
  have hdumps := (fingerprintInput_inj hplain hplain hroute hroute hinput).2.2
  have hsorted := dumps_inj (register_input S c key).finite_ok
    (register_input S d key).finite_ok hdumps
  rw [registerFields_sorted,registerFields_sorted] at hsorted
  simp only [registerFields,Json.object.injEq,List.cons.injEq,Prod.mk.injEq,true_and,
    Json.string.injEq,and_true] at hsorted
  exact ⟨hsorted.1,hsorted.2.1,hfree.payloads (hex_inj hsorted.2.2)⟩

end Fingerprints

section Second

variable {S : DocumentService} {service : Checked idempotencyServiceChecks}
  {c d : RegisterDocument} {key : String} {member : UUID7} {s : Workspace}

theorem register_refused (h : ¬Admitted d s) :
    ∃ e, registerDocument S d s = .error e := by
  cases hcall : registerDocument S d s with
  | error e => exact ⟨e,rfl⟩
  | ok p =>
    obtain ⟨_,_,hadmitted,-⟩ := registerDocument_ok hcall
    exact absurd hadmitted h

def memberKey (S : DocumentService) (tenantId member : UUID7) (key : String) :
    IdempotencyKey :=
  ⟨(memberScope tenantId member).value,"document.register",keyHash S key⟩

theorem register_operation : operationOk "document.register" = true := by decide

theorem register_answered (hservice : S.idempotency = some service)
    (hkey : d.idempotencyKey = some key) (hne : key ≠ "") (hok : keyOk key = true)
    (hmember : d.membershipId = some member) (hadmitted : Admitted d s)
    {fingerprint : Digest} {documentId : UUID7} {r : IdempotencyRecordModel}
    (hr : Answered s.records (memberKey S d.tenantId member key) fingerprint documentId r)
    (hfresh : ∀ x ∈ s.records, x.id ≠ d.recordId) :
    registerDocument S d s =
      if fingerprint = registerFingerprint S d then
        match findVersion d.tenantId documentId s with
        | none => .error .conflict
        | some w => .ok (w,s)
      else .error (.idempotency .conflict) := by
  obtain ⟨user,huser⟩ := Option.isSome_iff_exists.mp hadmitted.actor
  obtain ⟨p,hprepare,hprepared⟩ := prepare_register (S := S) (c := d) hok
  have hreserve := reserve_completed (q := reserveDocument service d member p.prepared)
    register_operation hr.mem (by rw [hr.key,hprepared]; rfl) (hfresh r hr.mem) hr.completed
    hr.result
  have hdigest : (reserveDocument service d member p.prepared).prepared.requestFingerprint =
      registerFingerprint S d := congrArg PreparedIdempotencyRequest.requestFingerprint hprepared
  rw [hr.fingerprint,hdigest] at hreserve
  have hstart : registerDocument S d s = registerOnce S service d key user member s := by
    rw [registerDocument,bind_run ((require_ok (u := ())).mpr ⟨hadmitted.payload,rfl⟩),
      bind_run (orFail_ok.mpr ⟨huser,rfl⟩),
      bind_run (orFail_ok.mpr ⟨hmember,rfl⟩),
      bind_run (read_ok.mpr ⟨rfl,rfl⟩),
      bind_run ((require_ok (u := ())).mpr ⟨hadmitted.matter,rfl⟩)]
    simp only [hservice,hkey,if_neg hne]
  rw [hstart,registerOnce,bind_run (ofExcept_ok.mpr ⟨hprepare,rfl⟩)]
  by_cases hsame : fingerprint = registerFingerprint S d
  · rw [if_pos hsame] at hreserve ⊢
    rw [bind_run (within_ok.mpr ⟨s.records,hreserve,rfl⟩)]
    have hfind : (Relational.read (findVersion d.tenantId documentId) :
        WorkspaceTx (Option DocumentVersion)) s = .ok (findVersion d.tenantId documentId s,s) :=
      read_ok.mpr ⟨rfl,rfl⟩
    refine (bind_run hfind).trans ?_
    cases findVersion d.tenantId documentId s <;> rfl
  · rw [if_neg hsame] at hreserve ⊢
    exact bind_stop (within_stop (e := IdempotencyFailure.conflict) hreserve)

theorem findVersion_some {tenantId documentId : UUID7} {x : DocumentVersion}
    (hx : x ∈ s.versions) (htenant : x.tenantId = tenantId) (hid : x.documentId = documentId) :
    ∃ w, findVersion tenantId documentId s = some w := by
  have hmem : x ∈ (selectRows (fun v => v.tenantId == tenantId && v.documentId == documentId)
      s.versions).insertionSort fun v w => w.versionNo ≤ v.versionNo := by
    rw [List.mem_insertionSort]
    exact mem_selectRows.mpr ⟨hx,by simp [htenant,hid]⟩
  obtain ⟨w,rest,hlist⟩ := List.exists_cons_of_ne_nil (List.ne_nil_of_mem hmem)
  exact ⟨w,by rw [findVersion,hlist]; rfl⟩

theorem findVersion_document {tenantId documentId : UUID7} {w : DocumentVersion}
    (h : findVersion tenantId documentId s = some w) : w.documentId = documentId := by
  have hmem := List.mem_of_head? h
  rw [List.mem_insertionSort] at hmem
  have hw := (mem_selectRows.mp hmem).2
  simp only [Bool.and_eq_true,beq_iff_eq] at hw
  exact hw.2

theorem register_first (hservice : S.idempotency = some service)
    (hkey : c.idempotencyKey = some key) (hne : key ≠ "")
    (hmember : c.membershipId = some member) {t : Workspace} {v : DocumentVersion}
    (h : registerDocument S c s = .ok (v,t)) (hfresh : ∀ r ∈ s.records, r.id ≠ c.recordId)
    (hunused : ∀ r ∈ s.records, recordKey r ≠ memberKey S c.tenantId member key) :
    keyOk key = true ∧ v.documentId = c.documentId ∧ uploadedDocument c ∈ t.documents ∧
    (∃ x ∈ t.versions, x.tenantId = c.tenantId ∧ x.documentId = c.documentId) ∧
    ∃ r, Answered t.records (memberKey S c.tenantId member key) (registerFingerprint S c)
      c.documentId r := by
  obtain ⟨userId,m,-,hm,⟨_,_,hservice',hkey',-,honce⟩ | ⟨hnone,-⟩⟩ := registerDocument_ok h
  swap
  · exact absurd (hnone _ _ hservice hkey) hne
  obtain rfl := Option.some.inj (hm.symm.trans hmember)
  obtain rfl := Option.some.inj (hservice.symm.trans hservice')
  obtain rfl := Option.some.inj (hkey.symm.trans hkey')
  obtain ⟨p,hprepare,heffect⟩ := registerOnce_effect hfresh honce
  have hok : keyOk (registerRequest S c key).key = true :=
    (prepare_key hprepare :)
  obtain ⟨p',hprepare',hprepared⟩ := prepare_register (S := S) (c := c) hok
  obtain rfl := Except.ok.inj (hprepare.symm.trans hprepare')
  have hrequest : requestKey (reserveDocument service c m p.prepared) =
      memberKey S c.tenantId m key := by
    rw [hprepared]
    rfl
  cases heffect with
  | replayed r v mem key => exact absurd (key.trans hrequest) (hunused r mem)
  | created t r document stored answered grows =>
    rw [hrequest] at answered
    have hdigest : (reserveDocument service c m p.prepared).prepared.requestFingerprint =
        registerFingerprint S c :=
      congrArg PreparedIdempotencyRequest.requestFingerprint hprepared
    rw [hdigest] at answered
    exact ⟨hok,rfl,document,⟨_,stored,rfl,rfl⟩,r,answered⟩

end Second

structure SameRequest (c d : RegisterDocument) : Prop where
  matter : c.matterId = d.matterId
  file : sameFile c d

/-- The second call returns the document of the first for the same request only,
it is refused for any other one, and what it returns belongs to its matter. -/
structure Isolated (S : DocumentService) (c d : RegisterDocument) (v : DocumentVersion)
    (s : Workspace) : Prop where
  returned : ∀ w t, registerDocument S d s = .ok (w,t) → w.documentId = v.documentId →
    SameRequest c d
  refused : ¬SameRequest c d → ∃ e, registerDocument S d s = .error e ∧
    (Admitted d s → e = .idempotency .conflict) ∧ commit (registerDocument S d) s = s
  own : ∀ w t, registerDocument S d s = .ok (w,t) → ∀ x ∈ t.documents,
    x.id = w.documentId → x.matterId = d.matterId

/-- The second call fails its own checks, names the matter of the first or
another file. -/
def KeptApart (c d : RegisterDocument) (s : Workspace) : Prop :=
  ¬Admitted d s ∨ c.matterId = d.matterId ∨ ¬sameFile c d

theorem commit_error {ε σ α : Type} {x : Tx ε σ α} {s : σ} {e : ε} (h : x s = .error e) :
    commit x s = s := by
  rw [commit,h]

theorem registrations_isolated (S : DocumentService)
    (service : Checked idempotencyServiceChecks) (hservice : S.idempotency = some service)
    (c d : RegisterDocument) (member : UUID7) (key : String) (hne : key ≠ "")
    (hc : c.idempotencyKey = some key) (hd : d.idempotencyKey = some key)
    (hcm : c.membershipId = some member) (hdm : d.membershipId = some member)
    (htenant : c.tenantId = d.tenantId) (hfree : CollisionFree S c d key)
    (s t : Workspace) (v : DocumentVersion) (hfirst : registerDocument S c s = .ok (v,t))
    (hfreshC : ∀ r ∈ s.records, r.id ≠ c.recordId)
    (hunused : ∀ r ∈ s.records, recordKey r ≠ memberKey S c.tenantId member key)
    (ops : List WorkspaceOp)
    (hfreshD : ∀ r ∈ (run (workspaceStep S) ops t).records, r.id ≠ d.recordId) :
    Isolated S c d v (run (workspaceStep S) ops t) ↔
      KeptApart c d (run (workspaceStep S) ops t) := by
  obtain ⟨hok,hv,hdocument,⟨x,hx,hxt,hxd⟩,r,hr⟩ :=
    register_first hservice hc hne hcm hfirst hfreshC hunused
  have hgrows := run_grows S ops t
  generalize run (workspaceStep S) ops t = u at hgrows hfreshD
  have hanswered : Answered u.records (memberKey S d.tenantId member key)
      (registerFingerprint S c) c.documentId r := by
    rw [← htenant]
    exact ⟨hgrows.completed r hr.mem hr.completed,hr.key,hr.completed,hr.fingerprint,hr.result⟩
  have hcall : Admitted d u → _ := fun hadmitted =>
    register_answered hservice hd hne hok hdm hadmitted hanswered hfreshD
  obtain ⟨found,hfound⟩ := findVersion_some (hgrows.versions x hx) (hxt.trans htenant) hxd
  constructor
  · intro h
    by_contra hapart
    simp only [KeptApart,not_or,not_not] at hapart
    obtain ⟨hadmitted,hmatter,hfile⟩ := hapart
    have hreplay := hcall hadmitted
    rw [if_pos (fingerprint_same hfile),hfound] at hreplay
    have hsame := (findVersion_document hfound).trans hv.symm
    exact hmatter (h.returned found u hreplay hsame).matter
  · intro hapart
    by_cases hadmitted : Admitted d u
    · have hsecond := hcall hadmitted
      by_cases hfile : sameFile c d
      · have hmatter : c.matterId = d.matterId := by
          rcases hapart with h | h | h
          · exact absurd hadmitted h
          · exact h
          · exact absurd hfile h
        rw [if_pos (fingerprint_same hfile),hfound] at hsecond
        refine ⟨fun _ _ _ _ => ⟨hmatter,hfile⟩,fun h => absurd ⟨hmatter,hfile⟩ h,?_⟩
        intro w t' h y hy hid
        rw [hsecond] at h
        cases h
        have hdoc := hgrows.documents _ hdocument
        have heq : y = uploadedDocument c :=
          eq_of_key hy hdoc (hid.trans (findVersion_document hfound))
        rw [heq]
        exact hmatter
      · have hdiffer : registerFingerprint S c ≠ registerFingerprint S d := fun h =>
          hfile (fingerprint_differs hok hfree h)
        rw [if_neg hdiffer] at hsecond
        refine ⟨?_,fun _ => ⟨_,hsecond,fun _ => rfl,commit_error hsecond⟩,?_⟩
        · intro w t' h
          rw [hsecond] at h
          cases h
        · intro w t' h
          rw [hsecond] at h
          cases h
    · obtain ⟨e,herror⟩ := register_refused hadmitted
      refine ⟨?_,fun _ => ⟨e,herror,fun h => absurd h hadmitted,commit_error herror⟩,?_⟩
      · intro w t' h
        rw [herror] at h
        cases h
      · intro w t' h
        rw [herror] at h
        cases h

def sampleIdempotency : Checked idempotencyServiceChecks := ⟨{},IdempotencyService.defaults_ok⟩

def sampleService : DocumentService where
  hmac _ bytes := lengthHash bytes
  sha256 := lengthHash
  keyHashSecret := []
  idempotency := some sampleIdempotency

def matterA : TenantMatter := ⟨⟨0,0,1⟩,⟨0,0,9⟩⟩

def matterB : TenantMatter := ⟨⟨0,0,2⟩,⟨0,0,9⟩⟩

def sampleWorkspace : Workspace :=
  run (workspaceStep sampleService) [.createMatter matterA,.createMatter matterB] .empty

/-- The engagement letter is registered under one key; `draw` tells the
identifiers of the call. -/
def sampleCall (matter : TenantMatter) (draw : BitVec 62) : RegisterDocument where
  tenantId := matter.tenantId
  membershipUserId := some ⟨0,0,7⟩
  membershipId := some ⟨0,0,8⟩
  matterId := matter.id
  fileName := "letter.docx"
  mimeType := "application/pdf"
  payload := [1,2,3]
  idempotencyKey := some "0123456789abcdef"
  now := 0
  currentTimestamp := 0
  uploadedAt := 0
  versionId := ⟨0,1,draw⟩
  documentId := ⟨0,2,draw⟩
  recordId := ⟨0,3,draw⟩

theorem sample_idempotency : sampleService.idempotency = some sampleIdempotency := rfl

theorem sampleCall_key (matter : TenantMatter) (draw : BitVec 62) :
    (sampleCall matter draw).idempotencyKey = some "0123456789abcdef" := rfl

theorem sampleCall_member (matter : TenantMatter) (draw : BitVec 62) :
    (sampleCall matter draw).membershipId = some ⟨0,0,8⟩ := rfl

theorem sampleWorkspace_records : sampleWorkspace.records.rows = [] := by rfl

theorem sampleWorkspace_fresh (c : RegisterDocument) :
    ∀ r ∈ sampleWorkspace.records, r.id ≠ c.recordId := by
  intro r hr
  rw [mem_rows,sampleWorkspace_records] at hr
  cases hr

theorem sampleWorkspace_unused (key : IdempotencyKey) :
    ∀ r ∈ sampleWorkspace.records, recordKey r ≠ key := by
  intro r hr
  rw [mem_rows,sampleWorkspace_records] at hr
  cases hr

theorem sample_first : ∃ v t,
    registerDocument sampleService (sampleCall matterA 1) sampleWorkspace = .ok (v,t) ∧
    t.records.rows.map IdempotencyRecordModel.id = [⟨0,3,1⟩] := by
  have hids : (outcome (registerDocument sampleService (sampleCall matterA 1) >>= fun _ =>
      Relational.read fun t => t.records.rows.map IdempotencyRecordModel.id)
        sampleWorkspace) = .ok [⟨0,3,1⟩] := by
    decide +kernel
  obtain ⟨v,t,hcall,hread⟩ := bind_ok.mp (outcome_ok hids)
  exact ⟨v,t,hcall,(read_ok.mp hread).1⟩

theorem sample_fresh {t : Workspace} (c : RegisterDocument) (h : c.recordId ≠ ⟨0,3,1⟩)
    (hids : t.records.rows.map IdempotencyRecordModel.id = [⟨0,3,1⟩]) :
    ∀ r ∈ t.records, r.id ≠ c.recordId := by
  intro r hr hid
  have hmem := List.mem_map_of_mem (f := IdempotencyRecordModel.id) hr
  rw [hids,List.mem_singleton,hid] at hmem
  exact h hmem

theorem retry_isolated : ∃ v t,
    registerDocument sampleService (sampleCall matterA 1) sampleWorkspace = .ok (v,t) ∧
    Isolated sampleService (sampleCall matterA 1) (sampleCall matterA 2) v t := by
  obtain ⟨v,t,hcall,hids⟩ := sample_first
  refine ⟨v,t,hcall,(registrations_isolated sampleService sampleIdempotency rfl
    (sampleCall matterA 1) (sampleCall matterA 2) ⟨0,0,8⟩ "0123456789abcdef" (by decide) rfl
    rfl rfl rfl rfl ⟨fun _ => rfl,fun x y hx hy _ => ?_⟩ sampleWorkspace t v hcall
    (sampleWorkspace_fresh _) (sampleWorkspace_unused _) []
    (sample_fresh _ (by decide) hids)).mpr (Or.inr (Or.inl rfl))⟩
  obtain rfl := Except.ok.inj (hx.symm.trans hy)
  rfl

/-- The same file on another matter: the call returns the first matter's document. -/
theorem other_matter_replayed : ∃ v t w,
    registerDocument sampleService (sampleCall matterA 1) sampleWorkspace = .ok (v,t) ∧
    registerDocument sampleService (sampleCall matterB 2) t = .ok (w,t) ∧
    w.documentId = v.documentId ∧ matterA.id ≠ matterB.id ∧
    (∃ x ∈ t.documents, x.id = w.documentId ∧ x.matterId = matterA.id) ∧
    ¬Isolated sampleService (sampleCall matterA 1) (sampleCall matterB 2) v t := by
  obtain ⟨v,t,hcall,hids⟩ := sample_first
  obtain ⟨hok,hv,hdocument,⟨x,hx,hxt,hxd⟩,r,hr⟩ := register_first sample_idempotency
    (sampleCall_key matterA 1) (by decide) (sampleCall_member matterA 1) hcall
    (sampleWorkspace_fresh _) (sampleWorkspace_unused _)
  have hgrows := registerDocument_grows (sampleWorkspace_fresh _) hcall
  have hmatter : (getMatter matterB.tenantId matterB.id t).isSome = true := by
    have hmem := hgrows.matters matterB (by
      have hrows : sampleWorkspace.matters.rows = [matterB,matterA] := by rfl
      rw [mem_rows,hrows]
      exact List.mem_cons_self)
    rw [getMatter,selectRow,List.find?_isSome]
    exact ⟨matterB,hmem,by decide⟩
  obtain ⟨w,hw⟩ := findVersion_some hx hxt hxd
  have hsecond := register_answered sample_idempotency (sampleCall_key matterB 2) (by decide)
    hok (sampleCall_member matterB 2) ⟨by decide,rfl,hmatter⟩ hr
    (sample_fresh _ (by decide) hids)
  have hfile : sameFile (sampleCall matterA 1) (sampleCall matterB 2) := ⟨rfl,rfl,rfl⟩
  rw [if_pos (fingerprint_same hfile)] at hsecond
  have hreplay : registerDocument sampleService (sampleCall matterB 2) t = .ok (w,t) := by
    rw [hsecond]
    change (match findVersion (sampleCall matterA 1).tenantId _ t with
      | none => _
      | some w => _) = _
    rw [hw]
  have hwid := findVersion_document hw
  refine ⟨v,t,w,hcall,hreplay,hwid.trans hv.symm,by decide,⟨_,hdocument,hwid.symm,rfl⟩,?_⟩
  intro h
  have hsame := (h.returned w t hreplay (hwid.trans hv.symm)).matter
  exact absurd hsame (by decide)

end LawyerAgent.DocumentReplay
