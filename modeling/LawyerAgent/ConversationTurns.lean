import LawyerAgent.Conversations
import LawyerAgent.Relational.RowSessions

/-!
# The turns behind the messages

The messages of a conversation are those of a list of turns, a question and an
answer each, and only the last turn can be open. Each call closes the open turn,
writes its answer or opens the next one. A snapshot has earlier turns, and no
turn that it has as completed has changed since.
-/

set_option autoImplicit false

namespace LawyerAgent.Conversations
open Relational Common

structure Turn where
  requestId : RequestId
  userId : UUID7
  assistantId : UUID7
  question : String
  answer : String
  status : MessageStatus

def userRow (x : Turn × ℕ) : ConversationMessage :=
  ⟨x.1.userId,x.1.requestId,2*x.2,.user,x.1.question,.completed⟩

def assistantRow (x : Turn × ℕ) : ConversationMessage :=
  ⟨x.1.assistantId,x.1.requestId,2*x.2+1,.assistant,x.1.answer,x.1.status⟩

def rowsOf (x : Turn × ℕ) : List ConversationMessage := [userRow x,assistantRow x]

def messagesFrom (xs : List (Turn × ℕ)) : List ConversationMessage := xs.flatMap rowsOf

/-- The messages of the turns, numbered from zero. -/
def threadOf (ts : List Turn) : List ConversationMessage := messagesFrom ts.zipIdx

variable {xs : List (Turn × ℕ)} {rows : List ConversationMessage} {k : ℕ}
  {f : ConversationMessage → ConversationMessage} {now : Time} {lease : TurnLease} {q : StartCall}
  {prepared : PreparedTurn}

variable {m : ConversationMessage} {ts us : List Turn} {c c' : Conversation}
  {hash : String → Digest}

theorem mem_messagesFrom :
    m ∈ messagesFrom xs ↔ ∃ x ∈ xs, m = userRow x ∨ m = assistantRow x := by
  simp [messagesFrom,rowsOf]

theorem mem_threadOf :
    m ∈ threadOf ts ↔ ∃ (k : ℕ) (t : Turn), ts[k]? = some t ∧
      (m = userRow (t,k) ∨ m = assistantRow (t,k)) := by
  rw [threadOf,mem_messagesFrom]
  constructor
  · rintro ⟨⟨t,k⟩,hx,hm⟩
    exact ⟨k,t,List.mk_mem_zipIdx_iff_getElem?.mp hx,hm⟩
  · rintro ⟨k,t,ht,hm⟩
    exact ⟨(t,k),List.mk_mem_zipIdx_iff_getElem?.mpr ht,hm⟩

theorem threadOf_snoc (ts : List Turn) (t : Turn) :
    threadOf (ts++[t]) = threadOf ts++rowsOf (t,ts.length) := by
  unfold threadOf messagesFrom
  rw [List.zipIdx_append,List.flatMap_append]
  simp

/-- A table, or a snapshot of one, has the messages of the turns. -/
structure View (rows : List ConversationMessage) (ts : List Turn) : Prop where
  perm : rows.Perm (threadOf ts)
  ids : (rows.map ConversationMessage.id).Nodup
  distinct : (ts.map Turn.requestId).Nodup

theorem view_mem (h : View rows ts) :
    m ∈ rows ↔ m ∈ threadOf ts :=
  h.perm.mem_iff

theorem view_index (h : View rows ts) {j k : ℕ} {t u : Turn} (ht : ts[j]? = some t)
    (hu : ts[k]? = some u) (hrequest : t.requestId = u.requestId) : j = k := by
  have hj : (ts.map Turn.requestId)[j]? = some t.requestId := by
    rw [List.getElem?_map,ht]
    rfl
  have hk : (ts.map Turn.requestId)[k]? = some t.requestId := by
    rw [List.getElem?_map,hu,hrequest]
    rfl
  obtain ⟨hlt,-⟩ := List.getElem?_eq_some_iff.mp hj
  exact (List.getElem?_inj hlt h.distinct).mp (hj.trans hk.symm)

theorem split_at {α : Type} {l : List α} {x : α} (h : l[k]? = some x) :
    ∃ a b, l = a++x::b ∧ a.length = k := by
  obtain ⟨hlt,rfl⟩ := List.getElem?_eq_some_iff.mp h
  refine ⟨l.take k,l.drop (k+1),?_,?_⟩
  · rw [← List.drop_eq_getElem_cons hlt,List.take_append_drop]
  · rw [List.length_take]
    omega

theorem updated_other {id : UUID7} (h : ∀ m ∈ rows, m.id ≠ id) : updated id f rows = rows := by
  unfold updated
  rw [List.map_congr_left (g := fun m => m)]
  · exact List.map_id' rows
  · intro m hm
    rw [if_neg]
    simpa using h m hm

theorem view_update (h : View rows ts) {t t' : Turn} (ht : ts[k]? = some t)
    (hf : f (assistantRow (t,k)) = assistantRow (t',k)) (hid : ∀ m, (f m).id = m.id)
    (huser : userRow (t',k) = userRow (t,k)) :
    View (updated t.assistantId f rows) (ts.set k t') := by
  obtain ⟨a,b,rfl,rfl⟩ := split_at ht
  have hthread : ∀ u : Turn, threadOf (a++u::b) = threadOf a++(userRow (u,a.length)::
      assistantRow (u,a.length)::messagesFrom (b.zipIdx (a.length+1))) := by
    intro u
    unfold threadOf messagesFrom
    rw [List.zipIdx_append,List.flatMap_append,List.zipIdx_cons,List.flatMap_cons]
    simp [rowsOf]
  have hset : (a++t::b).set a.length t' = a++t'::b := by simp
  have hnodup : ((threadOf (a++t::b)).map ConversationMessage.id).Nodup :=
    (h.perm.map _).nodup_iff.mp h.ids
  rw [hset]
  refine ⟨?_,?_,?_⟩
  · refine (h.perm.map _).trans ?_
    show (updated t.assistantId f (threadOf (a++t::b))).Perm _
    rw [hthread t] at hnodup ⊢
    rw [hthread t']
    simp only [List.map_append,List.map_cons,List.nodup_append,List.nodup_cons,List.mem_cons,
      List.mem_map] at hnodup
    obtain ⟨-,⟨huniq,⟨hlater,-⟩⟩,hbefore⟩ := hnodup
    have hfirst : updated t.assistantId f (threadOf a) = threadOf a := by
      apply updated_other
      intro m hm hmid
      exact hbefore m.id ⟨m,hm,rfl⟩ t.assistantId (Or.inr (Or.inl rfl)) hmid
    have hrest : updated t.assistantId f (messagesFrom (b.zipIdx (a.length+1))) =
        messagesFrom (b.zipIdx (a.length+1)) := by
      apply updated_other
      intro m hm hmid
      exact hlater ⟨m,hm,hmid⟩
    have hquestion : (userRow (t,a.length)).id ≠ t.assistantId := by
      intro heq
      exact huniq (Or.inl heq)
    have hsplit : ∀ xs ys, updated t.assistantId f (xs++ys) =
        updated t.assistantId f xs++updated t.assistantId f ys := fun xs ys => List.map_append
    rw [hsplit,hfirst]
    show (threadOf a++((if (userRow (t,a.length)).id == t.assistantId then _ else _)::
      (if (assistantRow (t,a.length)).id == t.assistantId then _ else _)::
      updated t.assistantId f (messagesFrom (b.zipIdx (a.length+1))))).Perm _
    have hanswer : ((assistantRow (t,a.length)).id == t.assistantId) = true :=
      beq_self_eq_true t.assistantId
    rw [hrest,if_neg (by simpa using hquestion),if_pos hanswer,hf,huser]
  · have hkept : (updated t.assistantId f rows).map ConversationMessage.id =
        rows.map ConversationMessage.id := by
      unfold updated
      rw [List.map_map]
      apply List.map_congr_left
      intro m hm
      show (if m.id == t.assistantId then f m else m).id = m.id
      split
      · exact hid m
      · rfl
    rw [hkept]
    exact h.ids
  · have hrequest : t'.requestId = t.requestId :=
      congrArg ConversationMessage.requestId huser
    have hdistinct := h.distinct
    rw [List.map_append,List.map_cons] at hdistinct ⊢
    rw [hrequest]
    exact hdistinct

/-- The later turn `t` of `u`: once it is completed nothing changes. -/
structure SameTurn (u t : Turn) : Prop where
  requestId : u.requestId = t.requestId
  userId : u.userId = t.userId
  assistantId : u.assistantId = t.assistantId
  question : u.question = t.question
  completed : u.status = .completed → u = t

theorem sameTurn_refl (t : Turn) : SameTurn t t := ⟨rfl,rfl,rfl,rfl,fun _ => rfl⟩

theorem sameTurn_trans {t u v : Turn} (h : SameTurn t u) (h' : SameTurn u v) : SameTurn t v where
  requestId := h.requestId.trans h'.requestId
  userId := h.userId.trans h'.userId
  assistantId := h.assistantId.trans h'.assistantId
  question := h.question.trans h'.question
  completed hc := by
    have htu := h.completed hc
    rw [htu] at hc ⊢
    exact h'.completed hc

theorem sameTurn_open {t : Turn} (h : t.status = .streaming) (answer : String)
    (status : MessageStatus) : SameTurn t {t with answer := answer,status := status} := by
  refine ⟨rfl,rfl,rfl,rfl,?_⟩
  intro hcompleted
  rw [h] at hcompleted
  cases hcompleted

/-- The turns `us` of a snapshot are earlier states of the first of the turns `ts`. -/
structure Older (us ts : List Turn) : Prop where
  length : us.length ≤ ts.length
  turn : ∀ (k : ℕ) u, us[k]? = some u → ∃ t, ts[k]? = some t ∧ SameTurn u t

theorem older_refl (ts : List Turn) : Older ts ts :=
  ⟨le_refl _,fun _ t ht => ⟨t,ht,sameTurn_refl t⟩⟩

theorem older_trans {us ts vs : List Turn} (h : Older us ts) (h' : Older ts vs) : Older us vs := by
  refine ⟨h.length.trans h'.length,?_⟩
  intro k u hu
  obtain ⟨t,ht,hut⟩ := h.turn k u hu
  obtain ⟨v,hv,htv⟩ := h'.turn k t ht
  exact ⟨v,hv,sameTurn_trans hut htv⟩

theorem older_snoc (ts : List Turn) (t : Turn) : Older ts (ts++[t]) := by
  refine ⟨by simp,?_⟩
  intro k u hu
  obtain ⟨hlt,-⟩ := List.getElem?_eq_some_iff.mp hu
  exact ⟨u,by rw [List.getElem?_append_left hlt,hu],sameTurn_refl u⟩

theorem older_set (h : Older us ts) (k : ℕ) {u t : Turn} (hk : k < ts.length) (hut : SameTurn u t) :
    Older (us.set k u) (ts.set k t) := by
  refine ⟨by simpa using h.length,?_⟩
  intro j v hv
  rcases set_get hv with ⟨rfl,rfl⟩ | ⟨hj,hv⟩
  · exact ⟨t,List.getElem?_set_self hk,hut⟩
  · obtain ⟨w,hw,hvw⟩ := h.turn j v hv
    exact ⟨w,by rw [List.getElem?_set_ne (Ne.symm hj),hw],hvw⟩

theorem older_forth {t t' : Turn} (ht : ts[k]? = some t) (htt : SameTurn t t') :
    Older ts (ts.set k t') := by
  refine ⟨by simp,?_⟩
  obtain ⟨hk,-⟩ := List.getElem?_eq_some_iff.mp ht
  intro j v hv
  by_cases hj : j = k
  · subst hj
    obtain rfl : t = v := Option.some.inj (ht.symm.trans hv)
    exact ⟨t',List.getElem?_set_self hk,htt⟩
  · exact ⟨v,by rw [List.getElem?_set_ne (Ne.symm hj),hv],sameTurn_refl v⟩

/-- A turn is open if and only if it is the last one and has the lease. -/
structure ThreadSound (c : Conversation) (ts : List Turn) : Prop where
  view : View c.messages.rows ts
  streaming : ∀ (k : ℕ) t, ts[k]? = some t → t.status = .streaming → k+1 = ts.length ∧
    ∃ a, c.active = some a ∧ a.requestId = t.requestId
  opened : ∀ a, c.active = some a → ∃ (k : ℕ) (t : Turn), ts[k]? = some t ∧ k+1 = ts.length ∧
    t.requestId = a.requestId ∧ t.status = .streaming

/-- What the transaction finds as the answer of the open turn. -/
structure Found (us ts : List Turn) (m : ConversationMessage) (k : ℕ) (u t : Turn) : Prop where
  seen : us[k]? = some u
  row : m = assistantRow (u,k)
  turn : ts[k]? = some t
  same : SameTurn u t
  last : k+1 = ts.length
  streaming : t.status = .streaming

theorem assistant_found {snapshot : List ConversationMessage} {a : ActiveTurn}
    (h : ThreadSound c ts) (hv : View snapshot us) (hold : Older us ts) (ha : c.active = some a)
    (hfind : snapshot.find? (fun m => m.requestId == a.requestId && m.role == .assistant) = some m)
      :
    ∃ k u t, Found us ts m k u t := by
  have hm : m ∈ threadOf us := (view_mem hv).mp (List.mem_of_find?_eq_some hfind)
  have hcond := List.find?_some hfind
  simp only [Bool.and_eq_true,beq_iff_eq] at hcond
  obtain ⟨k,u,hu,hrow⟩ := mem_threadOf.mp hm
  have hrow : m = assistantRow (u,k) := by
    rcases hrow with rfl | hrow
    · cases hcond.2
    · exact hrow
  obtain ⟨t,ht,hut⟩ := hold.turn k u hu
  obtain ⟨j,v,hj,hlast,hrequest,hstreaming⟩ := h.opened a ha
  have hindex : k = j := by
    apply view_index h.view ht hj
    rw [← hut.requestId,hrequest,← hcond.1,hrow]
    rfl
  subst hindex
  obtain rfl : t = v := Option.some.inj (ht.symm.trans hj)
  exact ⟨k,u,t,hu,hrow,ht,hut,hlast,hstreaming⟩

/-- No message that is not being streamed is lost or changed. -/
def Keeps (rows rows' : List ConversationMessage) : Prop :=
  ∀ m ∈ rows, m.status ≠ .streaming → m ∈ rows'

theorem keeps_refl (rows : List ConversationMessage) : Keeps rows rows := fun _ hm _ => hm

theorem keeps_trans {xs ys zs : List ConversationMessage} (h : Keeps xs ys) (h' : Keeps ys zs) :
    Keeps xs zs := fun m hm hs => h' m (h m hm hs) hs

theorem id_inj (h : (rows.map ConversationMessage.id).Nodup) {m n : ConversationMessage}
    (hm : m ∈ rows) (hn : n ∈ rows) (hid : m.id = n.id) : m = n :=
  List.inj_on_of_nodup_map h hm hn hid

theorem updated_keeps (h : View rows ts) {t : Turn} (ht : ts[k]? = some t)
    (hs : t.status = .streaming) (f : ConversationMessage → ConversationMessage) :
    Keeps rows (updated t.assistantId f rows) := by
  intro m hm hstatus
  refine List.mem_map.mpr ⟨m,hm,?_⟩
  rw [if_neg]
  intro hid
  have hanswer : assistantRow (t,k) ∈ rows :=
    (view_mem h).mpr (mem_threadOf.mpr ⟨k,t,ht,Or.inr rfl⟩)
  obtain rfl : m = assistantRow (t,k) := id_inj h.ids hm hanswer (eq_of_beq hid)
  exact hstatus hs

/-- The last turn is closed, or stays open under the same lease. -/
theorem last_changed (c' : Conversation) {u t t' : Turn} (h : ThreadSound c ts)
    (hm : Found us ts m k u t) (hrows : c'.messages.rows = updated m.id f c.messages.rows)
    (hf : f (assistantRow (t,k)) = assistantRow (t',k)) (hid : ∀ n, (f n).id = n.id)
    (htt : SameTurn t t')
    (hactive : (c'.active = c.active ∧ t'.status = .streaming) ∨ (c'.active = none ∧ t'.status ≠
      .streaming)) :
    ThreadSound c' (ts.set k t') ∧ Older ts (ts.set k t') ∧
      Keeps c.messages.rows c'.messages.rows := by
  have hmid : m.id = t.assistantId := by
    rw [hm.row]
    exact hm.same.assistantId
  obtain ⟨hk,-⟩ := List.getElem?_eq_some_iff.mp hm.turn
  rw [hmid] at hrows
  have huser : userRow (t',k) = userRow (t,k) := by
    unfold userRow
    rw [htt.requestId,htt.userId,htt.question]
  refine ⟨⟨?_,?_,?_⟩,older_forth hm.turn htt,?_⟩
  · rw [hrows]
    exact view_update h.view hm.turn hf hid huser
  · intro j v hv hs
    rw [List.length_set]
    rcases set_get hv with ⟨rfl,rfl⟩ | ⟨hj,hv⟩
    · refine ⟨hm.last,?_⟩
      rcases hactive with ⟨hsame,-⟩ | ⟨-,hclosed⟩
      · obtain ⟨-,a,ha,har⟩ := h.streaming j t hm.turn hm.streaming
        exact ⟨a,hsame.trans ha,har.trans htt.requestId⟩
      · exact absurd hs hclosed
    · obtain ⟨hlast,-⟩ := h.streaming j v hv hs
      have hlastk := hm.last
      omega
  · intro a ha
    rcases hactive with ⟨hsame,hopen⟩ | ⟨hnone,-⟩
    · obtain ⟨j,v,hv,hlast,hrequest,-⟩ := h.opened a (hsame.symm.trans ha)
      have hlastk := hm.last
      obtain rfl : j = k := by omega
      obtain rfl : t = v := Option.some.inj (hm.turn.symm.trans hv)
      exact ⟨j,t',List.getElem?_set_self hk,by rw [List.length_set,hm.last],
        htt.requestId.symm.trans hrequest,hopen⟩
    · rw [hnone] at ha
      cases ha
  · rw [hrows]
    exact updated_keeps h.view hm.turn hm.streaming f

theorem updateMessage_ok {id : UUID7} {v : Unit} (h : updateMessage id f c = .ok (v,c')) :
    c'.messages.rows = updated id f c.messages.rows ∧ c'.active = c.active := by
  simp only [updateMessage,bind_ok,zoom_ok,require_ok,updateRows_ok] at h
  obtain ⟨n,_,⟨t,⟨-,hrows⟩,rfl⟩,-,rfl⟩ := h
  exact ⟨hrows,rfl⟩

theorem assistant_ok {snapshot : List ConversationMessage} {requestId : RequestId}
    (h : assistant snapshot requestId c = .ok (m,c')) :
    snapshot.find? (fun n => n.requestId == requestId && n.role == .assistant) = some m ∧
      c' = c := by
  obtain ⟨hfind,rfl⟩ := orFail_ok.mp h
  exact ⟨hfind,rfl⟩

/-- The state after a call, and what the call still sees of the messages. -/
structure Moved (c c' : Conversation) (seen : List ConversationMessage) (ts ts' us' : List Turn) :
    Prop where
  sound : ThreadSound c' ts'
  later : Older ts ts'
  keeps : Keeps c.messages.rows c'.messages.rows
  view : View seen us'
  older : Older us' ts'

theorem expire_moves {snapshot seen : List ConversationMessage} (h : ThreadSound c ts)
    (hv : View snapshot us) (hold : Older us ts) (hexpire : expire snapshot now c = .ok (seen,c')) :
    ∃ ts' us', Moved c c' seen ts ts' us' := by
  simp only [expire,bind_ok,read_ok] at hexpire
  obtain ⟨active,_,⟨hactive,rfl⟩,hexpire⟩ := hexpire
  have hkept : Moved c c snapshot ts ts us := ⟨h,older_refl ts,keeps_refl _,hv,hold⟩
  cases active with
  | none =>
    obtain ⟨rfl,rfl⟩ := pure_ok.mp hexpire
    exact ⟨ts,us,hkept⟩
  | some a =>
    by_cases hnow : a.expiresAt ≤ now
    · simp only [if_pos hnow,bind_ok,setActive_ok,pure_ok] at hexpire
      obtain ⟨m,_,hm,_,c₁,hupdate,_,_,rfl,rfl,rfl⟩ := hexpire
      obtain ⟨hfind,rfl⟩ := assistant_ok hm
      obtain ⟨hrows,-⟩ := updateMessage_ok hupdate
      obtain ⟨k,u,t,hfound⟩ := assistant_found h hv hold hactive hfind
      have hsame : SameTurn t {t with status := .incomplete} := sameTurn_open hfound.streaming _ _
      obtain ⟨hsound,hlater,hkeeps⟩ := last_changed {c₁ with active := none} h hfound hrows
        rfl (fun _ => rfl) hsame (Or.inr ⟨rfl,fun hs => by cases hs⟩)
      refine ⟨_,us.set k {u with status := .incomplete},hsound,hlater,hkeeps,?_,?_⟩
      · rw [hfound.row]
        exact view_update hv hfound.seen rfl (fun _ => rfl) rfl
      · obtain ⟨hk,-⟩ := List.getElem?_eq_some_iff.mp hfound.turn
        apply older_set hold k hk
        have hut := hfound.same
        exact ⟨hut.requestId,hut.userId,hut.assistantId,hut.question,fun hs => by cases hs⟩
    · simp only [if_neg hnow,pure_ok] at hexpire
      obtain ⟨rfl,rfl⟩ := hexpire
      exact ⟨ts,us,hkept⟩

theorem requireLease_ok {v : Unit} (h : requireLease hash lease now c = .ok (v,c')) :
    leased hash lease now c.active = true ∧ c' = c := by
  simp only [requireLease,bind_ok,read_ok,require_ok] at h
  obtain ⟨_,_,⟨rfl,rfl⟩,hleased,rfl⟩ := h
  exact ⟨hleased,rfl⟩

theorem leased_active {active : Option ActiveTurn} (h : leased hash lease now active = true) :
    ∃ a, active = some a ∧ a.requestId = lease.requestId ∧ a.tokenHash = hash lease.token ∧
      now < a.expiresAt := by
  cases active with
  | none => cases h
  | some a =>
    simp only [leased,Option.any_some,Bool.and_eq_true,beq_iff_eq,decide_eq_true_eq] at h
    exact ⟨a,rfl,h.1.1,h.1.2,h.2⟩

theorem append_moves {q : AppendCall} {snapshot : List ConversationMessage} {v : Unit}
    (h : ThreadSound c ts) (hv : View snapshot us) (hold : Older us ts)
    (happend : append hash q snapshot c = .ok (v,c')) :
    ∃ ts', ThreadSound c' ts' ∧ Older ts ts' ∧ Keeps c.messages.rows c'.messages.rows := by
  simp only [append,bind_ok,require_ok] at happend
  obtain ⟨_,_,⟨-,rfl⟩,_,_,⟨-,rfl⟩,_,_,hlease,m,_,hm,_,_,⟨-,rfl⟩,hupdate⟩ := happend
  obtain ⟨hleased,rfl⟩ := requireLease_ok hlease
  obtain ⟨hfind,rfl⟩ := assistant_ok hm
  obtain ⟨hrows,hactive⟩ := updateMessage_ok hupdate
  obtain ⟨a,ha,har,-,-⟩ := leased_active hleased
  rw [← har] at hfind
  obtain ⟨k,u,t,hfound⟩ := assistant_found h hv hold ha hfind
  have hsame : SameTurn t {t with answer := m.content++q.text} := sameTurn_open hfound.streaming _ _
  exact ⟨_,last_changed c' h hfound hrows rfl (fun _ => rfl) hsame
    (Or.inl ⟨hactive,hfound.streaming⟩)⟩

theorem finish_moves {q : FinishCall} {snapshot : List ConversationMessage} {v : Unit}
    (h : ThreadSound c ts) (hv : View snapshot us) (hold : Older us ts)
    (hfinish : finish hash q snapshot c = .ok (v,c')) :
    ∃ ts', ThreadSound c' ts' ∧ Older ts ts' ∧ Keeps c.messages.rows c'.messages.rows := by
  simp only [finish,bind_ok,require_ok,setActive_ok] at hfinish
  obtain ⟨_,_,⟨-,rfl⟩,_,_,hlease,m,_,hm,_,_,⟨-,rfl⟩,_,c₁,hupdate,rfl⟩ := hfinish
  obtain ⟨hleased,rfl⟩ := requireLease_ok hlease
  obtain ⟨hfind,rfl⟩ := assistant_ok hm
  obtain ⟨hrows,-⟩ := updateMessage_ok hupdate
  obtain ⟨a,ha,har,-,-⟩ := leased_active hleased
  rw [← har] at hfind
  obtain ⟨k,u,t,hfound⟩ := assistant_found h hv hold ha hfind
  have hsame : SameTurn t {t with status := if q.complete then .completed else .incomplete} :=
    sameTurn_open hfound.streaming _ _
  refine ⟨_,last_changed {c₁ with active := none} h hfound hrows rfl (fun _ => rfl) hsame
    (Or.inr ⟨rfl,?_⟩)⟩
  intro hs
  cases hc : q.complete with
  | false =>
    simp only [hc] at hs
    cases hs
  | true =>
    simp only [hc] at hs
    cases hs

theorem nextSequence_view {snapshot : List ConversationMessage} (h : View snapshot us) :
    nextSequence snapshot = 2*us.length := by
  have hbound : ∀ m ∈ snapshot, m.sequence < 2*us.length := by
    intro m hm
    obtain ⟨k,u,hu,hrow⟩ := mem_threadOf.mp ((view_mem h).mp hm)
    obtain ⟨hk,-⟩ := List.getElem?_eq_some_iff.mp hu
    rcases hrow with rfl | rfl
    · show 2*k < _
      omega
    · show 2*k+1 < _
      omega
  unfold nextSequence
  cases hmax : (snapshot.map ConversationMessage.sequence).max? with
  | none =>
    rw [List.max?_eq_none_iff,List.map_eq_nil_iff] at hmax
    subst hmax
    by_cases hlength : us.length = 0
    · rw [hlength]
    · exfalso
      obtain ⟨t,ht⟩ : ∃ t, us[0]? = some t := ⟨_,List.getElem?_eq_getElem (by omega)⟩
      have hmem := (view_mem h).mpr (mem_threadOf.mpr ⟨0,t,ht,Or.inl rfl⟩)
      cases hmem
  | some last =>
    obtain ⟨hmem,hmax⟩ := List.max?_eq_some_iff.mp hmax
    obtain ⟨m,hm,rfl⟩ := List.mem_map.mp hmem
    have hlt := hbound m hm
    obtain ⟨t,ht⟩ : ∃ t, us[us.length-1]? = some t := ⟨_,List.getElem?_eq_getElem (by omega)⟩
    have hlast := (view_mem h).mpr (mem_threadOf.mpr ⟨us.length-1,t,ht,Or.inr rfl⟩)
    have hle : 2*(us.length-1)+1 ≤ m.sequence :=
      hmax _ (List.mem_map.mpr ⟨_,hlast,rfl⟩)
    show m.sequence+1 = _
    omega

def newTurn (q : StartCall) : Turn where
  requestId := q.input.value.requestId
  userId := q.userMessageId
  assistantId := q.assistantMessageId
  question := q.input.value.content
  answer := ""
  status := .streaming

theorem inserted_last {t t' : Messages} (h : View t.rows ts) (hold : us.length ≤ ts.length)
    (hrows : t'.rows = newMessages q (2*us.length)++t.rows) :
    us.length = ts.length ∧ View t'.rows (ts++[newTurn q]) := by
  have hquestion : ∀ m ∈ t.rows, Apart conversationMessages
      ⟨q.userMessageId,q.input.value.requestId,2*us.length,.user,q.input.value.content,.completed⟩
      m := by
    intro m hm
    have hlegal := t'.legal.2
    rw [hrows] at hlegal
    have hfirst := (List.pairwise_cons.mp hlegal).1
    exact hfirst m (List.mem_cons_of_mem _ hm)
  have hclash : ∀ m ∈ t.rows, (q.input.value.requestId == m.requestId && MessageRole.user == m.role)
      = false ∧ (2*us.length == m.sequence) = false := by
    intro m hm
    have hapart := (hquestion m hm).2.1
    exact Bool.or_eq_false_iff.mp hapart
  have hrow : ∀ (k : ℕ) u, ts[k]? = some u → userRow (u,k) ∈ t.rows := by
    intro k u hu
    exact (view_mem h).mpr (mem_threadOf.mpr ⟨k,u,hu,Or.inl rfl⟩)
  have hlength : us.length = ts.length := by
    by_contra hne
    obtain ⟨u,hu⟩ : ∃ u, ts[us.length]? = some u := ⟨_,List.getElem?_eq_getElem (by omega)⟩
    have hsequence := (hclash _ (hrow _ u hu)).2
    simp [userRow] at hsequence
  refine ⟨hlength,?_,?_,?_⟩
  · rw [hrows,threadOf_snoc,hlength]
    refine (List.perm_append_comm).trans (h.perm.append ?_)
    exact List.Perm.refl _
  · have hlegal := t'.legal.2
    rw [List.Nodup,List.pairwise_map]
    exact hlegal.imp fun hapart => hapart.1
  · rw [List.map_append,List.map_singleton,← List.concat_eq_append,List.nodup_concat]
    refine ⟨?_,h.distinct⟩
    intro hmem
    obtain ⟨u,hu,hsame⟩ := List.mem_map.mp hmem
    obtain ⟨k,hk,rfl⟩ := List.getElem_of_mem hu
    have hrequest := (hclash _ (hrow k _ (List.getElem?_eq_getElem hk))).1
    simp only [userRow,hsame,newTurn,beq_self_eq_true,Bool.and_self] at hrequest
    cases hrequest

theorem openTurn_moves {seen : List ConversationMessage} (h : ThreadSound c ts) (hv : View seen us)
    (hold : Older us ts) (hopen : openTurn hash q seen c = .ok (prepared,c')) :
    ThreadSound c' (ts++[newTurn q]) ∧ Keeps c.messages.rows c'.messages.rows ∧
      us.length = ts.length ∧ ∃ system, systemOf q.review c = .ok (system,c) ∧
      prepared.messages = ⟨.system,system⟩::((fitted (q.input.value.content.length+system.length)
        (history seen)).map chatMessage++[⟨.user,q.input.value.content⟩]) := by
  have hsystem : ∀ system c₁, systemOf q.review c = .ok (system,c₁) → c₁ = c := by
    intro system c₁ hs
    cases hreview : q.review with
    | unlinked =>
      rw [hreview] at hs
      exact (pure_ok.mp hs).2.symm
    | missing =>
      rw [hreview] at hs
      cases hs
    | saved encoded =>
      rw [hreview] at hs
      exact (pure_ok.mp hs).2.symm
  simp only [openTurn,bind_ok,read_ok,require_ok,zoom_ok,insertRows_ok,setActive_ok,
    pure_ok] at hopen
  obtain ⟨_,_,⟨hactive,rfl⟩,_,_,⟨rfl,rfl⟩,system,c₁,hs,_,_,⟨-,rfl⟩,_,_,⟨t',hrows,rfl⟩,_,_,rfl,
    rfl,rfl⟩ := hopen
  obtain rfl := hsystem system c₁ hs
  rw [nextSequence_view hv] at hrows
  obtain ⟨hlength,hview⟩ := inserted_last h.view hold.length hrows
  refine ⟨⟨hview,?_,?_⟩,?_,hlength,system,hs,rfl⟩
  · intro k t ht hstreaming
    rw [List.length_append,List.length_singleton]
    rcases snoc_get ht with ht | ⟨rfl,rfl⟩
    · obtain ⟨-,a,ha,-⟩ := h.streaming k t ht hstreaming
      rw [hactive] at ha
      cases ha
    · exact ⟨rfl,_,rfl,rfl⟩
  · intro a ha
    obtain rfl := Option.some.inj ha
    exact ⟨ts.length,newTurn q,by simp,by simp,rfl,rfl⟩
  · intro m hm _
    show m ∈ t'.rows
    rw [hrows]
    exact List.mem_append_right _ hm

/-- A completed turn of the snapshot, with its number. -/
def Completed (us : List Turn) (x : Turn × ℕ) : Prop :=
  us[x.2]? = some x.1 ∧ x.1.status = .completed

/-- Completed turns of a snapshot in order, fifteen at most. -/
structure Chosen (us : List Turn) (xs : List (Turn × ℕ)) : Prop where
  completed : ∀ x ∈ xs, Completed us x
  ordered : xs.Pairwise fun x y => x.2 < y.2
  few : xs.length ≤ 15

theorem chosen_drop (h : Chosen us xs) (n : ℕ) :
    Chosen us (xs.drop n) where
  completed x hx := h.completed x (List.mem_of_mem_drop hx)
  ordered := h.ordered.sublist (List.drop_sublist n xs)
  few := by
    have hlength := h.few
    rw [List.length_drop]
    omega

theorem messagesFrom_ordered (h : xs.Pairwise fun x y => x.2 < y.2) :
    (messagesFrom xs).Pairwise fun m n => m.sequence < n.sequence := by
  refine List.pairwise_flatMap.mpr ⟨?_,?_⟩
  · intro x hx
    simp [rowsOf,userRow,assistantRow]
  · refine h.imp ?_
    intro x y hxy m hm n hn
    simp only [rowsOf,List.mem_cons,List.not_mem_nil,or_false] at hm hn
    rcases hm with rfl | rfl
    · rcases hn with rfl | rfl
      · show 2*x.2 < 2*y.2
        omega
      · show 2*x.2 < 2*y.2+1
        omega
    · rcases hn with rfl | rfl
      · show 2*x.2+1 < 2*y.2
        omega
      · show 2*x.2+1 < 2*y.2+1
        omega

theorem messagesFrom_filter (p : RequestId → Bool) (xs : List (Turn × ℕ)) :
    (messagesFrom xs).filter (fun m => p m.requestId) =
      messagesFrom (xs.filter fun x => p x.1.requestId) := by
  induction xs with
  | nil => rfl
  | cons x xs ih =>
    have hcons : ∀ ys, messagesFrom (x::ys) = userRow x::assistantRow x::messagesFrom ys :=
      fun ys => rfl
    have huser : (userRow x).requestId = x.1.requestId := rfl
    have hassistant : (assistantRow x).requestId = x.1.requestId := rfl
    by_cases hp : p x.1.requestId = true
    · simp only [hcons,List.filter_cons,huser,hassistant,if_pos hp,ih]
    · simp only [hcons,List.filter_cons,huser,hassistant,if_neg hp,ih]

theorem zipIdx_ordered (us : List Turn) : us.zipIdx.Pairwise fun x y => x.2 < y.2 := by
  have hrange := List.pairwise_lt_range' (s := 0) (n := us.length)
  rw [← List.zipIdx_map_snd 0 us,List.pairwise_map] at hrange
  exact hrange

theorem history_chosen {seen : List ConversationMessage} (h : View seen us) :
    ∃ xs, Chosen us xs ∧ history seen = messagesFrom xs := by
  have hcompleted : ∀ r ∈ completedRequests seen, ∃ (k : ℕ) (u : Turn), us[k]? = some u ∧
      u.requestId = r ∧ u.status = .completed := by
    intro r hr
    obtain ⟨m,hm,rfl⟩ := List.mem_map.mp hr
    have hm := (List.mem_insertionSort _).mp (List.mem_of_mem_take hm)
    obtain ⟨hmem,hcond⟩ := List.mem_filter.mp hm
    simp only [Bool.and_eq_true,beq_iff_eq] at hcond
    obtain ⟨k,u,hu,hrow⟩ := mem_threadOf.mp ((view_mem h).mp hmem)
    rcases hrow with rfl | rfl
    · cases hcond.1
    · exact ⟨k,u,hu,rfl,hcond.2⟩
  refine ⟨us.zipIdx.filter fun x => (completedRequests seen).contains x.1.requestId,⟨?_,?_,?_⟩,?_⟩
  · rintro ⟨u,k⟩ hx
    obtain ⟨hmem,hcontains⟩ := List.mem_filter.mp hx
    have hu := List.mk_mem_zipIdx_iff_getElem?.mp hmem
    obtain ⟨j,v,hv,hrequest,hstatus⟩ := hcompleted _ (List.contains_iff_mem.mp hcontains)
    obtain rfl : j = k := view_index h hv hu hrequest
    obtain rfl : u = v := Option.some.inj (hu.symm.trans hv)
    exact ⟨hu,hstatus⟩
  · exact (zipIdx_ordered us).sublist List.filter_sublist
  · have hnodup : ((us.zipIdx.filter fun x =>
        (completedRequests seen).contains x.1.requestId).map fun x => x.1.requestId).Nodup := by
      have hall : (us.zipIdx.map fun x => x.1.requestId).Nodup := by
        have hfst : us.zipIdx.map (fun x => x.1.requestId) = us.map Turn.requestId := by
          rw [← List.zipIdx_map_fst 0 us,List.map_map]
          simp
        rw [hfst]
        exact h.distinct
      exact hall.sublist (List.filter_sublist.map _)
    have hsub : ((us.zipIdx.filter fun x =>
        (completedRequests seen).contains x.1.requestId).map fun x => x.1.requestId) ⊆
        completedRequests seen := by
      intro r hr
      obtain ⟨x,hx,rfl⟩ := List.mem_map.mp hr
      exact List.contains_iff_mem.mp (List.mem_filter.mp hx).2
    have hle := (List.subperm_of_subset hnodup hsub).length_le
    rw [List.length_map] at hle
    refine hle.trans ?_
    unfold completedRequests
    rw [List.length_map,List.length_take]
    exact min_le_left _ _
  · have hperm : (history seen).Perm (messagesFrom (us.zipIdx.filter fun x =>
        (completedRequests seen).contains x.1.requestId)) := by
      rw [← messagesFrom_filter]
      exact (List.perm_insertionSort _ _).trans (h.perm.filter _)
    have hordered := messagesFrom_ordered ((zipIdx_ordered us).sublist
      (List.filter_sublist (p := fun x => (completedRequests seen).contains x.1.requestId)))
    refine hperm.eq_of_pairwise ?_ (List.pairwise_insertionSort _ _) (hordered.imp le_of_lt)
    intro m n hm hn hmn hnm
    -- Two rows of one number are one row.
    have hm := hperm.mem_iff.mp hm
    by_contra hne
    have hsequence : m.sequence ≠ n.sequence := by
      have : Std.Symm (fun m n : ConversationMessage => m.sequence ≠ n.sequence) :=
        ⟨fun _ _ => Ne.symm⟩
      exact (hordered.imp fun hlt => ne_of_lt hlt).forall hm hn hne
    exact hsequence (le_antisymm hmn hnm)

theorem fitted_chosen (extra : ℕ) (xs : List (Turn × ℕ)) :
    ∃ n, fitted extra (messagesFrom xs) = messagesFrom (xs.drop n) ∧
      (totalLength (messagesFrom (xs.drop n))+extra ≤ contextLimit ∨ xs.drop n = []) := by
  induction xs with
  | nil => exact ⟨0,rfl,Or.inr rfl⟩
  | cons x xs ih =>
    have hcons : messagesFrom (x::xs) = userRow x::assistantRow x::messagesFrom xs := rfl
    by_cases hover : totalLength (messagesFrom (x::xs))+extra > contextLimit
    · obtain ⟨n,hfitted,hbound⟩ := ih
      refine ⟨n+1,?_,hbound⟩
      rw [hcons] at hover ⊢
      rw [fitted,if_pos hover]
      exact hfitted
    · refine ⟨0,?_,Or.inl (by simpa using hover)⟩
      rw [hcons] at hover ⊢
      rw [fitted,if_neg hover]
      rfl

theorem input_length (m : MessageInput) : m.value.content.length ≤ 4000 := by
  have hcheck := firstError_none m.valid (List.mem_cons_self)
  exact (of_decide_eq_true hcheck).2

theorem length_le_bytes (s : String) : s.length ≤ s.utf8ByteSize := by
  have hlist : ∀ cs : List Char, (String.ofList cs).length ≤ (String.ofList cs).utf8ByteSize := by
    intro cs
    induction cs with
    | nil => simp
    | cons c cs ih =>
      have hcons : String.ofList (c::cs) = String.singleton c++String.ofList cs := by
        rw [String.singleton_eq_ofList,← String.ofList_append]
        rfl
      have hpos := Char.utf8Size_pos c
      rw [hcons,String.length_append,String.utf8ByteSize_append,String.utf8ByteSize_singleton,
        String.length_singleton]
      omega
  have h := hlist s.toList
  rwa [String.ofList_toList] at h

-- In bytes: the kernel counts the characters of a long text slowly.
theorem text_bytes : systemText.utf8ByteSize+reviewPreamble.utf8ByteSize ≤ 800 := by
  decide +kernel

theorem system_length {review : LinkedReview} {system : String}
    (h : systemOf review c = .ok (system,c)) : system.length ≤ 24500 := by
  have htext := length_le_bytes systemText
  have hpreamble := length_le_bytes reviewPreamble
  have hbytes := text_bytes
  cases review with
  | unlinked =>
    obtain ⟨rfl,-⟩ := pure_ok.mp h
    omega
  | missing => cases h
  | saved encoded =>
    obtain ⟨rfl,-⟩ := pure_ok.mp h
    rw [contractReviewContext,String.length_append,String.length_append]
    have hlimit : reviewContextLimit = 24000 := rfl
    split
    · rw [String.length_append,String.length_ofList,List.length_take]
      have hmark : "…（已截断）".length = 6 := by decide
      omega
    · omega

/-- The messages of a prepared turn: the system text, turns of `rows` that were
completed, in order, and the question. -/
structure ContextSound (q : StartCall) (prepared : PreparedTurn)
    (rows : List ConversationMessage) : Prop where
  turns : ∃ (system : String) (turns : List (ConversationMessage × ConversationMessage)),
    prepared.messages = ⟨.system,system⟩::(turns.flatMap (fun p =>
      [⟨.user,p.1.content⟩,⟨.assistant,p.2.content⟩])++[⟨.user,q.input.value.content⟩]) ∧
    (∀ p ∈ turns, p.1 ∈ rows ∧ p.2 ∈ rows ∧ p.1.role = .user ∧ p.2.role = .assistant ∧
      p.1.requestId = p.2.requestId ∧ p.2.status = .completed ∧
      p.2.sequence = p.1.sequence+1) ∧
    turns.Pairwise (fun p r => p.2.sequence < r.1.sequence) ∧ turns.length ≤ 15
  bounded : (prepared.messages.map fun m => m.content.length).sum ≤ contextLimit

theorem context_sound {seen : List ConversationMessage} {system : String} (hv : View seen us)
    (hold : Older us ts) (hrows : View rows ts) (hsystem : systemOf q.review c = .ok (system,c))
    (hprepared : prepared.messages = ⟨.system,system⟩::((fitted
      (q.input.value.content.length+system.length) (history seen)).map chatMessage++
      [⟨.user,q.input.value.content⟩])) :
    ContextSound q prepared rows := by
  obtain ⟨xs,hchosen,hhistory⟩ := history_chosen hv
  obtain ⟨n,hfitted,hbound⟩ := fitted_chosen (q.input.value.content.length+system.length) xs
  have hkept := chosen_drop hchosen n
  rw [hhistory,hfitted] at hprepared
  generalize xs.drop n = kept at hprepared hbound hkept
  refine ⟨⟨system,kept.map fun x => (userRow x,assistantRow x),?_,?_,?_,?_⟩,?_⟩
  · rw [hprepared,messagesFrom,List.map_flatMap,List.flatMap_map]
    rfl
  · intro p hp
    obtain ⟨x,hx,rfl⟩ := List.mem_map.mp hp
    obtain ⟨hget,hstatus⟩ := hkept.completed x hx
    obtain ⟨t,ht,hsame⟩ := hold.turn x.2 x.1 hget
    rw [← hsame.completed hstatus] at ht
    have hin : ∀ m, m = userRow x ∨ m = assistantRow x → m ∈ rows :=
      fun m hm => (view_mem hrows).mpr (mem_threadOf.mpr ⟨x.2,x.1,ht,hm⟩)
    exact ⟨hin _ (Or.inl rfl),hin _ (Or.inr rfl),rfl,rfl,rfl,hstatus,rfl⟩
  · rw [List.pairwise_map]
    refine hkept.ordered.imp ?_
    intro x y hxy
    show 2*x.2+1 < 2*y.2
    omega
  · rw [List.length_map]
    exact hkept.few
  · have htotal : (prepared.messages.map fun m => m.content.length).sum =
        system.length+(totalLength (messagesFrom kept)+q.input.value.content.length) := by
      rw [hprepared,List.map_cons,List.sum_cons,List.map_append,List.map_map,List.sum_append]
      simp [totalLength,chatMessage,Function.comp_def]
    rw [htotal]
    rcases hbound with hbound | hnil
    · omega
    · have hcontent := input_length q.input
      have hlength := system_length hsystem
      have hlimit : contextLimit = 131072 := rfl
      have hzero : totalLength (messagesFrom []) = 0 := rfl
      rw [hnil,hzero]
      omega

/-- Every commit has found an earlier state of the turns. -/
structure ConversationSound (w : ConversationWorld) (ts : List Turn) : Prop where
  thread : ThreadSound w.conversation ts
  past : ∀ p ∈ w.past, ∃ us, View p us ∧ Older us ts

variable {w : ConversationWorld}

theorem snapshot_view (h : ConversationSound w ts) (seen : ℕ) :
    ∃ us, View (snapshot w seen) us ∧ Older us ts := by
  unfold snapshot
  cases hp : w.past[seen]? with
  | none => exact ⟨ts,h.thread.view,older_refl ts⟩
  | some p => exact h.past p (List.mem_of_getElem? hp)

theorem commit_sound {α : Type} (h : ConversationSound w ts) {x : ConversationTx α}
    (hx : ∀ a c, x w.conversation = .ok (a,c) → ∃ ts', ThreadSound c ts' ∧ Older ts ts' ∧ Keeps
      w.conversation.messages.rows c.messages.rows) :
    ∃ ts', ConversationSound (w.commit x) ts' ∧
      Keeps w.conversation.messages.rows (w.commit x).conversation.messages.rows := by
  have hmoved : ∃ ts', ThreadSound (Relational.commit x w.conversation) ts' ∧ Older ts ts' ∧
      Keeps w.conversation.messages.rows (Relational.commit x w.conversation).messages.rows := by
    rcases commit_cases x w.conversation with hsame | ⟨a,hok⟩
    · rw [hsame]
      exact ⟨ts,h.thread,older_refl ts,keeps_refl _⟩
    · exact hx a _ hok
  obtain ⟨ts',hsound,hlater,hkeeps⟩ := hmoved
  refine ⟨ts',⟨hsound,?_⟩,hkeeps⟩
  intro p hp
  rcases List.mem_append.mp hp with hp | hp
  · obtain ⟨us,hv,hold⟩ := h.past p hp
    exact ⟨us,hv,older_trans hold hlater⟩
  · obtain rfl := List.mem_singleton.mp hp
    exact ⟨ts,h.thread.view,hlater⟩

theorem start_moves {snapshot : List ConversationMessage} (h : ThreadSound c ts)
    (hv : View snapshot us) (hold : Older us ts)
    (hstart : start hash q snapshot c = .ok (prepared,c')) :
    ∃ ts', ThreadSound c' ts' ∧ Older ts ts' ∧ Keeps c.messages.rows c'.messages.rows ∧
      (prepared.lease.isSome = true → ContextSound q prepared c'.messages.rows) := by
  simp only [start,bind_ok,require_ok] at hstart
  obtain ⟨_,_,⟨-,rfl⟩,seen,c₁,hexpire,hstart⟩ := hstart
  obtain ⟨ts₁,us₁,hmoved⟩ := expire_moves h hv hold hexpire
  by_cases hprior : seen.filter (fun m => m.requestId == q.input.value.requestId) ≠ []
  · rw [if_pos hprior] at hstart
    simp only [replayTurn,bind_ok,orFail_ok,require_ok,pure_ok] at hstart
    obtain ⟨_,_,⟨-,rfl⟩,_,_,⟨-,rfl⟩,_,_,⟨-,rfl⟩,_,_,⟨-,rfl⟩,rfl,rfl⟩ := hstart
    refine ⟨ts₁,hmoved.sound,hmoved.later,hmoved.keeps,?_⟩
    intro hlease
    cases hlease
  · rw [if_neg hprior] at hstart
    obtain ⟨hsound,hkeeps,-,system,hsystem,hmessages⟩ :=
      openTurn_moves hmoved.sound hmoved.view hmoved.older hstart
    refine ⟨_,hsound,older_trans hmoved.later (older_snoc _ _),keeps_trans hmoved.keeps hkeeps,?_⟩
    intro _
    exact context_sound hmoved.view (older_trans hmoved.older (older_snoc _ _)) hsound.view
      hsystem hmessages

theorem conversationStep_sound (op : ConversationOp) (h : ConversationSound w ts) :
    ∃ ts', ConversationSound (conversationStep hash op w) ts' ∧
      Keeps w.conversation.messages.rows
        (conversationStep hash op w).conversation.messages.rows := by
  cases op with
  | start q seen =>
    obtain ⟨us,hv,hold⟩ := snapshot_view h seen
    apply commit_sound h
    intro prepared c hstart
    obtain ⟨ts',hsound,hlater,hkeeps,-⟩ := start_moves h.thread hv hold hstart
    exact ⟨ts',hsound,hlater,hkeeps⟩
  | append q seen =>
    obtain ⟨us,hv,hold⟩ := snapshot_view h seen
    apply commit_sound h
    intro v c happend
    exact append_moves h.thread hv hold happend
  | finish q seen =>
    obtain ⟨us,hv,hold⟩ := snapshot_view h seen
    apply commit_sound h
    intro v c hfinish
    exact finish_moves h.thread hv hold hfinish
  | get now seen =>
    obtain ⟨us,hv,hold⟩ := snapshot_view h seen
    apply commit_sound h
    intro rows c hexpire
    obtain ⟨ts',us',hmoved⟩ := expire_moves h.thread hv hold hexpire
    exact ⟨ts',hmoved.sound,hmoved.later,hmoved.keeps⟩

def ConversationWorld.created : ConversationWorld := ⟨⟨none,.empty⟩,[]⟩

theorem created_sound : ConversationSound .created [] := by
  refine ⟨⟨⟨List.Perm.refl _,List.nodup_nil,List.nodup_nil⟩,?_,?_⟩,?_⟩
  · intro k t ht
    cases ht
  · intro a ha
    cases ha
  · intro p hp
    cases hp

theorem run_sound (hash : String → Digest) (ops : List ConversationOp) :
    ∃ ts, ConversationSound (run (conversationStep hash) ops .created) ts := by
  apply run_invariant (I := fun w => ∃ ts, ConversationSound w ts)
  · rintro op w ⟨ts,h⟩
    obtain ⟨ts',hsound,-⟩ := conversationStep_sound op h
    exact ⟨ts',hsound⟩
  · exact ⟨[],created_sound⟩

end LawyerAgent.Conversations
