import LawyerAgent.ContractReviewRuns
import LawyerAgent.Conversations
import LawyerAgent.HistoryCursors
import LawyerAgent.Paging.Keyset

/-!
# Pages of a history

The conversations and the contract reviews of a caller are listed by the time of
their last change, the messages of a conversation by their sequence, all three
from the newest on. The cursor of a page is the position of its last row.
-/

set_option autoImplicit false

namespace LawyerAgent.HistoryPages
open Common Datetimes Conversations
open ContractReviewTables (RunStatus)
open ContractReviewRuns (Owner)
open JsonDocuments (Interpreter)
open WireEnvelope (UUID)
open HistoryCursors
open Outcomes (require require_ok bind_ok)
open Paging

structure ConversationModel where
  id : UUID7
  tenantId : UUID7
  creatorUserId : UUID7
  title : String
  contractReviewId : Option UUID7
  updatedAt : Datetime

/-- The columns that are listed of a run, and those it is owned by. -/
structure ContractRunModel where
  id : UUID7
  tenantId : UUID7
  createdByUserId : UUID7
  createdByMembershipId : UUID7
  filename : String
  status : RunStatus
  createdAt : Datetime
  updatedAt : Datetime

structure ConversationMessageModel extends ConversationMessage where
  tenantId : UUID7
  conversationId : UUID7
  creatorUserId : UUID7
  createdAt : Datetime

structure MessageTable where
  rows : List ConversationMessageModel
  keys : (rows.map fun m => m.id).Nodup
  sequences : (rows.map fun m => (m.tenantId,m.conversationId,m.sequence)).Nodup

inductive HistoryError where
  | conversationError (code : String) (status : ℕ)
  | reviewError (code : String)
deriving DecidableEq

structure Columns (α : Type) where
  id : α → UUID7
  updatedAt : α → Datetime

structure Stored {α : Type} (C : Columns α) where
  rows : List α
  keys : (rows.map C.id).Nodup

structure HistoryPage (β : Type) where
  items : List β
  nextCursor : Option Text

variable {α β : Type} (C : Columns α)

def position (row : α) : ℤ ×ₗ ℕ := toLex ((C.updatedAt row).instant,(C.id row).int.toNat)

/-- `ORDER BY updated_at DESC, id DESC` -/
def newestFirst (rows : List α) : List α :=
  ordered (fun row => OrderDual.toDual (position C row)) rows

def older (after : Option (Datetime × UUID)) (row : α) : Bool :=
  after.all fun a => decide ((C.updatedAt row).instant < a.1.instant ∨
    (C.updatedAt row).instant = a.1.instant ∧ (C.id row).int.toNat < a.2.toNat)

/-- A column is naive; its time is in UTC. -/
def naive (t : Datetime) : IsoDatetime := ⟨t,none,rfl⟩

def rowCursor (owner : Owner) (row : α) : Text :=
  encodeCursor owner.tenantId.int owner.userId.int (naive (C.updatedAt row)) (C.id row).int

/-- The rows behind the cursor; one more than the page tells whether there are others. -/
def historyPage (owner : Owner) (owned : α → Bool) (view : α → β) (t : Stored C) (limit : ℕ)
    (after : Option (Datetime × UUID)) : HistoryPage β :=
  let rows := (newestFirst C (t.rows.filter fun row => owned row && older C after row)).take
    (limit+1)
  let page := rows.take limit
  ⟨page.map view,if limit < rows.length then page.getLast?.map (rowCursor C owner) else none⟩

variable (L : Library) (python : Interpreter)

/-- The part of both listings behind `_authorize`, which has returned the owner. -/
def listHistory (owner : Owner) (owned : α → Bool) (view : α → β)
    (badLimit badCursor : HistoryError) (t : Stored C) (limit : ℤ) (cursor : Option Text) :
    Except HistoryError (HistoryPage β) := do
  require (1 ≤ limit ∧ limit ≤ 100) badLimit
  let after ← (decodeCursor L python cursor owner.tenantId.int owner.userId.int).mapError
    fun _ => badCursor
  .ok (historyPage C owner owned view t limit.toNat after)

structure ConversationSummary where
  id : UUID7
  title : String
  updatedAt : Datetime
  reviewId : Option UUID7

def summary (row : ConversationModel) : ConversationSummary :=
  ⟨row.id,row.title,row.updatedAt,row.contractReviewId⟩

def conversationColumns : Columns ConversationModel :=
  ⟨ConversationModel.id,ConversationModel.updatedAt⟩

def ownsConversation (owner : Owner) (row : ConversationModel) : Bool :=
  row.tenantId == owner.tenantId && row.creatorUserId == owner.userId

/-- `ConversationRepository.list` -/
def listConversations (owner : Owner) (t : Stored conversationColumns) (limit : ℤ)
    (cursor : Option Text) : Except HistoryError (HistoryPage ConversationSummary) :=
  listHistory conversationColumns L python owner (ownsConversation owner) summary
    (.conversationError "invalid_history_limit" 422)
    (.conversationError "invalid_history_cursor" 422) t limit cursor

structure ContractRunSummary where
  id : UUID7
  fileName : String
  status : RunStatus
  createdAt : Datetime
  updatedAt : Datetime

def runSummary (row : ContractRunModel) : ContractRunSummary :=
  ⟨row.id,row.filename,row.status,row.createdAt,row.updatedAt⟩

def runColumns : Columns ContractRunModel := ⟨ContractRunModel.id,ContractRunModel.updatedAt⟩

def ownsRun (owner : Owner) (row : ContractRunModel) : Bool :=
  row.tenantId == owner.tenantId && row.createdByUserId == owner.userId &&
    row.createdByMembershipId == owner.membershipId

def listOwned (owner : Owner) (t : Stored runColumns) (limit : ℤ) (cursor : Option Text) :
    Except HistoryError (HistoryPage ContractRunSummary) :=
  listHistory runColumns L python owner (ownsRun owner) runSummary
    (.reviewError "invalid_review_request") (.reviewError "invalid_review_request") t limit cursor

structure MessageView where
  id : UUID7
  role : MessageRole
  content : String
  status : MessageStatus

/-- `_view` -/
def messageView (m : ConversationMessageModel) : MessageView := ⟨m.id,m.role,m.content,m.status⟩

structure ConversationDetail extends ConversationSummary where
  messages : List MessageView
  hasMore : Bool
  nextMessageCursor : Option Text

/-- `_message_query` -/
def ofConversation (row : ConversationModel) (m : ConversationMessageModel) : Bool :=
  m.tenantId == row.tenantId && m.creatorUserId == row.creatorUserId &&
    m.conversationId == row.id

def owned (owner : Owner) (conversations : List ConversationModel) (conversationId : UUID7) :
    Except HistoryError ConversationModel :=
  match conversations.find? fun row => ownsConversation owner row && row.id == conversationId with
  | some row => .ok row
  | none => .error (.conversationError "resource_unavailable" 404)

def badMessageCursor : HistoryError := .conversationError "invalid_history_cursor" 422

def messageAt (row : ConversationModel) (t : MessageTable) (ident : UUID) :
    Option ConversationMessageModel :=
  t.rows.find? fun m => ofConversation row m && m.id.int == ident

def pivotAt (row : ConversationModel) (t : MessageTable) :
    Except String (Option (Datetime × UUID)) →
      Except HistoryError (Option ConversationMessageModel)
  | .ok (some after) =>
    match messageAt row t after.2 with
    | some pivot => .ok (some pivot)
    | none => .error badMessageCursor
  | _ => .error badMessageCursor

/-- The message a cursor names; an empty cursor is none. -/
def pivotOf (owner : Owner) (row : ConversationModel) (t : MessageTable) (cursor : Option Text) :
    Except HistoryError (Option ConversationMessageModel) :=
  if (cursor.getD []).isEmpty then .ok none
  else pivotAt row t (decodeCursor L python cursor owner.tenantId.int owner.userId.int)

def messageCursor (owner : Owner) (m : ConversationMessageModel) : Text :=
  encodeCursor owner.tenantId.int owner.userId.int (naive m.createdAt) m.id.int

def latestFirst (rows : List ConversationMessageModel) : List ConversationMessageModel :=
  ordered (fun m => OrderDual.toDual m.sequence) rows

/-- `ConversationRepository.get` behind `_authorize` and the expiry of a lease, which
changes neither the sequence nor the time of a message. -/
def get (owner : Owner) (conversations : Stored conversationColumns) (t : MessageTable)
    (conversationId : UUID7) (cursor : Option Text) : Except HistoryError ConversationDetail := do
  let row ← owned owner conversations.rows conversationId
  let pivot ← pivotOf L python owner row t cursor
  let messages := (latestFirst (t.rows.filter fun m => ofConversation row m &&
    pivot.all fun p => decide (m.sequence < p.sequence))).take 201
  let hasMore := decide (200 < messages.length)
  let page := (messages.take 200).reverse
  .ok {summary row with
    messages := page.map messageView
    hasMore := hasMore
    nextMessageCursor := if hasMore then page.head?.map (messageCursor owner) else none}

variable {C L python} {owner : Owner} {mine : α → Bool} {view : α → β} {t : Stored C}
  {badLimit badCursor : HistoryError} {limit : ℤ}

theorem toUtc_naive (at' : Datetime) : toUtc (naive at') = some at' := by
  have hinstant : instant (naive at') = at'.instant := by
    exact sub_zero at'.instant
  unfold toUtc
  simp only [hinstant]
  exact dif_pos ⟨at'.first,at'.last⟩

theorem decode_issued (at' : Datetime) (ident : UUID7) (tenantId userId : UUID) :
    decodeCursor L python (some (encodeCursor tenantId userId (naive at') ident.int)) tenantId
      userId = .ok (some (at',ident.int)) := by
  rw [decodeCursor,readCursor_encode,if_pos ⟨⟨rfl,rfl⟩,int_isUUID7 ident⟩,toUtc_naive]
  rfl

theorem decode_other (at' : IsoDatetime) (ident tenantId userId tenant user : UUID)
    (h : ¬(tenantId = tenant ∧ userId = user)) :
    decodeCursor L python (some (encodeCursor tenantId userId at' ident)) tenant user =
      .error "invalid_history_cursor" := by
  rw [decodeCursor,readCursor_encode,if_neg fun hsame => h hsame.1]

theorem position_inj {row other : α} (h : position C row = position C other) :
    C.id row = C.id other := by
  unfold position at h
  rw [toLex_inj,Prod.mk.injEq] at h
  exact PythonRepr.int_inj (BitVec.eq_of_toNat_eq h.2)

theorem positions_nodup (t : Stored C) (p : α → Bool) :
    ((t.rows.filter p).map fun row => OrderDual.toDual (position C row)).Nodup := by
  apply List.pairwise_map.mpr
  apply ((List.pairwise_map.mp t.keys).filter _).imp
  intro row other hapart hsame
  exact hapart (position_inj (OrderDual.toDual_inj.mp hsame))

theorem older_iff {row other : α} : older C (some (C.updatedAt other,(C.id other).int)) row = true ↔
    OrderDual.toDual (position C other) < OrderDual.toDual (position C row) := by
  rw [OrderDual.toDual_lt_toDual,position,position,Prod.Lex.toLex_lt_toLex]
  exact decide_eq_true_iff

variable (L python) in
theorem rows_behind {cursor : Option Text} {rest : List α}
    (h : Behind (fun row => OrderDual.toDual (position C row)) (t.rows.filter mine)
      (rowCursor C owner) cursor rest) : ∃ after,
    decodeCursor L python cursor owner.tenantId.int owner.userId.int = .ok after ∧
    newestFirst C (t.rows.filter fun row => mine row && older C after row) = rest := by
  rcases h with ⟨rfl,rfl⟩ | ⟨before,row,rfl,hsplit⟩
  · refine ⟨none,rfl,?_⟩
    have hrows : (t.rows.filter fun row => mine row && older C none row) = t.rows.filter mine := by
      apply List.filter_congr
      intro row _
      exact Bool.and_true _
    rw [hrows]
    rfl
  · refine ⟨some (C.updatedAt row,(C.id row).int),decode_issued _ _ _ _,?_⟩
    rw [← behind_rest (positions_nodup t mine) hsplit,behind,List.filter_filter,newestFirst]
    congr 1
    apply List.filter_congr
    intro other _
    have holder : older C (some (C.updatedAt row,(C.id row).int)) other =
        decide (OrderDual.toDual (position C row) < OrderDual.toDual (position C other)) := by
      apply Bool.eq_iff_iff.mpr
      rw [older_iff,decide_eq_true_iff]
    rw [holder,Bool.and_comm]
    rfl

def ShowsRows (view : α → β) (page : HistoryPage β) (part : List α) : Prop :=
  page.items = part.map view

/-- Following the cursors of a listing shows every row of the caller once, the newest first. -/
theorem history_listed (hlimit : 1 ≤ limit ∧ limit ≤ 100) :
    ∃ pages, Follows (listHistory C L python owner mine view badLimit badCursor t limit)
      HistoryPage.nextCursor none pages none ∧
      pages.flatMap HistoryPage.items = (newestFirst C (t.rows.filter mine)).map view := by
  have hpage : ∀ cursor rest, Behind (fun row => OrderDual.toDual (position C row))
      (t.rows.filter mine) (rowCursor C owner) cursor rest → ∃ b,
      listHistory C L python owner mine view badLimit badCursor t limit cursor = .ok b ∧
      ShowsRows view b (rest.take limit.toNat) ∧
      b.nextCursor = if limit.toNat < (rest.take (limit.toNat+1)).length then
        (rest.take limit.toNat).getLast?.map (rowCursor C owner) else none := by
    intro cursor rest hplace
    obtain ⟨after,hdecode,hrows⟩ := rows_behind L python hplace
    have hok : listHistory C L python owner mine view badLimit badCursor t limit cursor =
        .ok (historyPage C owner mine view t limit.toNat after) := by
      have hrequire : require (1 ≤ limit ∧ limit ≤ 100) badLimit = .ok () := require_ok.mpr hlimit
      rw [listHistory,hrequire,hdecode]
      rfl
    have htake : (rest.take (limit.toNat+1)).take limit.toNat = rest.take limit.toNat := by
      rw [List.take_take,min_eq_left (Nat.le_succ _)]
    refine ⟨_,hok,?_,?_⟩
    · rw [ShowsRows,historyPage,hrows,htake]
    · rw [historyPage,hrows,htake]
  have hpos : 0 < limit.toNat := by omega
  obtain ⟨pages,parts,hfollows,hshows,hflat⟩ := follow_behind hpos hpage
  exact ⟨pages,hfollows,by rw [newestFirst,← hflat,shows_view hshows]⟩

variable {conversations : Stored conversationColumns} {messages : MessageTable}
  {row : ConversationModel}

variable {m : ConversationMessageModel}

theorem ofConversation_iff : ofConversation row m = true ↔
    m.tenantId = row.tenantId ∧ m.creatorUserId = row.creatorUserId ∧
      m.conversationId = row.id := by
  rw [ofConversation,Bool.and_eq_true,Bool.and_eq_true,beq_iff_eq,beq_iff_eq,beq_iff_eq,and_assoc]

theorem sequences_nodup (messages : MessageTable) (row : ConversationModel) :
    ((messages.rows.filter (ofConversation row)).map fun m =>
      OrderDual.toDual m.sequence).Nodup := by
  apply List.pairwise_map.mpr
  apply ((List.pairwise_map.mp messages.sequences).filter (ofConversation row)).imp_of_mem
  intro m n hm hn hapart hsame
  have hm := ofConversation_iff.mp (List.mem_filter.mp hm).2
  have hn := ofConversation_iff.mp (List.mem_filter.mp hn).2
  apply hapart
  rw [hm.1,hn.1,hm.2.2,hn.2.2,OrderDual.toDual_inj.mp hsame]

theorem owned_row (hrow : row ∈ conversations.rows) (howner : ownsConversation owner row = true) :
    owned owner conversations.rows row.id = .ok row := by
  rw [owned]
  cases hfind : conversations.rows.find? fun other =>
      ownsConversation owner other && other.id == row.id with
  | none =>
    have hmiss := List.find?_eq_none.mp hfind row hrow
    simp [howner] at hmiss
  | some other =>
    have hmatch := List.find?_some hfind
    simp only [Bool.and_eq_true,beq_iff_eq] at hmatch
    have hsame : other = row := List.inj_on_of_nodup_map conversations.keys
      (List.mem_of_find?_eq_some hfind) hrow hmatch.2
    rw [hsame]

theorem pivotOf_cursor (m : ConversationMessageModel) (other : Owner) (row' : ConversationModel) :
    pivotOf L python other row' messages (some (messageCursor owner m)) =
      pivotAt row' messages (decodeCursor L python (some (messageCursor owner m))
        other.tenantId.int other.userId.int) := by
  have hne : messageCursor owner m ≠ [] := cursor_ne_nil _ _ _ _
  rw [pivotOf,Option.getD_some,List.isEmpty_eq_false_iff.mpr hne,if_neg Bool.false_ne_true]

theorem messageAt_row (hm : m ∈ messages.rows) (hof : ofConversation row m = true) :
    messageAt row messages m.id.int = some m := by
  rw [messageAt]
  cases hfound : messages.rows.find? fun n => ofConversation row n && n.id.int == m.id.int with
  | none =>
    have hmiss := List.find?_eq_none.mp hfound m hm
    simp [hof] at hmiss
  | some n =>
    have hmatch := List.find?_some hfound
    simp only [Bool.and_eq_true,beq_iff_eq] at hmatch
    rw [List.inj_on_of_nodup_map messages.keys (List.mem_of_find?_eq_some hfound) hm
      (PythonRepr.int_inj hmatch.2)]

variable (L python) in
theorem pivotOf_issued (hm : m ∈ messages.rows) (hof : ofConversation row m = true) :
    pivotOf L python owner row messages (some (messageCursor owner m)) = .ok (some m) := by
  rw [pivotOf_cursor,messageCursor,decode_issued,pivotAt,messageAt_row hm hof]

variable (L python) in
theorem messages_behind {cursor : Option Text} {rest : List ConversationMessageModel}
    (h : Behind (fun m => OrderDual.toDual m.sequence)
      (messages.rows.filter (ofConversation row)) (messageCursor owner) cursor rest) : ∃ pivot,
    pivotOf L python owner row messages cursor = .ok pivot ∧
    latestFirst (messages.rows.filter fun m => ofConversation row m &&
      pivot.all fun p => decide (m.sequence < p.sequence)) = rest := by
  rcases h with ⟨rfl,rfl⟩ | ⟨before,p,rfl,hsplit⟩
  · refine ⟨none,rfl,?_⟩
    have hrows : (messages.rows.filter fun m => ofConversation row m &&
        (none : Option ConversationMessageModel).all fun p => decide (m.sequence < p.sequence)) =
          messages.rows.filter (ofConversation row) := by
      apply List.filter_congr
      intro m _
      exact Bool.and_true _
    rw [hrows]
    rfl
  · have hmem : p ∈ latestFirst (messages.rows.filter (ofConversation row)) := by
      rw [latestFirst,hsplit]
      exact List.mem_append_right _ List.mem_cons_self
    obtain ⟨hrows,hof⟩ := List.mem_filter.mp ((ordered_perm _).mem_iff.mp hmem)
    refine ⟨some p,pivotOf_issued L python hrows hof,?_⟩
    rw [← behind_rest (sequences_nodup messages row) hsplit,behind,List.filter_filter,latestFirst]
    congr 1
    apply List.filter_congr
    intro m _
    rw [Bool.and_comm]
    rfl

def ShowsBlock (d : ConversationDetail) (part : List ConversationMessageModel) : Prop :=
  d.messages.reverse = part.map messageView

/-- Following the cursors of a conversation shows each of its messages once, in blocks from
the latest on. -/
theorem messages_listed (hrow : row ∈ conversations.rows)
    (howner : ownsConversation owner row = true) :
    ∃ pages, Follows (get L python owner conversations messages row.id)
      ConversationDetail.nextMessageCursor none pages none ∧
      (pages.flatMap fun d => d.messages.reverse) =
        (latestFirst (messages.rows.filter (ofConversation row))).map messageView := by
  have hpage : ∀ cursor rest, Behind (fun m => OrderDual.toDual m.sequence)
      (messages.rows.filter (ofConversation row)) (messageCursor owner) cursor rest → ∃ d,
      get L python owner conversations messages row.id cursor = .ok d ∧
      ShowsBlock d (rest.take 200) ∧
      d.nextMessageCursor = if 200 < (rest.take (200+1)).length then
        (rest.take 200).getLast?.map (messageCursor owner) else none := by
    intro cursor rest hplace
    obtain ⟨pivot,hpivot,hrows⟩ := messages_behind L python hplace
    have htake : (rest.take 201).take 200 = rest.take 200 := by
      rw [List.take_take,min_eq_left (by decide)]
    have hok : get L python owner conversations messages row.id cursor = .ok {summary row with
        messages := (rest.take 200).reverse.map messageView
        hasMore := decide (200 < (rest.take 201).length)
        nextMessageCursor := if decide (200 < (rest.take 201).length) = true then
          (rest.take 200).reverse.head?.map (messageCursor owner) else none} := by
      simp only [get,owned_row hrow howner,hpivot,bind,Except.bind,hrows,htake]
    refine ⟨_,hok,?_,?_⟩
    · rw [ShowsBlock,List.map_reverse,List.reverse_reverse]
    · simp only [decide_eq_true_eq,List.head?_reverse]
  obtain ⟨pages,parts,hfollows,hshows,hflat⟩ := follow_behind (by decide) hpage
  refine ⟨pages,hfollows,?_⟩
  rw [latestFirst,← hflat]
  exact shows_view hshows

def OtherCaller (owner other : Owner) : Prop :=
  other.tenantId ≠ owner.tenantId ∨ other.userId ≠ owner.userId

theorem other_ids {other : Owner} (h : OtherCaller owner other) :
    ¬(owner.tenantId.int = other.tenantId.int ∧ owner.userId.int = other.userId.int) := by
  intro hsame
  rcases h with htenant | huser
  · exact htenant (PythonRepr.int_inj hsame.1).symm
  · exact huser (PythonRepr.int_inj hsame.2).symm

theorem issued_row {cursor : Option Text} {b : HistoryPage β} {c : Text}
    (h : listHistory C L python owner mine view badLimit badCursor t limit cursor = .ok b)
    (hnext : b.nextCursor = some c) : ∃ row, c = rowCursor C owner row := by
  rw [listHistory] at h
  obtain ⟨_,-,hread⟩ := bind_ok.mp h
  obtain ⟨after,-,hpage⟩ := bind_ok.mp hread
  rw [← Except.ok.inj hpage,historyPage] at hnext
  simp only at hnext
  split_ifs at hnext
  obtain ⟨row,-,hrow⟩ := Option.map_eq_some_iff.mp hnext
  exact ⟨row,hrow.symm⟩

theorem history_refused {cursor : Option Text} {b : HistoryPage β} {c : Text} {other : Owner}
    {theirs : α → Bool} {t' : Stored C} {limit' : ℤ}
    (h : listHistory C L python owner mine view badLimit badCursor t limit cursor = .ok b)
    (hnext : b.nextCursor = some c) (hother : OtherCaller owner other)
    (hlimit : 1 ≤ limit' ∧ limit' ≤ 100) :
    listHistory C L python other theirs view badLimit badCursor t' limit' (some c) =
      .error badCursor := by
  obtain ⟨row,hrow⟩ := issued_row h hnext
  have hrequire : require (1 ≤ limit' ∧ limit' ≤ 100) badLimit = .ok () := require_ok.mpr hlimit
  rw [listHistory,hrequire,hrow,rowCursor,decode_other _ _ _ _ _ _ (other_ids hother)]
  rfl

theorem issued_message {cursor : Option Text} {d : ConversationDetail} {c : Text}
    (howned : owned owner conversations.rows row.id = .ok row)
    (h : get L python owner conversations messages row.id cursor = .ok d)
    (hnext : d.nextMessageCursor = some c) :
    ∃ m ∈ messages.rows, ofConversation row m = true ∧ c = messageCursor owner m := by
  simp only [get,howned,bind,Except.bind] at h
  cases hpivot : pivotOf L python owner row messages cursor with
  | error e =>
    rw [hpivot] at h
    cases h
  | ok pivot =>
    rw [hpivot] at h
    rw [← Except.ok.inj h] at hnext
    simp only at hnext
    split_ifs at hnext
    obtain ⟨m,hhead,hm⟩ := Option.map_eq_some_iff.mp hnext
    have hmem := List.mem_of_mem_take (List.mem_of_mem_take
      (List.mem_reverse.mp (List.mem_of_mem_head? hhead)))
    obtain ⟨hrows,hof⟩ := List.mem_filter.mp ((ordered_perm _).mem_iff.mp hmem)
    exact ⟨m,hrows,(Bool.and_eq_true_iff.mp hof).1,hm.symm⟩

theorem pivotOf_refused {other : Owner} {row' : ConversationModel} (hm : m ∈ messages.rows)
    (hof : ofConversation row m = true) (hapart : OtherCaller owner other ∨ row'.id ≠ row.id) :
    pivotOf L python other row' messages (some (messageCursor owner m)) =
      .error badMessageCursor := by
  rw [pivotOf_cursor,messageCursor]
  by_cases hcaller : OtherCaller owner other
  · rw [decode_other _ _ _ _ _ _ (other_ids hcaller),pivotAt]
    exact fun _ h => by cases h
  · have hids : other.tenantId = owner.tenantId ∧ other.userId = owner.userId := by
      rw [OtherCaller,not_or,not_not,not_not] at hcaller
      exact hcaller
    have hnone : messageAt row' messages m.id.int = none := by
      apply List.find?_eq_none.mpr
      intro n hn hmatch
      simp only [Bool.and_eq_true,beq_iff_eq] at hmatch
      have hsame : n = m := List.inj_on_of_nodup_map messages.keys hn hm
        (PythonRepr.int_inj hmatch.2)
      have hrow' := (ofConversation_iff.mp hmatch.1).2.2
      rw [hsame,(ofConversation_iff.mp hof).2.2] at hrow'
      exact (hapart.resolve_left hcaller) hrow'.symm
    rw [hids.1,hids.2,decode_issued,pivotAt,hnone]

theorem messages_refused {cursor : Option Text} {d : ConversationDetail} {c : Text}
    {other : Owner} {row' : ConversationModel} (hrow : row ∈ conversations.rows)
    (howner : ownsConversation owner row = true) (hrow' : row' ∈ conversations.rows)
    (hother : ownsConversation other row' = true)
    (h : get L python owner conversations messages row.id cursor = .ok d)
    (hnext : d.nextMessageCursor = some c)
    (hapart : OtherCaller owner other ∨ row'.id ≠ row.id) :
    get L python other conversations messages row'.id (some c) = .error badMessageCursor := by
  obtain ⟨m,hm,hof,hc⟩ := issued_message (owned_row hrow howner) h hnext
  have hpivot : pivotOf L python other row' messages (some c) = .error badMessageCursor := by
    rw [hc]
    exact pivotOf_refused hm hof hapart
  simp only [get,owned_row hrow' hother,hpivot,bind,Except.bind]

/-- Following the cursors of a listing ends and shows all its rows. -/
def Listed (list : Option Text → Except HistoryError (HistoryPage β)) (items : List β) : Prop :=
  ∃ pages, Follows list HistoryPage.nextCursor none pages none ∧
    pages.flatMap HistoryPage.items = items

/-- Its cursors are refused by another listing. -/
def Refused (list others : Option Text → Except HistoryError (HistoryPage β))
    (e : HistoryError) : Prop :=
  ∀ cursor page c, list cursor = .ok page → page.nextCursor = some c → others (some c) = .error e

structure Codec (L : Library) (python : Interpreter) : Prop where
  same : ∀ (tenantId userId : UUID) (at' : IsoDatetime) (ident : UUID) (utc : Datetime),
    utc.instant = instant at' → isUUID7 ident = true →
      decodeCursor L python (some (encodeCursor tenantId userId at' ident)) tenantId userId =
        .ok (some (utc,ident))
  refused : ∀ (tenantId userId : UUID) (at' : IsoDatetime) (ident tenant user : UUID),
    ¬((tenantId = tenant ∧ userId = user) ∧ isUUID7 ident = true ∧
      ∃ utc : Datetime, utc.instant = instant at') →
      decodeCursor L python (some (encodeCursor tenantId userId at' ident)) tenant user =
        .error "invalid_history_cursor"

theorem toUtc_instant {at' : IsoDatetime} {utc : Datetime} (h : utc.instant = instant at') :
    toUtc at' = some utc := by
  have hrange : minDatetime ≤ instant at' ∧ instant at' < maxDatetime :=
    ⟨h ▸ utc.first,h ▸ utc.last⟩
  obtain ⟨value,first,last⟩ := utc
  subst h
  exact dif_pos hrange

theorem codec (L : Library) (python : Interpreter) : Codec L python where
  same := by
    intro tenantId userId at' ident utc hutc hident
    rw [decodeCursor,readCursor_encode,if_pos ⟨⟨rfl,rfl⟩,hident⟩,toUtc_instant hutc]
    rfl
  refused := by
    intro tenantId userId at' ident tenant user hnot
    rw [decodeCursor,readCursor_encode]
    by_cases hsame : (tenantId = tenant ∧ userId = user) ∧ isUUID7 ident = true
    · have hnone : toUtc at' = none := by
        apply dif_neg
        intro hrange
        exact hnot ⟨hsame.1,hsame.2,⟨instant at',hrange.1,hrange.2⟩,rfl⟩
      rw [if_pos hsame,hnone]
      rfl
    · rw [if_neg hsame]

/-- Each of the three histories is shown completely and in order, and its cursors are good
for the caller they were issued to. -/
theorem histories_followed (L : Library) (python : Interpreter) (owner : Owner) :
    Codec L python ∧
    (∀ (t : Stored conversationColumns) (limit : ℤ), 1 ≤ limit ∧ limit ≤ 100 →
      Listed (listConversations L python owner t limit) ((newestFirst conversationColumns
        (t.rows.filter (ownsConversation owner))).map summary) ∧
      ∀ other limit', OtherCaller owner other → 1 ≤ limit' ∧ limit' ≤ 100 →
        Refused (listConversations L python owner t limit)
          (listConversations L python other t limit')
          (.conversationError "invalid_history_cursor" 422)) ∧
    (∀ (t : Stored runColumns) (limit : ℤ), 1 ≤ limit ∧ limit ≤ 100 →
      Listed (listOwned L python owner t limit) ((newestFirst runColumns
        (t.rows.filter (ownsRun owner))).map runSummary) ∧
      ∀ other limit', OtherCaller owner other → 1 ≤ limit' ∧ limit' ≤ 100 →
        Refused (listOwned L python owner t limit) (listOwned L python other t limit')
          (.reviewError "invalid_review_request")) ∧
    ∀ (conversations : Stored conversationColumns) (messages : MessageTable),
      ∀ row ∈ conversations.rows, ownsConversation owner row = true →
        (∃ pages, Follows (get L python owner conversations messages row.id)
          ConversationDetail.nextMessageCursor none pages none ∧
          (pages.flatMap fun d => d.messages.reverse) =
            (latestFirst (messages.rows.filter (ofConversation row))).map messageView) ∧
        ∀ other, ∀ row' ∈ conversations.rows, ownsConversation other row' = true →
          (OtherCaller owner other ∨ row'.id ≠ row.id) → ∀ cursor d c,
            get L python owner conversations messages row.id cursor = .ok d →
            d.nextMessageCursor = some c →
            get L python other conversations messages row'.id (some c) =
              .error badMessageCursor := by
  refine ⟨codec L python,?_,?_,?_⟩
  · intro t limit hlimit
    apply And.intro (history_listed hlimit)
    intro other limit' hother hlimit' cursor page c hpage hnext
    exact history_refused hpage hnext hother hlimit'
  · intro t limit hlimit
    apply And.intro (history_listed hlimit)
    intro other limit' hother hlimit' cursor page c hpage hnext
    exact history_refused hpage hnext hother hlimit'
  · intro conversations messages row hrow howner
    apply And.intro (messages_listed hrow howner)
    intro other row' hrow' hother hapart cursor d c hd hnext
    exact messages_refused hrow howner hrow' hother hd hnext hapart

def noLibrary : Library := ⟨fun _ => none,fun _ => none,fun _ => none⟩

def hundredFrames : Interpreter := ⟨100,le_rfl⟩

def sampleOwner : Owner := ⟨⟨0,0,1⟩,⟨0,0,2⟩,⟨0,0,3⟩⟩

def epoch : Datetime := ⟨0,by decide,by decide⟩

def sampleConversation (n : BitVec 62) : ConversationModel where
  id := ⟨0,0,n⟩
  tenantId := ⟨0,0,1⟩
  creatorUserId := ⟨0,0,2⟩
  title := "lease"
  contractReviewId := none
  updatedAt := epoch

def sampleConversations : Stored conversationColumns where
  rows := [sampleConversation 7,sampleConversation 8]
  keys := by decide

theorem sample_followed :
    decodeCursor noLibrary hundredFrames (some (encodeCursor 1 2 (naive epoch)
      (⟨0,0,7⟩ : UUID7).int)) 1 2 = .ok (some (epoch,(⟨0,0,7⟩ : UUID7).int)) ∧
    Listed (listConversations noLibrary hundredFrames sampleOwner sampleConversations 1)
      ((newestFirst conversationColumns (sampleConversations.rows.filter
        (ownsConversation sampleOwner))).map summary) ∧
    Refused (listConversations noLibrary hundredFrames sampleOwner sampleConversations 1)
      (listConversations noLibrary hundredFrames ⟨⟨0,0,9⟩,⟨0,0,2⟩,⟨0,0,3⟩⟩ sampleConversations 1)
      (.conversationError "invalid_history_cursor" 422) := by
  obtain ⟨hcodec,hlists,-,-⟩ := histories_followed noLibrary hundredFrames sampleOwner
  have hlimit : (1 : ℤ) ≤ 1 ∧ (1 : ℤ) ≤ 100 := by decide
  obtain ⟨hlisted,hrefused⟩ := hlists sampleConversations 1 hlimit
  have hother : OtherCaller sampleOwner ⟨⟨0,0,9⟩,⟨0,0,2⟩,⟨0,0,3⟩⟩ := .inl (by decide)
  exact ⟨hcodec.same 1 2 (naive epoch) (⟨0,0,7⟩ : UUID7).int epoch rfl (int_isUUID7 _),hlisted,
    hrefused _ 1 hother hlimit⟩

/-- An identifier that is no UUIDv7 is not read back. -/
theorem plain_uuid_refused : ¬ ∀ (L : Library) (python : Interpreter) (tenantId userId : UUID)
    (at' : IsoDatetime) (ident : UUID), ∃ utc : Datetime, utc.instant = instant at' ∧
      decodeCursor L python (some (encodeCursor tenantId userId at' ident)) tenantId userId =
        .ok (some (utc,ident)) := by
  intro h
  obtain ⟨utc,-,hread⟩ := h noLibrary hundredFrames 1 2 (naive epoch) 0
  have hplain : isUUID7 0 = false := by decide
  have hrefused := (codec noLibrary hundredFrames).refused 1 2 (naive epoch) 0 1 2 (by
    intro hall
    rw [hplain] at hall
    exact Bool.false_ne_true hall.2.1)
  rw [hrefused] at hread
  cases hread

end LawyerAgent.HistoryPages
