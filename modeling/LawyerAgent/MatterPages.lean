import LawyerAgent.MatterChanges
import LawyerAgent.Outcomes.Except
import LawyerAgent.Paging.Keyset
import LawyerAgent.Patterns.Like
import LawyerAgent.PythonRepr
import Mathlib.Data.Prod.Lex

/-!
# Pages of a tenant's matters

`list_matters` reads the matters of a tenant from the newest on, one page at a
time. A page starts behind the matter its caller names. The text of the title
filter is put between two percent signs as it is, so a wildcard in it finds
titles that do not contain it.
-/

set_option autoImplicit false

namespace LawyerAgent.MatterPages
open Common PythonText
open MatterChanges
open Outcomes (require require_ok bind_ok)
open Paging Patterns

structure TenantMatterModel extends Matter where
  createdAt : Time

structure MatterTable where
  rows : List TenantMatterModel
  keys : (rows.map fun row => row.id).Nodup

structure ListQuery where
  limit : ℤ
  title : Option String
  status : Option MatterStatus
  kind : Option MatterKind

inductive MatterListError where
  | valueError (message : String)
  | cursorInvalid (message : String)

/-- `column.contains(text)` -/
def contains (column text : List Char) : Bool := like ('%'::(text++['%'])) column

def titleFilter (title : String) : List Char := strip title.toList

/-- Of the tenant, and as the filters of status and kind want it. -/
def narrowed (tenantId : UUID7) (q : ListQuery) (row : TenantMatterModel) : Bool :=
  row.tenantId == tenantId && q.status.all (row.status == ·) && q.kind.all (row.kind == ·)

def selected (tenantId : UUID7) (q : ListQuery) (row : TenantMatterModel) : Bool :=
  narrowed tenantId q row && q.title.all fun title => contains row.title.toList (titleFilter title)

def position (row : TenantMatterModel) : ℤ ×ₗ ℕ := toLex (row.createdAt,row.id.int.toNat)

/-- `ORDER BY created_at DESC, id DESC` -/
def newestFirst (rows : List TenantMatterModel) : List TenantMatterModel :=
  ordered (fun row => OrderDual.toDual (position row)) rows

def anchorOf (t : MatterTable) (tenantId beforeId : UUID7) : Option Time :=
  (t.rows.find? fun row => row.tenantId == tenantId && row.id == beforeId).map
    TenantMatterModel.createdAt

/-- Older than the anchor, or as old and with a smaller id. -/
def older (anchor : Option (Time × UUID7)) (row : TenantMatterModel) : Bool :=
  anchor.all fun a => decide (row.createdAt < a.1 ∨
    row.createdAt = a.1 ∧ row.id.int.toNat < a.2.int.toNat)

def queryChecks (q : ListQuery) : Except MatterListError Unit := do
  require (1 ≤ q.limit ∧ q.limit ≤ 100)
    (.valueError "matter list limit must be between 1 and 100")
  require (q.title.all (fun title => !(titleFilter title).isEmpty) = true)
    (.valueError "matter list title filter must be non-blank text")

def anchored (t : MatterTable) (tenantId : UUID7) :
    Option UUID7 → Except MatterListError (Option (Time × UUID7))
  | none => .ok none
  | some beforeId =>
    match anchorOf t tenantId beforeId with
    | none => .error (.cursorInvalid "matter list cursor is not in this tenant")
    | some anchor => .ok (some (anchor,beforeId))

def listMatters (t : MatterTable) (tenantId : UUID7) (q : ListQuery)
    (beforeId : Option UUID7) : Except MatterListError (List Matter) := do
  queryChecks q
  let anchor ← anchored t tenantId beforeId
  let rows := t.rows.filter fun row => selected tenantId q row && older anchor row
  .ok (((newestFirst rows).take q.limit.toNat).map TenantMatterModel.toMatter)

/-- The last id of a full page is where the next one starts. -/
def nextBefore (q : ListQuery) (page : List Matter) : Option UUID7 :=
  if page.length < q.limit.toNat then none else page.getLast?.map fun m => m.id

def wanted (tenantId : UUID7) (q : ListQuery) (row : TenantMatterModel) : Bool :=
  narrowed tenantId q row && q.title.all fun title =>
    decide (titleFilter title <:+: row.title.toList)

/-- The pages that follow each other end, and show every wanted matter once, the newest first. -/
def Exact (t : MatterTable) (tenantId : UUID7) (q : ListQuery) : Prop :=
  ∃ pages, Follows (listMatters t tenantId q) (nextBefore q) none pages none ∧
    pages.flatten = (newestFirst (t.rows.filter (wanted tenantId q))).map
      TenantMatterModel.toMatter

theorem position_inj {row other : TenantMatterModel} (h : position row = position other) :
    row.id = other.id := by
  unfold position at h
  rw [toLex_inj,Prod.mk.injEq] at h
  exact PythonRepr.int_inj (BitVec.eq_of_toNat_eq h.2)

theorem positions_nodup (t : MatterTable) (p : TenantMatterModel → Bool) :
    ((t.rows.filter p).map fun row => OrderDual.toDual (position row)).Nodup := by
  apply List.pairwise_map.mpr
  apply ((List.pairwise_map.mp t.keys).filter _).imp
  intro row other hapart hsame
  exact hapart (position_inj (OrderDual.toDual_inj.mp hsame))

theorem older_iff {row other : TenantMatterModel} :
    older (some (other.createdAt,other.id)) row = true ↔
      OrderDual.toDual (position other) < OrderDual.toDual (position row) := by
  rw [OrderDual.toDual_lt_toDual,position,position,Prod.Lex.toLex_lt_toLex]
  exact decide_eq_true_iff

theorem row_unique {t : MatterTable} {row other : TenantMatterModel} (h : row ∈ t.rows)
    (h' : other ∈ t.rows) (hid : other.id = row.id) : other = row :=
  List.inj_on_of_nodup_map t.keys h' h hid

variable {row : TenantMatterModel}

theorem anchorOf_row {t : MatterTable} (h : row ∈ t.rows) :
    anchorOf t row.tenantId row.id = some row.createdAt := by
  rw [anchorOf]
  cases hfind : t.rows.find? fun other => other.tenantId == row.tenantId && other.id == row.id with
  | none =>
    have hmiss := List.find?_eq_none.mp hfind row h
    simp at hmiss
  | some other =>
    have hmatch := List.find?_some hfind
    simp only [Bool.and_eq_true,beq_iff_eq] at hmatch
    rw [row_unique h (List.mem_of_find?_eq_some hfind) hmatch.2]
    rfl

variable {t : MatterTable} {tenantId : UUID7} {q : ListQuery}

/-- All selected rows, or those behind a selected row. -/
def Place (t : MatterTable) (tenantId : UUID7) (q : ListQuery) (beforeId : Option UUID7)
    (rest : List TenantMatterModel) : Prop :=
  beforeId = none ∧ rest = newestFirst (t.rows.filter (selected tenantId q)) ∨
    ∃ before row, beforeId = some row.id ∧
      newestFirst (t.rows.filter (selected tenantId q)) = before++row::rest

def Shows (page : List Matter) (part : List TenantMatterModel) : Prop :=
  page = part.map TenantMatterModel.toMatter

theorem newestFirst_mem {rows : List TenantMatterModel} :
    row ∈ newestFirst rows ↔ row ∈ rows := (ordered_perm rows).mem_iff

theorem selected_tenant (h : selected tenantId q row = true) :
    row.tenantId = tenantId := by
  simp only [selected,narrowed,Bool.and_eq_true,beq_iff_eq] at h
  exact h.1.1.1

theorem page_of_place {beforeId : Option UUID7} {rest : List TenantMatterModel}
    (hquery : queryChecks q = .ok ()) (h : Place t tenantId q beforeId rest) :
    listMatters t tenantId q beforeId =
      .ok ((rest.take q.limit.toNat).map TenantMatterModel.toMatter) := by
  rcases h with ⟨rfl,rfl⟩ | ⟨before,row,rfl,hsplit⟩
  · have hrows : (t.rows.filter fun row => selected tenantId q row && older none row) =
        t.rows.filter (selected tenantId q) := by
      apply List.filter_congr
      intro row _
      exact Bool.and_true _
    rw [listMatters,hquery]
    change Except.ok (((newestFirst (t.rows.filter fun row =>
      selected tenantId q row && older none row)).take q.limit.toNat).map _) = _
    rw [hrows]
  · have hmem : row ∈ t.rows.filter (selected tenantId q) := by
      apply newestFirst_mem.mp
      rw [hsplit]
      exact List.mem_append_right _ List.mem_cons_self
    obtain ⟨hrow,hselected⟩ := List.mem_filter.mp hmem
    have hanchor : anchored t tenantId (some row.id) = .ok (some (row.createdAt,row.id)) := by
      rw [anchored,← selected_tenant hselected,anchorOf_row hrow]
    have hrows : newestFirst (t.rows.filter fun other =>
        selected tenantId q other && older (some (row.createdAt,row.id)) other) = rest := by
      rw [← behind_rest (positions_nodup t _) hsplit,behind,List.filter_filter,newestFirst]
      congr 1
      apply List.filter_congr
      intro other _
      have holder : older (some (row.createdAt,row.id)) other =
          decide (OrderDual.toDual (position row) < OrderDual.toDual (position other)) := by
        apply Bool.eq_iff_iff.mpr
        rw [older_iff,decide_eq_true_iff]
      rw [holder,Bool.and_comm]
      rfl
    rw [listMatters,hquery,hanchor]
    change Except.ok (((newestFirst (t.rows.filter fun other =>
      selected tenantId q other && older (some (row.createdAt,row.id)) other)).take
        q.limit.toNat).map _) = _
    rw [hrows]

theorem place_front {beforeId : Option UUID7} {rest : List TenantMatterModel}
    (h : Place t tenantId q beforeId rest) :
    ∃ front, newestFirst (t.rows.filter (selected tenantId q)) = front++rest := by
  rcases h with ⟨-,rfl⟩ | ⟨before,row,-,hsplit⟩
  · exact ⟨[],rfl⟩
  · exact ⟨before++[row],by rw [hsplit,List.append_assoc]; rfl⟩

theorem turn (hquery : queryChecks q = .ok ()) (beforeId : Option UUID7)
    (rest : List TenantMatterModel) (h : Place t tenantId q beforeId rest) :
    Turn (listMatters t tenantId q) (nextBefore q) (Place t tenantId q) Shows none beforeId
      rest := by
  have hpage := page_of_place hquery h
  have hlimit : 0 < q.limit.toNat := by
    obtain ⟨_,hrange,-⟩ := bind_ok.mp hquery
    have hrange := require_ok.mp hrange
    omega
  by_cases hshort : rest.length < q.limit.toNat
  · have htake : rest.take q.limit.toNat = rest := List.take_of_length_le (by omega)
    rw [htake] at hpage
    have hnext : nextBefore q (rest.map TenantMatterModel.toMatter) = none := by
      rw [nextBefore,List.length_map,if_pos hshort]
    have hshows : Shows (rest.map TenantMatterModel.toMatter) rest := rfl
    exact .last hpage hnext hshows rfl
  · have hne : rest.take q.limit.toNat ≠ [] := by
      rw [← List.length_pos_iff,List.length_take]
      omega
    obtain ⟨part,row,hpart⟩ : ∃ part row, rest.take q.limit.toNat = part++[row] :=
      ⟨_,_,(List.dropLast_append_getLast hne).symm⟩
    have hlength : (part++[row]).length = q.limit.toNat := by
      rw [← hpart,List.length_take]
      omega
    have hsplit : rest = (part++[row])++rest.drop q.limit.toNat := by
      rw [← hpart,List.take_append_drop]
    obtain ⟨front,hfront⟩ := place_front h
    have hplace : Place t tenantId q (some row.id) (rest.drop q.limit.toNat) := by
      refine .inr ⟨front++part,row,rfl,?_⟩
      rw [hfront,List.append_assoc]
      exact congrArg (front++·) (hsplit.trans (List.append_assoc _ _ _))
    rw [hpart] at hpage
    have hnext : nextBefore q ((part++[row]).map TenantMatterModel.toMatter) = some row.id := by
      rw [nextBefore,List.length_map,hlength,if_neg (lt_irrefl _),List.map_append]
      simp
    have hshows : Shows ((part++[row]).map TenantMatterModel.toMatter) (part++[row]) := rfl
    rw [hsplit]
    exact .more hpage hnext (by simp) hshows hplace

theorem shows_flatten {pages : List (List Matter)} {parts : List (List TenantMatterModel)}
    (h : List.Forall₂ Shows pages parts) :
    pages.flatten = parts.flatten.map TenantMatterModel.toMatter := by
  induction h with
  | nil => rfl
  | cons hpage _ ih => rw [List.flatten_cons,List.flatten_cons,List.map_append,ih,hpage]

theorem pages_selected (t : MatterTable) (tenantId : UUID7) (hquery : queryChecks q = .ok ()) :
    ∃ pages, Follows (listMatters t tenantId q) (nextBefore q) none pages none ∧
      pages.flatten = (newestFirst (t.rows.filter (selected tenantId q))).map
        TenantMatterModel.toMatter := by
  have hplace : Place t tenantId q none (newestFirst (t.rows.filter (selected tenantId q))) :=
    .inl ⟨rfl,rfl⟩
  obtain ⟨pages,parts,hfollows,hshows,hflat⟩ := follow_all (turn hquery) hplace
  exact ⟨pages,hfollows,by rw [shows_flatten hshows,hflat]⟩

/-- The pattern of the filter finds the title exactly when the title contains the text. -/
def Faithful (q : ListQuery) (row : TenantMatterModel) : Prop :=
  ∀ title, q.title = some title → (contains row.title.toList (titleFilter title) = true ↔
    titleFilter title <:+: row.title.toList)

theorem faithful_iff (h : narrowed tenantId q row = true) :
    Faithful q row ↔ selected tenantId q row = wanted tenantId q row := by
  rw [Faithful,selected,wanted,h,Bool.true_and,Bool.true_and]
  cases q.title with
  | none => simp
  | some title =>
    rw [Option.all_some,Option.all_some,Bool.eq_iff_iff,decide_eq_true_iff]
    exact ⟨fun h => h title rfl,fun h other hother => Option.some.inj hother ▸ h⟩

theorem shown_row {p r : TenantMatterModel → Bool}
    (h : (newestFirst (t.rows.filter p)).map TenantMatterModel.toMatter = (newestFirst
      (t.rows.filter r)).map TenantMatterModel.toMatter)
    (hrow : row ∈ t.rows) (hp : p row = true) : r row = true := by
  have hmem : row.toMatter ∈ (newestFirst (t.rows.filter p)).map TenantMatterModel.toMatter :=
    List.mem_map_of_mem (newestFirst_mem.mpr (List.mem_filter.mpr ⟨hrow,hp⟩))
  rw [h] at hmem
  obtain ⟨other,hother,hsame⟩ := List.mem_map.mp hmem
  obtain ⟨hin,hr⟩ := List.mem_filter.mp (newestFirst_mem.mp hother)
  have hid : other.id = row.id := congrArg (fun m : Matter => m.id) hsame
  rw [row_unique hrow hin hid] at hr
  exact hr

theorem exact_iff (hquery : queryChecks q = .ok ()) : Exact t tenantId q ↔
    ∀ row ∈ t.rows, narrowed tenantId q row = true → Faithful q row := by
  obtain ⟨pages,hfollows,hflat⟩ := pages_selected t tenantId hquery
  constructor
  · intro hexact row hrow hnarrowed
    obtain ⟨others,hothers,hwanted⟩ := hexact
    rw [(follows_unique hothers hfollows).1,hflat] at hwanted
    apply (faithful_iff hnarrowed).mpr
    apply Bool.eq_iff_iff.mpr
    exact ⟨shown_row hwanted hrow,shown_row hwanted.symm hrow⟩
  · intro hfaithful
    refine ⟨pages,hfollows,?_⟩
    have hrows : t.rows.filter (selected tenantId q) = t.rows.filter (wanted tenantId q) := by
      apply List.filter_congr
      intro row hrow
      by_cases hnarrowed : narrowed tenantId q row = true
      · exact (faithful_iff hnarrowed).mp (hfaithful row hrow hnarrowed)
      · rw [selected,wanted,eq_false_of_ne_true hnarrowed,Bool.false_and,Bool.false_and]
    rw [hflat,hrows]

def bareMatter (q : ListQuery) (title : List Char) : TenantMatterModel where
  id := ⟨0,0,1⟩
  tenantId := ⟨0,0,2⟩
  title := String.ofList title
  kind := q.kind.getD .other
  status := q.status.getD .open
  description := none
  createdByUserId := ⟨0,0,3⟩
  createdByMembershipId := ⟨0,0,4⟩
  ownerMembershipId := none
  version := 1
  createdAt := 0

theorem bareMatter_narrowed (q : ListQuery) (title : List Char) :
    narrowed ⟨0,0,2⟩ q (bareMatter q title) = true := by
  rw [narrowed,bareMatter]
  cases q.status with
  | none => cases q.kind <;> simp
  | some status => cases q.kind <;> simp

def bareTable (q : ListQuery) (title : List Char) : MatterTable where
  rows := [bareMatter q title]
  keys := List.nodup_singleton _

/-- The pages are exact for a table when the pattern is faithful to its titles, and for
all tables when the text of the filter has no wildcard and no backslash. -/
theorem matters_exact (q : ListQuery) (hquery : queryChecks q = .ok ()) :
    (∀ t tenantId, Exact t tenantId q ↔
      ∀ row ∈ t.rows, narrowed tenantId q row = true → Faithful q row) ∧
    ((∀ t tenantId, Exact t tenantId q) ↔
      ∀ title, q.title = some title → Plain (titleFilter title)) := by
  apply And.intro fun t tenantId => exact_iff hquery
  constructor
  · intro hexact title htitle
    by_contra hother
    obtain ⟨hlike,hfound⟩ := like_other hother
    have hfaithful := (exact_iff hquery).mp
      (hexact (bareTable q ('x'::sample (titleFilter title))) ⟨0,0,2⟩) _ (List.mem_singleton_self _)
      (bareMatter_narrowed q _) title htitle
    rw [bareMatter,String.toList_ofList] at hfaithful
    exact hfound (hfaithful.mp hlike)
  · intro hplain t tenantId
    apply (exact_iff hquery).mpr
    intro row _ _ title htitle
    exact like_plain (hplain title htitle) _

def titleQuery (title : String) : ListQuery := ⟨20,some title,none,none⟩

theorem titleQuery_ok {title : String} (h : (titleFilter title).isEmpty = false) :
    queryChecks (titleQuery title) = .ok () :=
  bind_ok.mpr ⟨(),require_ok.mpr ⟨by simp [titleQuery],by simp [titleQuery]⟩,
    require_ok.mpr (by simp [titleQuery,h])⟩

theorem rent_exact : queryChecks (titleQuery " rent ") = .ok () ∧
    ∀ t tenantId, Exact t tenantId (titleQuery " rent ") := by
  have hquery : queryChecks (titleQuery " rent ") = .ok () := titleQuery_ok (by decide)
  have hplain : Plain (titleFilter " rent ") := by decide
  apply And.intro hquery
  apply (matters_exact _ hquery).2.mpr
  intro title htitle
  exact Option.some.inj htitle ▸ hplain

/-- The low line of the filter finds a title that does not contain it. -/
theorem line_overmatched : ¬ Exact (bareTable (titleQuery "a_c") ['a','b','c']) ⟨0,0,2⟩
    (titleQuery "a_c") := by
  have hquery : queryChecks (titleQuery "a_c") = .ok () := titleQuery_ok (by decide)
  intro hexact
  have hfaithful := (exact_iff hquery).mp hexact _ (List.mem_singleton_self _)
    (bareMatter_narrowed _ _) "a_c" rfl
  rw [bareMatter,String.toList_ofList] at hfaithful
  have hlike : contains ['a','b','c'] (titleFilter "a_c") = true := by decide
  have hfound : ¬ titleFilter "a_c" <:+: ['a','b','c'] := by decide
  exact hfound (hfaithful.mp hlike)

end LawyerAgent.MatterPages
