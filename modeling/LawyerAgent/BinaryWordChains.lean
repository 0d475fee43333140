import LawyerAgent.BinaryWordText

/-!
# Chains and loops of the compound file

A chain claims every sector it follows, so a second visit stops it and no two
chains share a sector. The same count bounds every loop of the reader.
-/

set_option autoImplicit false

namespace LawyerAgent.BinaryWordText
open Linked

variable {α β : Type}

variable {f : α → Attempt β} {table : List ℕ} {v : Volume} {mini : MiniVolume}

theorem attempt_bind_ok {x : Attempt α} {b : β} :
    x >>= f = .ok b ↔ ∃ a, x = .ok a ∧ f a = .ok b := by
  cases x with
  | error e => simp [bind,Except.bind]
  | ok a => simp [bind,Except.bind]

theorem attempt_pure_ok {a b : α} : (pure a : Attempt α) = .ok b ↔ a = b := by
  simp [pure,Except.pure]

theorem check_ok {condition : Bool} {code : String} {u : Unit} :
    check condition code = .ok u ↔ condition = true := by
  cases condition <;> simp [check]

/-- The step is not a loop that was cut off. -/
def Finishes (x : Attempt α) : Prop := x ≠ .error .unfinished

@[simp] theorem finishes_bind {x : Attempt α} :
    Finishes (x >>= f) ↔ Finishes x ∧ ∀ a, x = .ok a → Finishes (f a) := by
  cases x with
  | error e => simp [Finishes,bind,Except.bind]
  | ok a => simp [Finishes,bind,Except.bind]

@[simp] theorem finishes_map {x : Attempt α} {f : α → β} :
    Finishes (f <$> x) ↔ Finishes x := by
  cases x with
  | error e => simp [Finishes,Functor.map,Except.map]
  | ok a => simp [Finishes,Functor.map,Except.map]

@[simp] theorem finishes_ok (a : α) : Finishes (.ok a : Attempt α) := by simp [Finishes]

@[simp] theorem finishes_pure (a : α) : Finishes (pure a : Attempt α) := finishes_ok a

@[simp] theorem finishes_error {e : Raised} :
    Finishes (.error e : Attempt α) ↔ e ≠ .unfinished := by simp [Finishes]

@[simp] theorem finishes_check (condition : Bool) (code : String) :
    Finishes (check condition code) := by
  cases condition <;> simp [check]

@[simp] theorem finishes_ite {p : Prop} [Decidable p] {x y : Attempt α} :
    Finishes (if p then x else y) ↔ (p → Finishes x) ∧ (¬p → Finishes y) := by
  by_cases h : p <;> simp [h]

@[simp] theorem finishes_unpackFrom (width : ℕ) (data : Bytes) (offset : ℕ) :
    Finishes (unpackFrom width data offset) := by
  unfold unpackFrom
  split <;> simp

@[simp] theorem finishes_u16 (data : Bytes) (offset : ℕ) : Finishes (u16 data offset) :=
  finishes_unpackFrom 2 data offset

@[simp] theorem finishes_u32 (data : Bytes) (offset : ℕ) : Finishes (u32 data offset) :=
  finishes_unpackFrom 4 data offset

@[simp] theorem finishes_u64 (data : Bytes) (offset : ℕ) : Finishes (u64 data offset) :=
  finishes_unpackFrom 8 data offset

@[simp] theorem finishes_is {value : Attempt ℕ} {expected : ℕ} :
    Finishes (is value expected) ↔ Finishes value := by simp [is]

theorem finishes_both {first second : Attempt Bool} (h : Finishes first)
    (hsecond : Finishes second) : Finishes (both first second) := by
  refine finishes_bind.mpr ⟨h,fun condition _ => ?_⟩
  cases condition with
  | false => exact finishes_ok false
  | true => exact hsecond

@[simp] theorem finishes_both_is {value other : Attempt ℕ} (expected expected' : ℕ)
    (h : Finishes value) (hother : Finishes other) :
    Finishes (both (is value expected) (is other expected')) :=
  finishes_both (finishes_is.mpr h) (finishes_is.mpr hother)

@[simp] theorem finishes_byteAt (data : Bytes) (index : ℕ) : Finishes (byteAt data index) := by
  unfold byteAt
  split <;> simp

@[simp] theorem finishes_unpackWords (count : ℕ) (data : Bytes) :
    Finishes (unpackWords count data) := by
  unfold unpackWords
  split <;> simp

theorem finishes_mapM (h : ∀ a, Finishes (f a)) (items : List α) :
    Finishes (items.mapM f) := by
  induction items with
  | nil => exact finishes_ok []
  | cons a items ih => simp [List.mapM_cons,h,ih]

@[simp] theorem finishes_u32s (data : Bytes) (offsets : List ℕ) : Finishes (u32s data offsets) :=
  finishes_mapM (finishes_u32 data) offsets

theorem finishes_decodeUnits (units : List ℕ) : Finishes (decodeUnits units) := by
  induction units using decodeUnits.induct with
  | case1 => exact finishes_ok []
  | case2 unit h => simp [decodeUnits,h]
  | case3 unit h => simp [decodeUnits,h]
  | case4 unit next rest hhigh hlow ih => simp [decodeUnits,hhigh,hlow,ih]
  | case5 unit next rest hhigh hlow => simp [decodeUnits,hhigh,hlow]
  | case6 unit next rest hhigh hlow => simp [decodeUnits,hhigh,hlow]
  | case7 unit next rest hhigh hlow ih => simp [decodeUnits,hhigh,hlow,ih]

@[simp] theorem finishes_decodeUtf16 (data : Bytes) : Finishes (decodeUtf16 data) := by
  unfold decodeUtf16
  split
  · exact finishes_decodeUnits _
  · simp

@[simp] theorem finishes_claim (sid : ℕ) (used : List ℕ) : Finishes (claim sid used) := by
  simp [claim]

@[simp] theorem finishes_linkAt (table : List ℕ) (sid : ℕ) : Finishes (linkAt table sid) := by
  unfold linkAt
  split <;> simp

@[simp] theorem finishes_entryAt (entries : Entries) (index : ℕ) :
    Finishes (entryAt entries index) := by
  unfold entryAt
  split <;> simp

@[simp] theorem finishes_sector (payload : Bytes) (sectors sid : ℕ) :
    Finishes (sector payload sectors sid) := by
  simp [sector]

theorem claim_ok {sid : ℕ} {used used' : List ℕ} :
    claim sid used = .ok used' ↔ sid ∉ used ∧ used' = used++[sid] := by
  simp only [claim,attempt_bind_ok,check_ok,attempt_pure_ok]
  constructor
  · rintro ⟨-,hnew,rfl⟩
    exact ⟨by simpa using hnew,rfl⟩
  · rintro ⟨hnew,rfl⟩
    exact ⟨(),by simpa using hnew,rfl⟩

theorem linkAt_ok {sid next : ℕ} :
    linkAt table sid = .ok next ↔ table[sid]? = some next := by
  unfold linkAt
  cases table[sid]? <;> simp

theorem nodup_snoc {used : List ℕ} {sid : ℕ} (h : used.Nodup) (hnew : sid ∉ used) :
    (used++[sid]).Nodup :=
  List.nodup_append.mpr ⟨h,List.nodup_singleton sid,fun a ha b hb => by
    rintro rfl
    exact hnew ((List.mem_singleton.mp hb) ▸ ha)⟩

/-- A chain that ends follows the links, stays below its bound and claims what
was free. -/
theorem chainFrom_ok {bound fuel cursor : ℕ} {used result : List ℕ} {found : List ℕ × List ℕ}
    (h : chainFrom table bound fuel cursor used result = .ok found) :
    ∃ cells, found.1 = result++cells ∧ found.2 = used++cells ∧
      Follows table endOfChain cursor cells ∧ (∀ c ∈ cells, c < bound) ∧
      (used.Nodup → found.2.Nodup) := by
  induction fuel generalizing cursor used result with
  | zero =>
    unfold chainFrom at h
    split at h
    · rename_i hend
      cases h
      exact ⟨[],by simp,by simp,hend,by simp,id⟩
    · cases h
  | succ fuel ih =>
    unfold chainFrom at h
    split at h
    · rename_i hend
      cases h
      exact ⟨[],by simp,by simp,hend,by simp,id⟩
    · rename_i hend
      simp only [attempt_bind_ok,check_ok,claim_ok,linkAt_ok] at h
      obtain ⟨-,hbound,_,⟨hnew,rfl⟩,next,hnext,h⟩ := h
      obtain ⟨cells,hids,hused,hfollows,hcells,hnodup⟩ := ih h
      simp only [decide_eq_true_eq] at hbound
      refine ⟨cursor::cells,by simp [hids],by simp [hused],⟨rfl,hend,next,hnext,hfollows⟩,?_,
        fun hn => hnodup (nodup_snoc hn hnew)⟩
      intro c hc
      rcases List.mem_cons.mp hc with rfl | hc
      · omega
      · exact hcells c hc

/-- The loop ends: after one more step than there are cells a cell would have
been claimed twice. -/
theorem chainFrom_finishes {bound fuel cursor : ℕ} {used result : List ℕ} (hresult : result.Nodup)
    (hsubset : ∀ c ∈ result, c ∈ used ∧ c < bound) (hfuel : bound+1 ≤ fuel+result.length) :
    Finishes (chainFrom table bound fuel cursor used result) := by
  induction fuel generalizing cursor used result with
  | zero =>
    have hlength := length_le_of_nodup hresult fun c hc => (hsubset c hc).2
    omega
  | succ fuel ih =>
    unfold chainFrom
    split
    · exact finishes_ok _
    · simp only [finishes_bind,finishes_check,finishes_claim,finishes_linkAt,true_and,check_ok,
        claim_ok,decide_eq_true_eq]
      rintro - hbound _ ⟨hnew,rfl⟩ next -
      refine ih (nodup_snoc hresult fun hc => hnew (hsubset cursor hc).1) ?_ ?_
      · intro c hc
        rcases List.mem_append.mp hc with hc | hc
        · exact ⟨List.mem_append_left _ (hsubset c hc).1,(hsubset c hc).2⟩
        · obtain rfl := List.mem_singleton.mp hc
          exact ⟨List.mem_append_right _ hc,by omega⟩
      · rw [List.length_append,List.length_singleton]
        omega

/-- The claimed sectors are those of the chains, each once. -/
structure Claims.Sound (c : Claims) : Prop where
  used_eq : c.used = c.chains.flatten
  nodup : c.used.Nodup

variable {claims : Claims}

theorem chain_ok {start bound : ℕ} {found : List ℕ × Claims}
    (h : chain start table bound claims = .ok found) (hclaims : claims.Sound) :
    found.2.Sound ∧ found.2.chains = claims.chains++[found.1] ∧
    Follows table endOfChain start found.1 ∧ ∀ c ∈ found.1, c < bound := by
  simp only [chain,attempt_bind_ok,attempt_pure_ok] at h
  obtain ⟨walked,hwalked,rfl⟩ := h
  obtain ⟨cells,hids,hused,hfollows,hcells,hnodup⟩ := chainFrom_ok hwalked
  rw [List.nil_append] at hids
  refine ⟨⟨?_,hnodup hclaims.nodup⟩,rfl,hids ▸ hfollows,hids ▸ hcells⟩
  simp [hused,hids,hclaims.used_eq]

@[simp] theorem finishes_chain (start : ℕ) (table : List ℕ) (bound : ℕ) (claims : Claims) :
    Finishes (chain start table bound claims) := by
  simp only [chain,finishes_bind,finishes_pure,implies_true,and_true]
  exact chainFrom_finishes List.nodup_nil (by simp) (by simp)

@[simp] theorem finishes_regular (v : Volume) (start : ℕ) (size : Option ℕ) (claims : Claims) :
    Finishes (regular v start size claims) := by
  unfold regular
  split
  · simp
  · simp [finishes_mapM (finishes_sector v.payload v.sectors)]

def sectorBytes (v : Volume) (sid : ℕ) : Bytes := (v.payload.drop ((sid+1)*512)).take 512

theorem sectors_ok {ids : List ℕ} {data : List Bytes}
    (h : ids.mapM (sector v.payload v.sectors) = .ok data) : data = ids.map (sectorBytes v) := by
  induction ids generalizing data with
  | nil =>
    cases h
    rfl
  | cons sid ids ih =>
    simp only [List.mapM_cons,attempt_bind_ok,attempt_pure_ok,sector,check_ok] at h
    obtain ⟨first,⟨-,-,rfl⟩,rest,hrest,rfl⟩ := h
    rw [ih hrest]
    rfl

/-- The chain of regular sectors that a read of the volume walked. -/
def RegularChain (v : Volume) (ids : List ℕ) : Prop :=
  (∃ start, Follows v.fat endOfChain start ids) ∧ ∀ sid ∈ ids, sid < v.sectors

/-- Reading adds at most one chain, and the data comes from its sectors. -/
theorem regular_ok {start : ℕ} {size : Option ℕ} {found : Bytes × Claims}
    (h : regular v start size claims = .ok found) (hclaims : claims.Sound) :
    found.2.Sound ∧ (found = ([],claims) ∨ ∃ ids, RegularChain v ids ∧
      found.2.chains = claims.chains++[ids] ∧ found.1 <+: ids.flatMap (sectorBytes v)) := by
  unfold regular at h
  split at h
  · simp only [attempt_bind_ok,attempt_pure_ok] at h
    obtain ⟨-,-,rfl⟩ := h
    exact ⟨hclaims,.inl rfl⟩
  · simp only [attempt_bind_ok,attempt_pure_ok] at h
    obtain ⟨-,-,walked,hwalked,-,-,data,hdata,rfl⟩ := h
    obtain ⟨hsound,hchains,hfollows,hbound⟩ := chain_ok hwalked hclaims
    refine ⟨hsound,.inr ⟨walked.1,⟨⟨start,hfollows⟩,hbound⟩,hchains,?_⟩⟩
    have hflatten : data.flatten = walked.1.flatMap (sectorBytes v) := by
      rw [sectors_ok hdata,List.flatMap_def]
    rw [← hflatten]
    cases size with
    | none => exact List.prefix_rfl
    | some size => exact List.take_prefix size data.flatten

theorem lookup_mem {entries : Entries} {index : ℕ} (h : (entries.lookup index).isSome) :
    index ∈ indices entries := by
  induction entries with
  | nil => simp at h
  | cons entry entries ih =>
    rw [List.lookup_cons] at h
    split at h
    · rename_i heq
      rw [beq_iff_eq.mp heq]
      exact List.mem_cons_self
    · exact List.mem_cons_of_mem _ (ih h)

/-- The walk ends: an entry is seen once, and each adds two pending ones. -/
theorem visit_finishes (entries : Entries) {fuel : ℕ} {pending seen : List ℕ}
    (hnodup : seen.Nodup) (hseen : ∀ index ∈ seen, index ∈ indices entries)
    (hfuel : pending.length+2*(entries.length-seen.length) ≤ fuel) :
    Finishes (visit entries fuel pending seen) := by
  induction fuel generalizing pending seen with
  | zero =>
    cases pending with
    | nil => exact finishes_ok seen
    | cons index pending =>
      rw [List.length_cons] at hfuel
      omega
  | succ fuel ih =>
    cases pending with
    | nil => exact finishes_ok seen
    | cons index pending =>
      rw [List.length_cons] at hfuel
      unfold visit
      split
      · exact ih hnodup hseen (by omega)
      · simp only [finishes_bind,finishes_check,finishes_entryAt,true_and,check_ok,
          Bool.and_eq_true]
        rintro - ⟨⟨-,hentry⟩,hnew⟩ entry - - -
        have hnodup' := nodup_snoc hnodup (by simpa using hnew)
        have hseen' : ∀ i ∈ seen++[index], i ∈ indices entries := by
          intro i hi
          rcases List.mem_append.mp hi with hi | hi
          · exact hseen i hi
          · rw [List.mem_singleton.mp hi]
            exact lookup_mem hentry
        have hlength := (hnodup'.subperm hseen').length_le
        simp only [indices,List.length_append,List.length_singleton,List.length_map] at hlength
        refine ih hnodup' hseen' ?_
        simp only [List.length_cons,List.length_append,List.length_nil]
        omega

@[simp] theorem finishes_readEntry (index : ℕ) (raw : Bytes) : Finishes (readEntry index raw) := by
  simp [readEntry]

@[simp] theorem finishes_entriesFrom (directory : Bytes) (indexes : List ℕ) :
    Finishes (entriesFrom directory indexes) := by
  induction indexes with
  | nil => exact finishes_ok []
  | cons index indexes ih => simp [entriesFrom,ih]

@[simp] theorem finishes_streamData (v : Volume) (mini : MiniVolume) (entry : DirectoryEntry)
    (s : Storage) : Finishes (streamData v mini entry s) := by
  simp [streamData]

@[simp] theorem finishes_readStreams (v : Volume) (mini : MiniVolume) (entries : Entries)
    (indexes : List ℕ) (s : Storage) : Finishes (readStreams v mini entries indexes s) := by
  induction indexes generalizing s with
  | nil => exact finishes_ok s
  | cons index indexes ih => simp [readStreams,ih]

def MiniChain (mini : MiniVolume) (ids : List ℕ) : Prop :=
  (∃ start, Follows mini.fat endOfChain start ids) ∧ ∀ sid ∈ ids, sid < mini.stream.length/64

/-- The data of a stream is empty, or read from one of the chains. -/
def Backed (v : Volume) (mini : MiniVolume) (s : Storage) (data : Bytes) : Prop :=
  data = [] ∨ (∃ ids ∈ s.regular.chains, data <+: ids.flatMap (sectorBytes v)) ∨
  ∃ ids ∈ s.mini.chains, data <+: ids.flatMap (miniSector mini)

/-- Regular and mini sectors are claimed once each, by chains that follow the
links below the bounds, and every stream is read from such a chain. -/
structure Storage.Sound (v : Volume) (mini : MiniVolume) (s : Storage) : Prop where
  regular : s.regular.Sound
  regular_chains : ∀ ids ∈ s.regular.chains.tail, RegularChain v ids
  regular_some : s.regular.chains ≠ []
  mini_sound : s.mini.Sound
  mini_chains : ∀ ids ∈ s.mini.chains, MiniChain mini ids
  backed : ∀ stream ∈ s.streams, Backed v mini s stream.2

theorem tail_snoc {α : Type} {items : List α} (h : items ≠ []) (last : α) :
    (items++[last]).tail = items.tail++[last] := by
  cases items with
  | nil => exact absurd rfl h
  | cons a items => rfl

structure Claims.Read (v : Volume) (c : Claims) : Prop where
  sound : c.Sound
  chains : ∀ ids ∈ c.chains.tail, RegularChain v ids
  some : c.chains ≠ []

theorem regular_read {start : ℕ} {size : Option ℕ} {found : Bytes × Claims}
    (h : regular v start size claims = .ok found) (hclaims : claims.Read v) :
    found.2.Read v ∧ (∀ ids ∈ claims.chains, ids ∈ found.2.chains) ∧
    (found.1 = [] ∨ ∃ ids ∈ found.2.chains, found.1 <+: ids.flatMap (sectorBytes v)) := by
  obtain ⟨hsound,hfound⟩ := regular_ok h hclaims.sound
  rcases hfound with rfl | ⟨ids,hids,hchains,hdata⟩
  · exact ⟨hclaims,fun ids hids => hids,.inl rfl⟩
  · refine ⟨⟨hsound,?_,by simp [hchains]⟩,?_,.inr ⟨ids,by simp [hchains],hdata⟩⟩
    · rw [hchains,tail_snoc hclaims.some]
      intro other hother
      rcases List.mem_append.mp hother with hother | hother
      · exact hclaims.chains other hother
      · exact List.mem_singleton.mp hother ▸ hids
    · intro other hother
      rw [hchains]
      exact List.mem_append_left _ hother

theorem backed_mono {s s' : Storage} {data : Bytes} (h : Backed v mini s data)
    (hregular : ∀ ids ∈ s.regular.chains, ids ∈ s'.regular.chains)
    (hmini : ∀ ids ∈ s.mini.chains, ids ∈ s'.mini.chains) : Backed v mini s' data := by
  rcases h with h | ⟨ids,hids,hdata⟩ | ⟨ids,hids,hdata⟩
  · exact .inl h
  · exact .inr (.inl ⟨ids,hregular ids hids,hdata⟩)
  · exact .inr (.inr ⟨ids,hmini ids hids,hdata⟩)

theorem streamData_ok {entry : DirectoryEntry} {s : Storage} {found : Bytes × Storage}
    (h : streamData v mini entry s = .ok found) (hs : s.Sound v mini) :
    found.2.Sound v mini ∧ Backed v mini found.2 found.1 ∧
      found.2.streams = s.streams := by
  unfold streamData at h
  split at h
  · simp only [attempt_bind_ok,attempt_pure_ok] at h
    obtain ⟨read,hread,rfl⟩ := h
    obtain ⟨hclaims,hkept,hdata⟩ :=
      regular_read hread ⟨hs.regular,hs.regular_chains,hs.regular_some⟩
    refine ⟨⟨hclaims.sound,hclaims.chains,hclaims.some,hs.mini_sound,hs.mini_chains,?_⟩,?_,rfl⟩
    · exact fun stream hstream => backed_mono (hs.backed stream hstream) hkept fun ids h => h
    · rcases hdata with h | ⟨ids,hids,hdata⟩
      · exact .inl h
      · exact .inr (.inl ⟨ids,hids,hdata⟩)
  split at h
  · simp only [attempt_bind_ok,attempt_pure_ok] at h
    obtain ⟨walked,hwalked,-,-,rfl⟩ := h
    obtain ⟨hsound,hchains,hfollows,hbound⟩ := chain_ok hwalked hs.mini_sound
    have hkept : ∀ ids ∈ s.mini.chains, ids ∈ walked.2.chains := by
      intro ids hids
      rw [hchains]
      exact List.mem_append_left _ hids
    refine ⟨⟨hs.regular,hs.regular_chains,hs.regular_some,hsound,?_,?_⟩,?_,rfl⟩
    · intro ids hids
      rw [hchains] at hids
      rcases List.mem_append.mp hids with hids | hids
      · exact hs.mini_chains ids hids
      · exact List.mem_singleton.mp hids ▸ ⟨⟨entry.start,hfollows⟩,hbound⟩
    · exact fun stream hstream => backed_mono (hs.backed stream hstream) (fun ids h => h) hkept
    · exact .inr (.inr ⟨walked.1,by simp [hchains],List.take_prefix _ _⟩)
  · simp only [attempt_bind_ok,attempt_pure_ok] at h
    obtain ⟨-,-,rfl⟩ := h
    exact ⟨hs,.inl rfl,rfl⟩

theorem readStreams_ok {entries : Entries} (indexes : List ℕ) {s s' : Storage}
    (h : readStreams v mini entries indexes s = .ok s') (hs : s.Sound v mini) :
    s'.Sound v mini := by
  induction indexes generalizing s with
  | nil =>
    cases h
    exact hs
  | cons index indexes ih =>
    simp only [readStreams,attempt_bind_ok] at h
    obtain ⟨entry,-,-,-,found,hfound,h⟩ := h
    obtain ⟨hsound,hbacked,hstreams⟩ := streamData_ok hfound hs
    refine ih h ⟨hsound.regular,hsound.regular_chains,hsound.regular_some,hsound.mini_sound,
      hsound.mini_chains,?_⟩
    intro stream hstream
    rcases List.mem_append.mp hstream with hstream | hstream
    · exact hsound.backed stream hstream
    · obtain rfl := List.mem_singleton.mp hstream
      exact backed_mono hbacked (fun ids h => h) fun ids h => h

@[simp] theorem finishes_claimFat (fat ids used : List ℕ) : Finishes (claimFat fat ids used) := by
  induction ids generalizing used with
  | nil => exact finishes_ok used
  | cons sid ids ih => simp [claimFat,ih]

@[simp] theorem finishes_checkHeader (payload : Bytes) : Finishes (checkHeader payload) := by
  simp [checkHeader]

@[simp] theorem finishes_readFat (payload : Bytes) : Finishes (readFat payload) := by
  simp only [readFat,finishes_bind,finishes_u32s,finishes_check,finishes_claimFat,finishes_pure,
    true_and,implies_true,and_true]
  intro all _
  refine ⟨finishes_both (by simp) (by simp),fun condition _ _ _ => finishes_mapM ?_ _⟩
  intro sid
  simp

@[simp] theorem finishes_compoundFile (payload : Bytes) : Finishes (compoundFile payload) := by
  simp only [compoundFile,finishes_bind,finishes_checkHeader,finishes_readFat,finishes_u32,
    finishes_regular,finishes_check,finishes_entriesFrom,finishes_entryAt,finishes_unpackWords,
    finishes_readStreams,finishes_pure,true_and,implies_true,and_true]
  intro _ _ _ _ _ _ _ _ _ _ entries _ root _ _ _
  exact visit_finishes entries List.nodup_nil (by simp) (by simp; omega)

theorem claimFat_ok {fat used' : List ℕ} (ids used : List ℕ)
    (h : claimFat fat ids used = .ok used') : used' = used++ids ∧ (used.Nodup → used'.Nodup) := by
  induction ids generalizing used with
  | nil =>
    cases h
    exact ⟨by simp,id⟩
  | cons sid ids ih =>
    simp only [claimFat,attempt_bind_ok,claim_ok] at h
    obtain ⟨_,⟨hnew,rfl⟩,-,-,-,-,h⟩ := h
    obtain ⟨hused,hnodup⟩ := ih _ h
    exact ⟨by simp [hused],fun hn => hnodup (nodup_snoc hn hnew)⟩

theorem readFat_ok {payload : Bytes} {found : Volume × Claims} (h : readFat payload = .ok found) :
    found.2.Read found.1 := by
  simp only [readFat,attempt_bind_ok,attempt_pure_ok] at h
  obtain ⟨all,-,-,-,-,-,tables,-,-,-,used,hused,rfl⟩ := h
  obtain ⟨hfound,hnodup⟩ := claimFat_ok _ _ hused
  exact ⟨⟨by simp [hfound],hnodup List.nodup_nil⟩,by simp,by simp⟩

theorem compoundFile_ok {payload : Bytes} {file : CompoundFile}
    (h : compoundFile payload = .ok file) : file.storage.Sound file.volume file.mini := by
  simp only [compoundFile,attempt_bind_ok,attempt_pure_ok] at h
  obtain ⟨-,-,table,htable,directoryStart,-,directory,hdirectory,-,-,entries,-,root,-,-,-,seen,-,
    -,-,miniStream,hminiStream,miniFatStart,-,miniFatSectors,-,miniFatBlob,hminiFatBlob,miniFat,-,
    storage,hstorage,-,-,rfl⟩ := h
  have hread := (regular_read hminiFatBlob
    (regular_read hminiStream (regular_read hdirectory (readFat_ok htable)).1).1).1
  exact readStreams_ok _ hstorage ⟨hread.sound,hread.chains,hread.some,⟨rfl,List.nodup_nil⟩,
    by simp,by simp⟩

end LawyerAgent.BinaryWordText
