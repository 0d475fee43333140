import LawyerAgent.Idempotency
import LawyerAgent.JsonReader
import Mathlib.Data.Finset.Lattice.Basic
import Mathlib.Data.List.DropRight

/-!
# Request fingerprints

A prepared request carries the digest of its canonical method, its canonical
route and the canonical JSON of the values at its declared business paths. The
values at its secret paths are left out. Both hash functions are parameters.
-/

set_option autoImplicit false

namespace LawyerAgent.IdempotencyFingerprint
open Common CanonicalJson JsonReader
open Idempotency (PreparedIdempotencyRequest)

inductive PrepareError where
  | invalidKey (message : String)
  | invalidRequest (message : String)
deriving DecidableEq

inductive PyKey where
  | str (key : String)
  | other (hash : ℤ)
deriving DecidableEq

/-- A Python value as the projection sees it. A float is kept as its `repr`. -/
inductive PyValue where
  | none
  | bool (value : Bool)
  | int (value : ℤ)
  | float (text : String)
  | str (value : String)
  | other (kind : String)
  | sequence (items : List PyValue)
  | mapping (items : List (PyKey × PyValue))

mutual

def distinct : PyValue → Bool
  | .mapping items => (items.map Prod.fst).Nodup && distinctItems items
  | _ => true

def distinctItems : List (PyKey × PyValue) → Bool
  | [] => true
  | (_,child)::items => distinct child && distinctItems items

end

abbrev JsonPath : Type := List String

structure FingerprintPayloadFields where
  values : {v : PyValue // distinct v = true}
  businessPaths : Finset JsonPath
  secretPaths : Finset JsonPath := ∅

def PyValue.isMapping : PyValue → Bool
  | .mapping _ => true
  | _ => false

def PyValue.isSequence : PyValue → Bool
  | .sequence _ => true
  | _ => false

def pathsOk (paths : Finset JsonPath) : Bool :=
  decide (∀ path ∈ paths, path ≠ [] ∧ ∀ part ∈ path, part ≠ "")

def fingerprintPayloadChecks : Checks FingerprintPayloadFields := fun p =>
  let paths := p.businessPaths ∪ p.secretPaths
  [(p.values.val.isMapping,"fingerprint payload values must be a mapping"),
   (pathsOk p.businessPaths,"business_paths contains an invalid JSON path"),
   (pathsOk p.secretPaths,"secret_paths contains an invalid JSON path"),
   (p.businessPaths ∩ p.secretPaths = ∅,"fingerprint paths must not overlap"),
   (∀ left ∈ paths, ∀ right ∈ paths,
      ¬(left ≠ right ∧ left.length < right.length ∧ right.take left.length = left),
    "fingerprint paths must not overlap")]

abbrev IdempotencyFingerprintPayload : Type := Checked fingerprintPayloadChecks

def scalar : PyValue → Except String Json
  | .none => .ok .null
  | .bool b => .ok (.bool b)
  | .int n => .ok (.number n)
  | .float text => .ok (.float text)
  | .str s => .ok (.string s)
  | _ => .error "request body must contain canonical JSON values"

/-- The items of a sequence are no containers, so each is a scalar or raises. -/
def canonicalBusinessLeaf : PyValue → Except String Json
  | .mapping _ => .error "fingerprint paths must terminate at an exact scalar leaf"
  | .sequence items =>
    if items.any fun child => child.isMapping || child.isSequence then
      .error "fingerprint sequence values require an explicit safe scalar schema"
    else (items.mapM scalar).map .array
  | value => scalar value

section Projection

variable (businessPaths secretPaths : Finset JsonPath)

mutual

/-- Nothing is kept of a value at a secret path. -/
def projectExplicitPaths : PyValue → JsonPath → Except String (Option Json)
  | value, path =>
    if path ∈ secretPaths then
      match canonicalBusinessLeaf value with
      | .ok _ => .ok none
      | .error _ => .error "secret paths must classify exact scalar leaves"
    else if path ∈ businessPaths then (canonicalBusinessLeaf value).map some
    else
      match value with
      | .mapping items => (projectItems items path).map fun fields => some (.object fields)
      | _ => .error "request body contains an unclassified business or secret field"

def projectItems : List (PyKey × PyValue) → JsonPath → Except String JsonObject
  | [], _ => .ok []
  | (.other _,_)::_, _ => .error "JSON object keys must be strings"
  | (.str key,child)::items, path =>
    match projectExplicitPaths child (path++[key]) with
    | .error message => .error message
    | .ok projected =>
      match projectItems items path with
      | .error message => .error message
      | .ok fields =>
        match projected with
        | some value => .ok ((key,value)::fields)
        | none => .ok fields

end

end Projection

def canonicalBusinessValues (p : IdempotencyFingerprintPayload) : Except String JsonObject :=
  match projectExplicitPaths p.value.businessPaths p.value.secretPaths
      p.value.values.val [] with
  | .error message => .error message
  | .ok (some (.object fields)) => .ok fields
  | .ok _ => .error "fingerprint payload must remain an object"

/-- `allow_nan=False` raises on floats that are not finite. -/
def canonicalJson (fields : JsonObject) : Except String (List UInt8) :=
  if finite (.object fields) then .ok (encode (dumps (.object fields)))
  else .error "request body is not canonical JSON"

/-- `str.upper` of one character, as far as it can lead to `A` to `Z`. -/
def upperChar (c : Char) : List Char :=
  if 'a' ≤ c ∧ c ≤ 'z' then [Char.ofNat (c.toNat-32)]
  else
    match c.toNat with
    | 0xdf => ['S','S']
    | 0x131 => ['I']
    | 0x17f => ['S']
    | 0xfb00 => ['F','F']
    | 0xfb01 => ['F','I']
    | 0xfb02 => ['F','L']
    | 0xfb03 => ['F','F','I']
    | 0xfb04 => ['F','F','L']
    | 0xfb05 => ['S','T']
    | 0xfb06 => ['S','T']
    | _ => [c]

def methodOk (method : List Char) : Bool :=
  1 ≤ method.length && method.length ≤ 16 && method.all Char.isUpper

def canonicalMethod (value : String) : Except String (List Char) :=
  let method := value.toList.flatMap upperChar
  if methodOk method then .ok method else .error "HTTP method is invalid"

structure SplitResult where
  scheme : List Char
  netloc : List Char
  path : List Char
  query : List Char
  fragment : List Char

def schemeChar (c : Char) : Bool := c.isAlphanum || decide (c ∈ ['+','-','.'])

/-- `urllib.parse.urlsplit`, with the scheme in the case it was written in. -/
def urlsplit (value : List Char) : SplitResult :=
  let url := (value.dropWhile fun c => c.toNat ≤ 32).filter fun c => c ∉ ['\t','\r','\n']
  let head := url.takeWhile (· ≠ ':')
  let hasScheme := head.length < url.length && head.head?.any Char.isAlpha &&
    head.all schemeChar
  let scheme := if hasScheme then head else []
  let url := if hasScheme then url.drop (head.length+1) else url
  let hasNetloc := decide (url.take 2 = ['/','/'])
  let inNetloc (c : Char) := decide (c ∉ ['/','?','#'])
  let netloc := if hasNetloc then (url.drop 2).takeWhile inNetloc else []
  let url := if hasNetloc then (url.drop 2).dropWhile inNetloc else url
  let fragment := (url.dropWhile (· ≠ '#')).drop 1
  let url := url.takeWhile (· ≠ '#')
  let query := (url.dropWhile (· ≠ '?')).drop 1
  ⟨scheme,netloc,url.takeWhile (· ≠ '?'),query,fragment⟩

def routeChar (c : Char) : Bool :=
  c.isAlphanum || decide (c ∈ ['.','_','~',':','/','\x7b','\x7d','-'])

def routeOk (route : List Char) : Bool :=
  route.head? = some '/' && 1 ≤ route.tail.length && route.tail.length ≤ 511 &&
    route.tail.all routeChar

/-- Some network locations make `urlsplit` raise an error of its own instead. -/
def canonicalRoute (value : String) : Except String (List Char) :=
  let split := urlsplit value.toList
  if split.scheme ≠ [] ∨ split.netloc ≠ [] ∨ split.query ≠ [] ∨ split.fragment ≠ [] then
    .error "canonical route must be a path without query data"
  else
    let path := split.path.rdropWhile (· = '/')
    let route := if path = [] then ['/'] else path
    if routeOk route then .ok route else .error "canonical route is invalid"

structure IdempotencyRequest where
  key : String
  method : String
  canonicalRoute : String
  body : IdempotencyFingerprintPayload

/-- The digests together with what the fingerprint was taken of. -/
structure PreparedRequest where
  prepared : PreparedIdempotencyRequest
  canonicalMethod : List Char
  canonicalRoute : List Char

def keyOk (key : String) : Bool :=
  16 ≤ key.length && key.length ≤ 128 &&
    key.toList.all fun c => c.isAlphanum || decide (c ∈ ['.','_','~',':','-'])

def fingerprintInput (method route : List Char) (canonicalBody : List UInt8) : List UInt8 :=
  encode "idempotency-request:v1:".toList++encode method++10::encode route++10::canonicalBody

section Prepare

variable (hmac : List UInt8 → List UInt8 → Digest) (sha256 : List UInt8 → Digest)
  (keyHashSecret : List UInt8)

def requestInput (request : IdempotencyRequest) :
    Except PrepareError (List Char × List Char × List UInt8) :=
  if keyOk request.key then do
    let method ← (canonicalMethod request.method).mapError .invalidRequest
    let route ← (IdempotencyFingerprint.canonicalRoute request.canonicalRoute).mapError
      .invalidRequest
    let values ← (canonicalBusinessValues request.body).mapError .invalidRequest
    let canonicalBody ← (canonicalJson values).mapError .invalidRequest
    return (method,route,canonicalBody)
  else .error (.invalidKey "idempotency key must be 16-128 safe ASCII characters")

def prepare (request : IdempotencyRequest) : Except PrepareError PreparedRequest :=
  match requestInput request with
  | .error e => .error e
  | .ok (method,route,canonicalBody) =>
    .ok
      { prepared :=
          { keyHash := hmac keyHashSecret
              (encode "idempotency-key:v1:".toList++encode request.key.toList)
            requestFingerprint := sha256 (fingerprintInput method route canonicalBody) }
        canonicalMethod := method
        canonicalRoute := route }

end Prepare

inductive Node where
  | mapping
  | leaf (value : PyValue)

def node : PyValue → Node
  | .mapping _ => .mapping
  | value => .leaf value

def nodeAt : PyValue → JsonPath → Option Node
  | value, [] => some (node value)
  | .mapping items, key::path => (items.lookup (.str key)).bind fun child => nodeAt child path
  | _, _::_ => none

def Hidden (secretPaths : Finset JsonPath) (path : JsonPath) : Prop :=
  ∃ secret ∈ secretPaths, secret <+: path

/-- The bodies have the same at every path that is not a secret one or behind one. -/
def DifferAtSecrets (secretPaths : Finset JsonPath) (v w : PyValue) : Prop :=
  ∀ path, ¬Hidden secretPaths path → nodeAt v path = nodeAt w path

variable {items : List (PyKey × PyValue)} {fields : JsonObject} {path : JsonPath}
  {q : IdempotencyRequest} {x : List Char × List Char × List UInt8}
  {p : IdempotencyFingerprintPayload}

section Projection

variable {businessPaths secretPaths : Finset JsonPath}

theorem distinct_mapping (h : distinct (.mapping items) = true) : (items.map Prod.fst).Nodup ∧
      ∀ f ∈ items, distinct f.2 = true := by
  rw [distinct,Bool.and_eq_true,decide_eq_true_eq] at h
  refine ⟨h.1,?_⟩
  have hitems := h.2
  clear h
  induction items with
  | nil => simp
  | cons f items ih =>
    rw [distinctItems,Bool.and_eq_true] at hitems
    intro g hg
    rcases List.mem_cons.mp hg with rfl | hg
    · exact hitems.1
    · exact ih hitems.2 g hg

theorem lookup_iff (h : (items.map Prod.fst).Nodup) {key : PyKey} {child : PyValue} :
    items.lookup key = some child ↔ (key,child) ∈ items := by
  induction items with
  | nil => simp
  | cons f items ih =>
    obtain ⟨k,v⟩ := f
    rw [List.map_cons,List.nodup_cons] at h
    by_cases hk : key = k
    · subst hk
      have hnot : (key,child) ∉ items := fun hmem => h.1 (List.mem_map.mpr ⟨_,hmem,rfl⟩)
      simp [hnot,eq_comm]
    · have hne : (key == k) = false := by simpa using hk
      rw [List.lookup_cons,hne,List.mem_cons]
      simp [ih h.2,hk]

theorem projectItems_ok (h : projectItems businessPaths secretPaths items path = .ok fields) :
    (∀ key child, (PyKey.str key,child) ∈ items → ∃ projected,
      projectExplicitPaths businessPaths secretPaths child (path++[key]) = .ok projected) ∧
    (∀ key value, (key,value) ∈ fields ↔ ∃ child, (PyKey.str key,child) ∈ items ∧
      projectExplicitPaths businessPaths secretPaths child (path++[key]) = .ok (some value)) := by
  induction items generalizing fields with
  | nil =>
    cases h
    simp
  | cons f items ih =>
    obtain ⟨key,child⟩ := f
    cases key with
    | other hash => cases h
    | str key =>
      rw [projectItems] at h
      split at h
      · cases h
      · rename_i projected hprojected
        split at h
        · cases h
        · rename_i rest hrest
          obtain ⟨hall,hkept⟩ := ih hrest
          constructor
          · intro k c hmem
            rcases List.mem_cons.mp hmem with heq | hmem
            · cases heq
              exact ⟨projected,hprojected⟩
            · exact hall k c hmem
          · intro k value
            split at h <;> cases h
            · rename_i kept
              rw [List.mem_cons,hkept]
              constructor
              · rintro (heq | ⟨c,hmem,hc⟩)
                · cases heq
                  exact ⟨child,List.mem_cons_self,hprojected⟩
                · exact ⟨c,List.mem_cons_of_mem _ hmem,hc⟩
              · rintro ⟨c,hmem,hc⟩
                rcases List.mem_cons.mp hmem with heq | hmem
                · cases heq
                  rw [hprojected] at hc
                  cases hc
                  exact Or.inl rfl
                · exact Or.inr ⟨c,hmem,hc⟩
            · rw [hkept]
              constructor
              · rintro ⟨c,hmem,hc⟩
                exact ⟨c,List.mem_cons_of_mem _ hmem,hc⟩
              · rintro ⟨c,hmem,hc⟩
                rcases List.mem_cons.mp hmem with heq | hmem
                · cases heq
                  rw [hprojected] at hc
                  cases hc
                · exact ⟨c,hmem,hc⟩

theorem projectItems_keys (hkeys : (items.map Prod.fst).Nodup)
    (h : projectItems businessPaths secretPaths items path = .ok fields) :
    (fields.map Prod.fst).Nodup := by
  induction items generalizing fields with
  | nil =>
    cases h
    simp
  | cons f items ih =>
    obtain ⟨key,child⟩ := f
    rw [List.map_cons,List.nodup_cons] at hkeys
    cases key with
    | other hash => cases h
    | str key =>
      rw [projectItems] at h
      split at h
      · cases h
      · split at h
        · cases h
        · rename_i rest hrest
          have hnodup := ih hkeys.2 hrest
          split at h <;> cases h
          · rw [List.map_cons,List.nodup_cons]
            refine ⟨?_,hnodup⟩
            intro hmem
            obtain ⟨⟨k,value⟩,hfield,rfl⟩ := List.mem_map.mp hmem
            obtain ⟨c,hc,-⟩ := ((projectItems_ok hrest).2 k value).mp hfield
            exact hkeys.1 (List.mem_map.mpr ⟨_,hc,rfl⟩)
          · exact hnodup

/-- The declared paths are no prefixes of each other. -/
structure Separate (businessPaths secretPaths : Finset JsonPath) : Prop where
  disjoint : ∀ path ∈ businessPaths, path ∉ secretPaths
  prefixes : ∀ left ∈ businessPaths ∪ secretPaths, ∀ right ∈ businessPaths ∪ secretPaths,
    left <+: right → left = right

theorem payload_separate (p : IdempotencyFingerprintPayload) :
    Separate p.value.businessPaths p.value.secretPaths := by
  constructor
  · intro path hb hs
    have h := firstError_none p.valid
      (c := (decide (p.value.businessPaths ∩ p.value.secretPaths = ∅),
        "fingerprint paths must not overlap")) (by simp [fingerprintPayloadChecks])
    have hmem : path ∈ p.value.businessPaths ∩ p.value.secretPaths :=
      Finset.mem_inter.mpr ⟨hb,hs⟩
    rw [of_decide_eq_true h] at hmem
    exact absurd hmem (Finset.notMem_empty _)
  · intro left hleft right hright hfront
    have h := firstError_none p.valid
      (c := (decide (∀ left ∈ p.value.businessPaths ∪ p.value.secretPaths,
        ∀ right ∈ p.value.businessPaths ∪ p.value.secretPaths,
          ¬(left ≠ right ∧ left.length < right.length ∧ right.take left.length = left)),
        "fingerprint paths must not overlap")) (by simp [fingerprintPayloadChecks])
    by_contra hne
    refine of_decide_eq_true h left hleft right hright
      ⟨hne,?_,(List.prefix_iff_eq_take.mp hfront).symm⟩
    have hle := hfront.length_le
    have hlength : left.length ≠ right.length := fun heq =>
      hne (hfront.eq_of_length heq)
    omega

theorem nodeAt_mapping (items : List (PyKey × PyValue)) (key : String) (path : JsonPath) :
    nodeAt (.mapping items) (key::path) =
      (items.lookup (.str key)).bind fun child => nodeAt child path := rfl

theorem nodeAt_nil (v : PyValue) : nodeAt v [] = some (node v) := by
  cases v <;> rfl

theorem hidden_step {key : String} (hpath : path ∉ secretPaths)
    (hwalk : ∀ secret ∈ secretPaths, secret <+: path → secret = path)
    (h : path++[key] ∉ secretPaths) : ¬Hidden secretPaths (path++[key]) := by
  rintro ⟨secret,hsecret,hfront⟩
  rcases List.prefix_concat_iff.mp hfront with heq | hfront
  · exact h (heq ▸ hsecret)
  · exact hpath (hwalk secret hsecret hfront ▸ hsecret)

theorem project_none {v : PyValue} (h : path ∈ secretPaths) {projected : Option Json}
    (hv : projectExplicitPaths businessPaths secretPaths v path = .ok projected) :
    projected = none := by
  unfold projectExplicitPaths at hv
  rw [if_pos h] at hv
  split at hv
  · cases hv
    rfl
  · cases hv

theorem project_business {v : PyValue} (hs : path ∉ secretPaths) (hb : path ∈ businessPaths) :
    projectExplicitPaths businessPaths secretPaths v path =
      (canonicalBusinessLeaf v).map some := by
  unfold projectExplicitPaths
  rw [if_neg hs,if_pos hb]

theorem project_other {v : PyValue} (hs : path ∉ secretPaths) (hb : path ∉ businessPaths)
    {projected : Option Json}
    (hv : projectExplicitPaths businessPaths secretPaths v path = .ok projected) :
    ∃ items fields, v = .mapping items ∧
      projectItems businessPaths secretPaths items path = .ok fields ∧
      projected = some (.object fields) := by
  unfold projectExplicitPaths at hv
  rw [if_neg hs,if_neg hb] at hv
  split at hv
  · rename_i items
    cases hitems : projectItems businessPaths secretPaths items path with
    | error message =>
      rw [hitems] at hv
      cases hv
    | ok fields =>
      rw [hitems] at hv
      cases hv
      exact ⟨items,fields,rfl,hitems,rfl⟩
  · cases hv

theorem sortedFields_mem {key : String} {value : Json} :
    (key,value) ∈ sortedFields fields ↔ ∃ kept, (key,kept) ∈ fields ∧ sorted kept = value := by
  simp [sortedFields_eq]

theorem partner_kept {items items' : List (PyKey × PyValue)} {fields fields' : JsonObject}
    (hitems : projectItems businessPaths secretPaths items path = .ok fields)
    (hitems' : projectItems businessPaths secretPaths items' path = .ok fields')
    (hexists : ∀ key, path++[key] ∉ secretPaths → ∀ child, (PyKey.str key,child) ∈ items → ∃
      child', (PyKey.str key,child') ∈ items')
    (hpair : ∀ key child child', (PyKey.str key,child) ∈ items → (PyKey.str key,child') ∈ items' →
      path++[key] ∉ secretPaths → ∀ a b, projectExplicitPaths businessPaths secretPaths child
      (path++[key]) = .ok a → projectExplicitPaths businessPaths secretPaths child' (path++[key]) =
      .ok b → a.map sorted = b.map sorted) :
    ∀ f ∈ sortedFields fields, f ∈ sortedFields fields' := by
  rintro ⟨key,value⟩ hf
  obtain ⟨kept,hmem,hkept⟩ := sortedFields_mem.mp hf
  obtain ⟨child,hchild,hproject⟩ := ((projectItems_ok hitems).2 key kept).mp hmem
  have hopen : path++[key] ∉ secretPaths := by
    intro hsecret
    have hnone := project_none hsecret hproject
    cases hnone
  obtain ⟨child',hchild'⟩ := hexists key hopen child hchild
  obtain ⟨projected,hproject'⟩ := (projectItems_ok hitems').1 key child' hchild'
  have hsame := hpair key child child' hchild hchild' hopen _ _ hproject hproject'
  cases projected with
  | none => cases hsame
  | some kept' =>
    have hsorted : sorted kept = sorted kept' := Option.some.inj hsame
    exact sortedFields_mem.mpr ⟨kept',
      ((projectItems_ok hitems').2 key kept').mpr ⟨child',hchild',hproject'⟩,
      hsorted.symm.trans hkept⟩

theorem project_agree (hsep : Separate businessPaths secretPaths) (v w : PyValue)
    (path : JsonPath) (hv : distinct v = true) (hw : distinct w = true)
    (hwalk : ∀ secret ∈ secretPaths, secret <+: path → secret = path)
    (hagree : ∀ p, ¬Hidden secretPaths (path++p) → nodeAt v p = nodeAt w p)
    {a b : Option Json}
    (ha : projectExplicitPaths businessPaths secretPaths v path = .ok a)
    (hb : projectExplicitPaths businessPaths secretPaths w path = .ok b) :
    a.map sorted = b.map sorted := by
  by_cases hs : path ∈ secretPaths
  · rw [project_none hs ha,project_none hs hb]
  have hopen : ¬Hidden secretPaths path := by
    rintro ⟨secret,hsecret,hfront⟩
    exact hs (hwalk secret hsecret hfront ▸ hsecret)
  have hnode : node v = node w := by
    have h := hagree [] (by rwa [List.append_nil])
    rw [nodeAt_nil,nodeAt_nil] at h
    exact Option.some.inj h
  by_cases hbusiness : path ∈ businessPaths
  · rw [project_business hs hbusiness] at ha hb
    have hleaf : canonicalBusinessLeaf v = canonicalBusinessLeaf w := by
      cases v <;> cases w <;> simp_all [node,canonicalBusinessLeaf]
    rw [hleaf,hb] at ha
    cases ha
    rfl
  · obtain ⟨items,fields,rfl,hitems,rfl⟩ := project_other hs hbusiness ha
    obtain ⟨items',fields',rfl,hitems',rfl⟩ := project_other hs hbusiness hb
    obtain ⟨hnodup,hdistinct⟩ := distinct_mapping hv
    obtain ⟨hnodup',hdistinct'⟩ := distinct_mapping hw
    have hlookup : ∀ key, ∀ p, ¬Hidden secretPaths (path++[key]++p) →
        ((items.lookup (.str key)).bind fun c => nodeAt c p) =
          (items'.lookup (.str key)).bind fun c => nodeAt c p := by
      intro key p hp
      rw [List.append_assoc] at hp
      exact hagree (key::p) hp
    have hfound : ∀ key, path++[key] ∉ secretPaths →
        (items.lookup (.str key)).isSome = (items'.lookup (.str key)).isSome := by
      intro key hkey
      have h := hlookup key [] (by
        rw [List.append_nil]
        exact hidden_step hs hwalk hkey)
      simp only [nodeAt_nil] at h
      cases hl : items.lookup (.str key) <;> cases hl' : items'.lookup (.str key) <;>
        simp_all
    have hpair : ∀ key child child', (PyKey.str key,child) ∈ items →
        (PyKey.str key,child') ∈ items' → path++[key] ∉ secretPaths → ∀ a b,
        projectExplicitPaths businessPaths secretPaths child (path++[key]) = .ok a →
        projectExplicitPaths businessPaths secretPaths child' (path++[key]) = .ok b →
        a.map sorted = b.map sorted := by
      intro key child child' hmem hmem' hkey a b ha hb
      have hsize : sizeOf child < sizeOf (PyValue.mapping items) := by
        have hlt := List.sizeOf_lt_of_mem hmem
        simp only [Prod.mk.sizeOf_spec,PyValue.mapping.sizeOf_spec] at hlt ⊢
        omega
      apply project_agree hsep child child' (path++[key]) (hdistinct _ hmem)
        (hdistinct' _ hmem') _ _ ha hb
      · intro secret hsecret hfront
        rcases List.prefix_concat_iff.mp hfront with heq | hfront
        · exact heq
        · exact absurd (hwalk secret hsecret hfront ▸ hsecret) hs
      · intro p hp
        have h := hlookup key p hp
        rwa [(lookup_iff hnodup).mpr hmem,(lookup_iff hnodup').mpr hmem'] at h
    have hforward := partner_kept hitems hitems'
      (fun key hkey child hmem => by
        have h := hfound key hkey
        rw [(lookup_iff hnodup).mpr hmem] at h
        obtain ⟨child',hchild'⟩ := Option.isSome_iff_exists.mp h.symm
        exact ⟨child',(lookup_iff hnodup').mp hchild'⟩)
      hpair
    have hbackward := partner_kept hitems' hitems
      (fun key hkey child hmem => by
        have h := hfound key hkey
        rw [(lookup_iff hnodup').mpr hmem] at h
        obtain ⟨child',hchild'⟩ := Option.isSome_iff_exists.mp h
        exact ⟨child',(lookup_iff hnodup).mp hchild'⟩)
      (fun key child child' hmem hmem' hkey a b ha hb =>
        (hpair key child' child hmem' hmem hkey b a hb ha).symm)
    have hkeys : ∀ l : JsonObject, (sortedFields l).map Prod.fst = l.map Prod.fst := by
      intro l
      rw [sortedFields_eq,List.map_map]
      rfl
    have hsorted := sortFields_ext (hkeys fields ▸ projectItems_keys hnodup hitems)
      (hkeys fields' ▸ projectItems_keys hnodup' hitems')
      (fun f => ⟨hforward f,hbackward f⟩)
    simp only [Option.map_some,sorted,hsorted]
termination_by sizeOf v

end Projection

/-- The projections are equal as dictionaries, whatever the order of their keys. -/
def SameProjection (b c : IdempotencyFingerprintPayload) : Prop :=
  ∃ v w, canonicalBusinessValues b = .ok v ∧ canonicalBusinessValues c = .ok w ∧
    sorted (.object v) = sorted (.object w)

def Separates (sha256 : List UInt8 → Digest) (q r : IdempotencyRequest) : Prop :=
  ∀ x y, requestInput q = .ok x → requestInput r = .ok y →
    sha256 (fingerprintInput x.1 x.2.1 x.2.2) = sha256 (fingerprintInput y.1 y.2.1 y.2.2) →
    fingerprintInput x.1 x.2.1 x.2.2 = fingerprintInput y.1 y.2.1 y.2.2

structure Input (q : IdempotencyRequest) (method route : List Char) (values : JsonObject) :
    Prop where
  method_ok : canonicalMethod q.method = .ok method
  route_ok : canonicalRoute q.canonicalRoute = .ok route
  values_ok : canonicalBusinessValues q.body = .ok values
  finite_ok : finite (.object values) = true

theorem requestInput_ok (h : requestInput q = .ok x) : ∃ values, Input q x.1 x.2.1 values ∧
      x.2.2 = encode (dumps (.object values)) := by
  unfold requestInput at h
  split at h
  · cases hmethod : canonicalMethod q.method with
    | error message =>
      rw [hmethod] at h
      cases h
    | ok method =>
      cases hroute : canonicalRoute q.canonicalRoute with
      | error message =>
        rw [hmethod,hroute] at h
        cases h
      | ok route =>
        cases hvalues : canonicalBusinessValues q.body with
        | error message =>
          rw [hmethod,hroute,hvalues] at h
          cases h
        | ok values =>
          rw [hmethod,hroute,hvalues] at h
          by_cases hfinite : finite (.object values) = true
          · have hjson : canonicalJson values = .ok (encode (dumps (.object values))) :=
              if_pos hfinite
            change (canonicalJson values).mapError _ >>= _ = _ at h
            rw [hjson] at h
            cases h
            exact ⟨values,⟨hmethod,hroute,hvalues,hfinite⟩,rfl⟩
          · have hjson : canonicalJson values =
                .error "request body is not canonical JSON" := if_neg hfinite
            change (canonicalJson values).mapError _ >>= _ = _ at h
            rw [hjson] at h
            cases h
  · cases h

section Prepare

variable {hmac : List UInt8 → List UInt8 → Digest} {sha256 : List UInt8 → Digest}
  {keyHashSecret : List UInt8}

theorem prepare_ok {p : PreparedRequest} (h : prepare hmac sha256 keyHashSecret q = .ok p) :
    ∃ x, requestInput q = .ok x ∧
      p.canonicalMethod = x.1 ∧ p.canonicalRoute = x.2.1 ∧
      p.prepared.requestFingerprint = sha256 (fingerprintInput x.1 x.2.1 x.2.2) := by
  unfold prepare at h
  split at h
  · cases h
  · rename_i method route canonicalBody hinput
    cases h
    exact ⟨_,hinput,rfl,rfl,rfl⟩

end Prepare

theorem values_object (h : canonicalBusinessValues p = .ok fields) :
    projectExplicitPaths p.value.businessPaths p.value.secretPaths p.value.values.val [] =
      .ok (some (.object fields)) := by
  unfold canonicalBusinessValues at h
  split at h
  · cases h
  · rename_i kept hkept
    cases h
    exact hkept
  · cases h

theorem secret_nonempty {secret : JsonPath} (h : secret ∈ p.value.secretPaths) : secret ≠ [] := by
  have hok := firstError_none p.valid (c := (pathsOk p.value.secretPaths,
    "secret_paths contains an invalid JSON path")) (by simp [fingerprintPayloadChecks])
  exact (of_decide_eq_true hok secret h).1

theorem dumps_agree {b c : IdempotencyFingerprintPayload}
    (hbusiness : b.value.businessPaths = c.value.businessPaths)
    (hsecret : b.value.secretPaths = c.value.secretPaths)
    (hdiffer : DifferAtSecrets b.value.secretPaths b.value.values.val c.value.values.val)
    {v w : JsonObject} (hv : canonicalBusinessValues b = .ok v)
    (hw : canonicalBusinessValues c = .ok w) : dumps (.object v) = dumps (.object w) := by
  have hvalues := values_object hv
  have hvalues' := values_object hw
  rw [← hbusiness,← hsecret] at hvalues'
  have hsame := project_agree (payload_separate b) b.value.values.val c.value.values.val []
    b.value.values.property c.value.values.property
    (fun secret hmem hfront => by
      exact absurd (List.prefix_nil.mp hfront) (secret_nonempty hmem))
    (fun path hpath => hdiffer path hpath) hvalues hvalues'
  rw [dumps_sorted,dumps_sorted,Option.some.inj hsame]

theorem method_plain {value : String} {method : List Char}
    (h : canonicalMethod value = .ok method) : '\n' ∉ method := by
  intro hmem
  simp only [canonicalMethod] at h
  split at h
  · rename_i hok
    cases h
    simp only [methodOk,Bool.and_eq_true,List.all_eq_true] at hok
    exact absurd (hok.2 _ hmem) (by decide)
  · cases h

theorem route_plain {value : String} {route : List Char}
    (h : canonicalRoute value = .ok route) : '\n' ∉ route := by
  have hok : routeOk route = true := by
    simp only [canonicalRoute] at h
    split at h
    · cases h
    · split at h
      · split at h
        · rename_i hok
          cases h
          exact hok
        · cases h
      · split at h
        · rename_i hok
          cases h
          exact hok
        · cases h
  intro hmem
  simp only [routeOk,Bool.and_eq_true,List.all_eq_true,decide_eq_true_eq] at hok
  obtain ⟨tail,rfl⟩ := List.head?_eq_some_iff.mp hok.1.1.1
  rcases List.mem_cons.mp hmem with h | h
  · cases h
  · exact absurd (hok.2 _ h) (by decide)

theorem fingerprintInput_inj {method method' route route' json json' : List Char}
    (hm : '\n' ∉ method) (hm' : '\n' ∉ method') (hr : '\n' ∉ route) (hr' : '\n' ∉ route')
    (h : fingerprintInput method route (encode json) =
      fingerprintInput method' route' (encode json')) :
    method = method' ∧ route = route' ∧ json = json' := by
  have htext : ∀ m r j : List Char, fingerprintInput m r (encode j) =
      encode ("idempotency-request:v1:".toList++(m++ '\n'::(r++ '\n'::j))) := by
    intro m r j
    have hbreak : encode ['\n'] = [10] := rfl
    have happend : ∀ s t : List Char, encode (s++t) = encode s++encode t :=
      fun s t => List.flatMap_append
    have hcons : ∀ t : List Char, encode ('\n'::t) = 10::encode t := by
      intro t
      have h := happend ['\n'] t
      rwa [hbreak] at h
    rw [happend,happend,hcons,happend,hcons,fingerprintInput,List.append_assoc]
    simp
  rw [htext,htext] at h
  have hbody := List.append_cancel_left (encode_inj h)
  have hsplit : ∀ {s t u v : List Char}, '\n' ∉ s → '\n' ∉ t → s++ '\n'::u = t++ '\n'::v →
      s = t ∧ u = v := by
    intro s t u v hs ht heq
    have htake := congrArg (List.takeWhile (· ≠ '\n')) heq
    have hdrop := congrArg (List.dropWhile (· ≠ '\n')) heq
    have hall : ∀ {l : List Char}, '\n' ∉ l → ∀ c ∈ l, decide (c ≠ '\n') = true := by
      intro l hl c hc
      simpa using fun hcn : c = '\n' => hl (hcn ▸ hc)
    rw [List.takeWhile_append_of_pos (hall hs),List.takeWhile_append_of_pos (hall ht)] at htake
    rw [List.dropWhile_append_of_pos (hall hs),List.dropWhile_append_of_pos (hall ht)] at hdrop
    simp at htake hdrop
    exact ⟨htake,hdrop⟩
  obtain ⟨hmethod,hrest⟩ := hsplit hm hm' hbody
  obtain ⟨hroute,hjson⟩ := hsplit hr hr' hrest
  exact ⟨hmethod,hroute,hjson⟩

/-- Secrets do not reach the fingerprint, and everything else does. -/
theorem fingerprint_exact (hmac : List UInt8 → List UInt8 → Digest)
    (sha256 : List UInt8 → Digest) (keyHashSecret : List UInt8) (q r : IdempotencyRequest)
    (p p' : PreparedRequest) (hq : prepare hmac sha256 keyHashSecret q = .ok p)
    (hr : prepare hmac sha256 keyHashSecret r = .ok p') :
    (q.method = r.method → q.canonicalRoute = r.canonicalRoute →
      q.body.value.businessPaths = r.body.value.businessPaths →
      q.body.value.secretPaths = r.body.value.secretPaths →
      DifferAtSecrets q.body.value.secretPaths q.body.value.values.val
        r.body.value.values.val →
      p.prepared.requestFingerprint = p'.prepared.requestFingerprint) ∧
    (Separates sha256 q r →
      p.prepared.requestFingerprint = p'.prepared.requestFingerprint →
      p.canonicalMethod = p'.canonicalMethod ∧ p.canonicalRoute = p'.canonicalRoute ∧
        SameProjection q.body r.body) := by
  obtain ⟨x,hx,hmethod,hroute,hfingerprint⟩ := prepare_ok hq
  obtain ⟨y,hy,hmethod',hroute',hfingerprint'⟩ := prepare_ok hr
  obtain ⟨v,hinput,hjson⟩ := requestInput_ok hx
  obtain ⟨w,hinput',hjson'⟩ := requestInput_ok hy
  constructor
  · intro hsameMethod hsameRoute hbusiness hsecret hdiffer
    have hm : x.1 = y.1 := by
      have h := hinput.method_ok
      rw [hsameMethod,hinput'.method_ok] at h
      exact (Except.ok.inj h).symm
    have hr : x.2.1 = y.2.1 := by
      have h := hinput.route_ok
      rw [hsameRoute,hinput'.route_ok] at h
      exact (Except.ok.inj h).symm
    have hdumps := dumps_agree hbusiness hsecret hdiffer hinput.values_ok hinput'.values_ok
    rw [hfingerprint,hfingerprint',hjson,hjson',hm,hr,hdumps]
  · intro hseparates hsame
    rw [hfingerprint,hfingerprint'] at hsame
    have hequal := hseparates x y hx hy hsame
    rw [hjson,hjson'] at hequal
    obtain ⟨hm,hr,hdumps⟩ := fingerprintInput_inj (method_plain hinput.method_ok)
      (method_plain hinput'.method_ok) (route_plain hinput.route_ok)
      (route_plain hinput'.route_ok) hequal
    refine ⟨by rw [hmethod,hmethod',hm],by rw [hroute,hroute',hr],v,w,hinput.values_ok,
      hinput'.values_ok,dumps_inj hinput.finite_ok hinput'.finite_ok hdumps⟩

/-- A login body, and one with another password and the keys in another order. -/
def loginPayload (items : List (PyKey × PyValue)) (h : distinct (.mapping items) = true)
    (hvalid : firstError (fingerprintPayloadChecks
      ⟨⟨.mapping items,h⟩,{["email"],["options","remember"]},{["password"]}⟩) = none) :
    IdempotencyFingerprintPayload := ⟨_,hvalid⟩

def loginBody : IdempotencyFingerprintPayload :=
  loginPayload [(.str "email",.str "a@b.c"),(.str "password",.str "first"),
    (.str "options",.mapping [(.str "remember",.bool true)])] (by decide) (by decide)

def retryBody : IdempotencyFingerprintPayload :=
  loginPayload [(.str "options",.mapping [(.str "remember",.bool true)]),
    (.str "password",.str "second"),(.str "email",.str "a@b.c")] (by decide) (by decide)

def loginRequest (body : IdempotencyFingerprintPayload) : IdempotencyRequest where
  key := "0123456789abcdef"
  method := "post"
  canonicalRoute := "/v1/auth/sessions/"
  body := body

/-- Stands for the hash functions: the length of the input. -/
def lengthHash (bytes : List UInt8) : Digest := BitVec.ofNat 256 bytes.length

theorem requestInput_of {method route : List Char} {values : JsonObject} (hkey : keyOk q.key = true)
    (h : Input q method route values) :
    requestInput q = .ok (method,route,encode (dumps (.object values))) := by
  have hjson : canonicalJson values = .ok (encode (dumps (.object values))) :=
    if_pos h.finite_ok
  rw [requestInput,if_pos hkey,h.method_ok,h.route_ok,h.values_ok]
  change (canonicalJson values).mapError _ >>= _ = _
  rw [hjson]
  rfl

theorem login_input : Input (loginRequest loginBody) "POST".toList "/v1/auth/sessions".toList
    [("email",.string "a@b.c"),("options",.object [("remember",.bool true)])] :=
  ⟨by decide,by decide,by rfl,by decide⟩

theorem retry_input : Input (loginRequest retryBody) "POST".toList "/v1/auth/sessions".toList
    [("options",.object [("remember",.bool true)]),("email",.string "a@b.c")] :=
  ⟨by decide,by decide,by rfl,by decide⟩

theorem retry_differs : DifferAtSecrets loginBody.value.secretPaths
    loginBody.value.values.val retryBody.value.values.val := by
  intro path hpath
  cases path with
  | nil => rfl
  | cons key path =>
    by_cases hpassword : key = "password"
    · subst hpassword
      refine absurd ⟨["password"],by decide,?_⟩ hpath
      exact List.cons_prefix_cons.mpr ⟨rfl,List.nil_prefix⟩
    change nodeAt (.mapping _) (key::path) = nodeAt (.mapping _) (key::path)
    rw [nodeAt_mapping,nodeAt_mapping]
    by_cases hemail : key = "email"
    · subst hemail
      rfl
    by_cases hoptions : key = "options"
    · subst hoptions
      rfl
    · have hne : ∀ name, key ≠ name → (PyKey.str key == PyKey.str name) = false := by
        intro name hname
        simpa using hname
      simp only [List.lookup_cons,List.lookup_nil,hne _ hpassword,hne _ hemail,hne _ hoptions]

theorem retry_dumps :
    dumps (.object [("email",.string "a@b.c"),("options",.object [("remember",.bool true)])]) =
      dumps (.object [("options",.object [("remember",.bool true)]),
        ("email",.string "a@b.c")]) := by
  decide

theorem prepare_of {hmac : List UInt8 → List UInt8 → Digest} {sha256 : List UInt8 → Digest}
    {keyHashSecret : List UInt8} (h : requestInput q = .ok x) :
    prepare hmac sha256 keyHashSecret q = .ok
      ⟨⟨hmac keyHashSecret (encode "idempotency-key:v1:".toList++encode q.key.toList),
        sha256 (fingerprintInput x.1 x.2.1 x.2.2)⟩,x.1,x.2.1⟩ := by
  rw [prepare,h]

/-- A retry with another password has the fingerprint of the first attempt. -/
theorem retry_fingerprint : ∃ p p',
    prepare (fun _ => lengthHash) lengthHash [] (loginRequest loginBody) = .ok p ∧
    prepare (fun _ => lengthHash) lengthHash [] (loginRequest retryBody) = .ok p' ∧
    p.prepared.requestFingerprint = p'.prepared.requestFingerprint ∧
    p.canonicalMethod = p'.canonicalMethod ∧ p.canonicalRoute = p'.canonicalRoute ∧
    SameProjection loginBody retryBody := by
  have hx := requestInput_of (q := loginRequest loginBody) (by decide) login_input
  have hy := requestInput_of (q := loginRequest retryBody) (by decide) retry_input
  have hexact := fingerprint_exact (fun _ => lengthHash) lengthHash []
    (loginRequest loginBody) (loginRequest retryBody) _ _ (prepare_of hx) (prepare_of hy)
  have hsame := hexact.1 rfl rfl rfl rfl retry_differs
  refine ⟨_,_,prepare_of hx,prepare_of hy,hsame,hexact.2 ?_ hsame⟩
  intro x y hx' hy' _
  rw [hx] at hx'
  rw [hy] at hy'
  cases hx'
  cases hy'
  rw [retry_dumps]

end LawyerAgent.IdempotencyFingerprint
