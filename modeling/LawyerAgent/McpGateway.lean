import LawyerAgent.Common
import LawyerAgent.PythonText
import LawyerAgent.Relational.Run
import Mathlib.Data.List.Sort
import Mathlib.Data.String.Basic

/-!
# The tool gateway

A registry holds tools under distinct names. A gateway dispatches by name after
its allowlist and the input schema of the tool. It registers an introspection
tool that lists the registry it closes over, not the allowlist. A handler may
read and change a state of its own, so a caller sees a sequence of results.
-/

set_option autoImplicit false

namespace LawyerAgent.McpGateway
open Common PythonText

/-- `MCPGatewayError` with its code and message, or any other exception. -/
inductive Raised where
  | gateway (code message : String)
  | other
deriving DecidableEq

def invalidSpec (message : String) : Except Raised Unit :=
  .error (.gateway "invalid_tool_spec" message)

def invalidArguments {α : Type} (message : String) : Except Raised α :=
  .error (.gateway "invalid_arguments" message)

def schemaObjectKeys : List String :=
  ["type","properties","required","additionalProperties","description"]

def propertyKeys : List String := ["type","description","items","enum"]

def allowedTypes : List String :=
  ["string","integer","number","boolean","array","object","null"]

def typeOk (value : Json) (expected : String) : Bool :=
  match value with
  | .string _ => expected == "string"
  | .number _ => expected == "integer" || expected == "number"
  | .float _ => expected == "number"
  | .bool _ => expected == "boolean"
  | .array _ => expected == "array"
  | .object _ => expected == "object"
  | .null => expected == "null"

/-- A list or a dictionary cannot be looked up in a set of types. -/
def typeName (value : Option Json) : Except Raised (Option String) :=
  match value with
  | some (.string name) => .ok (if name ∈ allowedTypes then some name else none)
  | some (.array _) => .error .other
  | some (.object _) => .error .other
  | _ => .ok none

def validateEnum (name expected : String) : Option Json → Except Raised Unit
  | none => .ok ()
  | some .null => .ok ()
  | some (.array (value::values)) =>
    if (value::values).all (typeOk · expected) then .ok ()
    else invalidSpec ("property "++name++" enum value does not match the declared type")
  | some _ => invalidSpec ("property "++name++" enum is invalid")

def validateItems (name : String) (items : Option Json) : Except Raised Unit := do
  match items with
  | some (.object fields) =>
    match ← typeName (fields.lookup "type") with
    | some _ => .ok ()
    | none => invalidSpec ("property "++name++" array items are invalid")
  | _ => invalidSpec ("property "++name++" array items are invalid")

def validateProperty (name : String) (raw : Json) : Except Raised Unit := do
  match raw with
  | .object prop =>
    if prop.all fun field => propertyKeys.contains field.1 then
      match ← typeName (prop.lookup "type") with
      | none => invalidSpec ("property "++name++" has an invalid type")
      | some propType =>
        if propType = "array" then validateItems name (prop.lookup "items")
        validateEnum name propType (prop.lookup "enum")
    else invalidSpec ("property "++name++" contains unsupported keys")
  | _ => invalidSpec ("input_schema.properties."++name++" must be an object")

def validateProperties : Option Json → Except Raised Unit
  | none => .ok ()
  | some .null => .ok ()
  | some (.object props) => props.forM fun prop => validateProperty prop.1 prop.2
  | some _ => invalidSpec "input_schema.properties must be an object"

def names : List Json → Option (List String)
  | [] => some []
  | .string name::items => (names items).map (name::·)
  | _ => none

def requiredNames (schema : JsonObject) : Option (List String) :=
  match schema.lookup "required" with
  | none => some []
  | some (.array items) => names items
  | some _ => none

def declares (properties : Option Json) (name : String) : Bool :=
  match properties with
  | some (.object props) => (props.lookup name).isSome
  | _ => false

def validateSchema (schema : Json) : Except Raised Unit := do
  match schema with
  | .object root =>
    if root.any fun field => !schemaObjectKeys.contains field.1 then
      invalidSpec "input_schema contains unsupported keys"
    match root.lookup "type" with
    | some (.string "object") => pure ()
    | _ => invalidSpec "input_schema type must be object"
    validateProperties (root.lookup "properties")
    match requiredNames root with
    | none => invalidSpec "required must be a list of names"
    | some required =>
      if ¬ required.Nodup then invalidSpec "required names must be unique"
      if required.any fun name => !declares (root.lookup "properties") name then
        invalidSpec "required property is not declared"
    match root.lookup "additionalProperties" with
    | none => pure ()
    | some (.bool _) => pure ()
    | some _ => invalidSpec "additionalProperties must be boolean"
  | _ => invalidSpec "input_schema must be an object"

def isToolName (name : String) : Bool :=
  match name.toList with
  | [] => false
  | first::rest => ('a' ≤ first && first ≤ 'z') && rest.length ≤ 63 &&
      rest.all fun c => ('a' ≤ c && c ≤ 'z') || c.isDigit || c == '_' || c == '.'

def checkTool (name description : String) (inputSchema : Json) : Except Raised Unit := do
  if !isToolName name then invalidSpec "tool name must match [a-z][a-z0-9_.]\x7b0,63\x7d"
  if (strip description.toList).isEmpty then invalidSpec "tool description must be non-empty"
  if 512 < description.length then invalidSpec "tool description is too long"
  validateSchema inputSchema

structure ToolSpec where
  name : String
  description : String
  inputSchema : Json
  valid : checkTool name description inputSchema = .ok ()

def metaSpec : ToolSpec where
  name := "meta.list_tools"
  description := "列出当前网关内全部可用工具的名称与说明"
  inputSchema := .object [("type",.string "object"),("properties",.object [])]
  valid := by decide

/-- What a handler returns: a value, or an awaitable over the state of the handlers. -/
inductive Returned (σ : Type) where
  | value (output : Json)
  | awaitable (await : σ → Except Raised Json × σ)

inductive Handler (σ : Type) where
  | custom (handle : JsonObject → σ → Except Raised (Returned σ) × σ)
  | listTools

def Handler.lists {σ : Type} : Handler σ → Bool
  | .custom _ => false
  | .listTools => true

/-- Names are distinct, and only the introspection tool lists the registry. -/
structure AllowedToolRegistry (σ : Type) where
  tools : List (ToolSpec × Handler σ)
  distinct : (tools.map fun tool => tool.1.name).Nodup
  builtin : ∀ tool ∈ tools, tool.2.lists = true → tool.1 = metaSpec

variable {σ : Type}

def AllowedToolRegistry.find (r : AllowedToolRegistry σ) (name : String) :
    Option (ToolSpec × Handler σ) :=
  r.tools.find? fun tool => tool.1.name == name

def AllowedToolRegistry.spec (r : AllowedToolRegistry σ) (name : String) : Option ToolSpec :=
  (r.find name).map Prod.fst

def AllowedToolRegistry.handler (r : AllowedToolRegistry σ) (name : String) :
    Option (Handler σ) :=
  (r.find name).map Prod.snd

variable {name : String}

theorem find_none {r : AllowedToolRegistry σ} :
    r.find name = none ↔ ∀ tool ∈ r.tools, tool.1.name ≠ name := by
  simp [AllowedToolRegistry.find,List.find?_eq_none]

/-- Adds a tool under a name that is not taken. -/
def AllowedToolRegistry.add (r : AllowedToolRegistry σ) (tool : ToolSpec × Handler σ)
    (hfresh : r.find tool.1.name = none) (hlists : tool.2.lists = true → tool.1 = metaSpec) :
    AllowedToolRegistry σ where
  tools := r.tools++[tool]
  distinct := by
    rw [List.map_append,List.nodup_append]
    refine ⟨r.distinct,by simp,?_⟩
    intro name hname other hother
    obtain ⟨t,ht,rfl⟩ := List.mem_map.mp hname
    obtain rfl : other = tool.1.name := by simpa using hother
    exact find_none.mp hfresh t ht
  builtin := by
    intro t ht
    rcases List.mem_append.mp ht with ht | ht
    · exact r.builtin t ht
    · rw [List.mem_singleton.mp ht]
      exact hlists

def AllowedToolRegistry.register (r : AllowedToolRegistry σ) (name description : String)
    (inputSchema : Json) (handle : JsonObject → σ → Except Raised (Returned σ) × σ) :
    Except Raised (AllowedToolRegistry σ) :=
  match h : checkTool name description inputSchema with
  | .error e => .error e
  | .ok _ =>
    if hfresh : r.find name = none then
      .ok (r.add (⟨name,description,inputSchema,h⟩,.custom handle) hfresh fun h => nomatch h)
    else .error (.gateway "duplicate_tool" "tool is already registered")

def AllowedToolRegistry.ensureMeta (r : AllowedToolRegistry σ) : AllowedToolRegistry σ :=
  if hfresh : r.find metaSpec.name = none then r.add (metaSpec,.listTools) hfresh fun _ => rfl
  else r

def byName (t u : ToolSpec × Handler σ) : Prop := t.1.name ≤ u.1.name

instance : DecidableRel (byName (σ := σ)) := fun t u =>
  inferInstanceAs (Decidable (t.1.name ≤ u.1.name))

def AllowedToolRegistry.specs (r : AllowedToolRegistry σ) : List ToolSpec :=
  (r.tools.insertionSort byName).map Prod.fst

/-- The output of `meta.list_tools`. -/
def listing (r : AllowedToolRegistry σ) : Json :=
  .array (r.specs.map fun spec =>
    .object [("name",.string spec.name),("description",.string spec.description)])

def validateEntries (name itemType : String) : ℕ → List Json → Except Raised Unit
  | _, [] => .ok ()
  | index, entry::entries =>
    if typeOk entry itemType then validateEntries name itemType (index+1) entries
    else invalidArguments ("argument "++name++"["++toString index++"] must be of type "++itemType)

def itemTypeOf (prop : JsonObject) : Option String :=
  match prop.lookup "items" with
  | some (.object items) =>
    match items.lookup "type" with
    | some (.string itemType) => if itemType ∈ allowedTypes then some itemType else none
    | _ => none
  | _ => none

/-- `equal` is the equality of Python values. -/
def validateValue (equal : Json → Json → Bool) (name : String) (raw : Json) (prop : JsonObject) :
    Except Raised Unit := do
  match prop.lookup "type" with
  | some (.string "null") =>
    match raw with
    | .null => .ok ()
    | _ => invalidArguments ("argument "++name++" must be null")
  | some (.string propType) =>
    if !typeOk raw propType then
      invalidArguments (α := Unit) ("argument "++name++" must be of type "++propType)
    match propType, raw, itemTypeOf prop with
    | "array", .array entries, some itemType => validateEntries name itemType 0 entries
    | _, _, _ => pure ()
    match prop.lookup "enum" with
    | some (.array values) =>
      if values.any (equal raw) then .ok ()
      else invalidArguments ("argument "++name++" is not an allowed value")
    | _ => .ok ()
  | _ => .error .other

/-- The declared properties; a schema may also declare `null`, which is no dictionary. -/
def propertiesOf (schema : JsonObject) : Option JsonObject :=
  match schema.lookup "properties" with
  | none => some []
  | some (.object properties) => some properties
  | some _ => none

def extraAllowed (schema : JsonObject) : Bool :=
  match schema.lookup "additionalProperties" with
  | some (.bool allowed) => allowed
  | _ => false

def validateArg (equal : Json → Json → Bool) (schema : JsonObject) (arg : String × Json) :
    Except Raised Unit :=
  match propertiesOf schema with
  | none => .error .other
  | some properties =>
    match properties.lookup arg.1 with
    | none =>
      if extraAllowed schema then .ok ()
      else invalidArguments "unknown argument(s) supplied"
    | some (.object prop) => validateValue equal arg.1 arg.2 prop
    | some _ => .error .other

def validateArgs (equal : Json → Json → Bool) (spec : ToolSpec) (args : Json) :
    Except Raised JsonObject := do
  match args, spec.inputSchema with
  | .object args, .object schema =>
    if !extraAllowed schema then
      match propertiesOf schema with
      | none => .error .other
      | some properties =>
        if args.any fun arg => (properties.lookup arg.1).isNone then
          invalidArguments (α := Unit) "unknown argument(s) supplied"
    if ((requiredNames schema).getD []).any fun name => (args.lookup name).isNone then
      invalidArguments (α := Unit) "missing required argument(s)"
    args.forM (validateArg equal schema)
    pure args
  | .object _, _ => .error .other
  | _, _ => invalidArguments "arguments must be an object"

structure ToolResult (σ : Type) where
  ok : Bool
  output : Option (Returned σ) := none
  errorCode : Option String := none
  errorMessage : Option String := none

def failed (code message : String) : ToolResult σ where
  ok := false
  errorCode := some code
  errorMessage := some message

def resultOf : Except Raised (Returned σ) → ToolResult σ
  | .ok output => {ok := true, output := some output}
  | .error (.gateway code message) => failed code message
  | .error .other => failed "handler_failure" "tool handler failed"

structure MCPClientGateway (σ : Type) where
  registry : AllowedToolRegistry σ
  allowlist : Option (List String)

def gateway (registry : AllowedToolRegistry σ) (allowlist : Option (List String)) :
    MCPClientGateway σ :=
  ⟨registry.ensureMeta,allowlist⟩

def onAllowlist (allowlist : Option (List String)) (name : String) : Bool :=
  allowlist.all fun allowed => allowed.contains name

def MCPClientGateway.allowed (g : MCPClientGateway σ) (name : String) : Bool :=
  (g.registry.spec name).isSome && onAllowlist g.allowlist name

def MCPClientGateway.specs (g : MCPClientGateway σ) : List ToolSpec :=
  match g.allowlist with
  | none => g.registry.specs
  | some allowed => g.registry.specs.filter fun spec => allowed.contains spec.name

def runHandler (r : AllowedToolRegistry σ) (handler : Handler σ) (args : JsonObject) (s : σ) :
    Except Raised (Returned σ) × σ :=
  match handler with
  | .custom handle => handle args s
  | .listTools => (.ok (.value (listing r)),s)

def awaited : Except Raised (Returned σ) × σ → Except Raised (Returned σ) × σ
  | (.ok (.awaitable await),s) => ((await s).1.map .value,(await s).2)
  | outcome => outcome

/-- The two dispatchers differ in what they do with the outcome of the handler. -/
def MCPClientGateway.dispatch (equal : Json → Json → Bool)
    (settle : Except Raised (Returned σ) × σ → Except Raised (Returned σ) × σ)
    (g : MCPClientGateway σ) (name : String) (args : Json) (s : σ) : ToolResult σ × σ :=
  match g.registry.spec name with
  | none => (failed "unknown_tool" "unknown tool",s)
  | some spec =>
    if !onAllowlist g.allowlist name then (failed "tool_not_allowed" "tool is not allowed",s)
    else
      match validateArgs equal spec args with
      | .error e => (resultOf (.error e),s)
      | .ok validated =>
        match g.registry.handler name with
        | none => (failed "unknown_tool" "unknown tool",s)
        | some handler =>
          let outcome := settle (runHandler g.registry handler validated s)
          (resultOf outcome.1,outcome.2)

def MCPClientGateway.call (equal : Json → Json → Bool) (g : MCPClientGateway σ) (name : String)
    (args : Json) (s : σ) : ToolResult σ × σ :=
  g.dispatch equal id name args s

def MCPClientGateway.callAsync (equal : Json → Json → Bool) (g : MCPClientGateway σ)
    (name : String) (args : Json) (s : σ) : ToolResult σ × σ :=
  g.dispatch equal awaited name args s

inductive GatewayOp where
  | specs
  | allowed (name : String)
  | call (name : String) (args : Json)
  | callAsync (name : String) (args : Json)

inductive GatewayAnswer (σ : Type) where
  | specs (specs : List ToolSpec)
  | allowed (allowed : Bool)
  | result (result : ToolResult σ)

def answer (equal : Json → Json → Bool) (g : MCPClientGateway σ) (s : σ) :
    GatewayOp → GatewayAnswer σ × σ
  | .specs => (.specs g.specs,s)
  | .allowed name => (.allowed (g.allowed name),s)
  | .call name args => (.result (g.call equal name args s).1,(g.call equal name args s).2)
  | .callAsync name args =>
    (.result (g.callAsync equal name args s).1,(g.callAsync equal name args s).2)

def answers (equal : Json → Json → Bool) (g : MCPClientGateway σ) :
    List GatewayOp → σ → List (GatewayAnswer σ)
  | [], _ => []
  | op::ops, s => (answer equal g s op).1::answers equal g ops (answer equal g s op).2

variable {r r₁ r₂ : AllowedToolRegistry σ} {allowlist : Option (List String)}

theorem find_iff {tool : ToolSpec × Handler σ} :
    r.find name = some tool ↔ tool ∈ r.tools ∧ tool.1.name = name := by
  constructor
  · intro h
    exact ⟨List.mem_of_find?_eq_some h,by simpa using List.find?_some h⟩
  · rintro ⟨hmem,rfl⟩
    cases hfind : r.find tool.1.name with
    | none => exact absurd rfl (find_none.mp hfind tool hmem)
    | some other =>
      have hother := List.mem_of_find?_eq_some hfind
      have hname : other.1.name = tool.1.name := by simpa using List.find?_some hfind
      rw [List.inj_on_of_nodup_map r.distinct hother hmem hname]

theorem spec_iff {spec : ToolSpec} :
    r.spec name = some spec ↔ spec.name = name ∧ ∃ handler, (spec,handler) ∈ r.tools := by
  rw [AllowedToolRegistry.spec,Option.map_eq_some_iff]
  constructor
  · rintro ⟨tool,hfind,rfl⟩
    obtain ⟨hmem,hname⟩ := find_iff.mp hfind
    exact ⟨hname,tool.2,hmem⟩
  · rintro ⟨hname,handler,hmem⟩
    exact ⟨(spec,handler),find_iff.mpr ⟨hmem,hname⟩,rfl⟩

theorem find_add {tool : ToolSpec × Handler σ} (hfresh : r.find tool.1.name = none)
    (hlists : tool.2.lists = true → tool.1 = metaSpec) (name : String) :
    (r.add tool hfresh hlists).find name = if name = tool.1.name then some tool else
      r.find name := by
  rw [AllowedToolRegistry.find,AllowedToolRegistry.add,List.find?_append]
  by_cases h : name = tool.1.name
  · subst h
    rw [AllowedToolRegistry.find] at hfresh
    simp [hfresh]
  · simp [h,Ne.symm h,AllowedToolRegistry.find]

theorem find_ensureMeta (name : String) : r.ensureMeta.find name =
    if name = metaSpec.name ∧ r.find metaSpec.name = none then some (metaSpec,.listTools)
    else r.find name := by
  by_cases hfresh : r.find metaSpec.name = none
  · rw [AllowedToolRegistry.ensureMeta,dif_pos hfresh,find_add]
    simp [hfresh]
  · rw [AllowedToolRegistry.ensureMeta,dif_neg hfresh]
    simp [hfresh]

theorem eq_of_keys {α : Type} (key : α → String) {xs ys : List α}
    (hxs : xs.Pairwise fun a b => key a < key b) (hys : ys.Pairwise fun a b => key a < key b)
    (h : ∀ a, a ∈ xs ↔ a ∈ ys) : xs = ys := by
  have : Std.Irrefl fun a b : α => key a < key b := ⟨fun a => lt_irrefl (key a)⟩
  have : Std.Antisymm fun a b : α => key a < key b := ⟨fun a b hab hba => absurd hba hab.asymm⟩
  exact hxs.eq_of_mem_iff hys h

theorem specs_sorted (r : AllowedToolRegistry σ) :
    r.specs.Pairwise fun a b => a.name < b.name := by
  have : Std.Total (byName (σ := σ)) := ⟨fun t u => le_total t.1.name u.1.name⟩
  have : IsTrans _ (byName (σ := σ)) := ⟨fun _ _ _ => le_trans⟩
  have hsorted := List.pairwise_insertionSort byName r.tools
  have hnames : ((r.tools.insertionSort byName).map fun tool => tool.1.name).Nodup :=
    (((List.perm_insertionSort byName r.tools).map _).nodup_iff).mpr r.distinct
  rw [AllowedToolRegistry.specs,List.pairwise_map]
  refine (hsorted.and (List.pairwise_map.mp hnames)).imp ?_
  rintro t u ⟨hle,hne⟩
  exact lt_of_le_of_ne hle hne

theorem mem_specs {spec : ToolSpec} : spec ∈ r.specs ↔ r.spec spec.name = some spec := by
  rw [AllowedToolRegistry.specs,List.mem_map,spec_iff]
  constructor
  · rintro ⟨tool,hmem,rfl⟩
    exact ⟨rfl,tool.2,(List.mem_insertionSort _).mp hmem⟩
  · rintro ⟨-,handler,hmem⟩
    exact ⟨(spec,handler),(List.mem_insertionSort _).mpr hmem,rfl⟩

theorem gateway_specs : (gateway r allowlist).specs =
    r.ensureMeta.specs.filter fun spec => onAllowlist allowlist spec.name := by
  cases allowlist with
  | none =>
    symm
    exact List.filter_eq_self.mpr fun _ _ => rfl
  | some allowed => rfl

def describe (r : AllowedToolRegistry σ) (name : String) : Option String :=
  (r.spec name).map ToolSpec.description

def described (r : AllowedToolRegistry σ) : List (String × String) :=
  r.specs.map fun spec => (spec.name,spec.description)

theorem listing_described : listing r = .array ((described r).map fun entry =>
    .object [("name",.string entry.1),("description",.string entry.2)]) := by
  rw [listing,described,List.map_map]
  rfl

theorem mem_described {name description : String} :
    (name,description) ∈ described r ↔ describe r name = some description := by
  rw [described,List.mem_map,describe,Option.map_eq_some_iff]
  constructor
  · rintro ⟨spec,hspec,heq⟩
    cases heq
    exact ⟨spec,mem_specs.mp hspec,rfl⟩
  · rintro ⟨spec,hspec,rfl⟩
    obtain ⟨rfl,-⟩ := spec_iff.mp hspec
    exact ⟨spec,mem_specs.mpr hspec,rfl⟩

theorem described_sorted (r : AllowedToolRegistry σ) :
    (described r).Pairwise fun a b => a.1 < b.1 :=
  List.pairwise_map.mpr (specs_sorted r)

theorem listing_eq : listing r₁ = listing r₂ ↔ ∀ name, describe r₁ name = describe r₂ name := by
  rw [listing_described,listing_described]
  constructor
  · intro h name
    have hlists : described r₁ = described r₂ := by
      apply List.map_injective_iff.mpr _ (Json.array.inj h)
      intro a b hab
      simpa [Prod.ext_iff] using hab
    apply Option.ext
    intro description
    rw [← mem_described,← mem_described,hlists]
  · intro h
    rw [eq_of_keys Prod.fst (described_sorted r₁) (described_sorted r₂)]
    rintro ⟨name,description⟩
    rw [mem_described,mem_described,h]

def Agree (allowlist : Option (List String)) (r₁ r₂ : AllowedToolRegistry σ) : Prop :=
  ∀ name, onAllowlist allowlist name = true → r₁.find name = r₂.find name

def listsRegistry (allowlist : Option (List String)) (r : AllowedToolRegistry σ) : Bool :=
  onAllowlist allowlist metaSpec.name && (r.handler metaSpec.name).any Handler.lists

/-- Outside the allowlist the same names are taken, with the same descriptions where the
caller may list the registry. -/
structure HiddenAlike (allowlist : Option (List String)) (r₁ r₂ : AllowedToolRegistry σ) :
    Prop where
  names : ∀ name, onAllowlist allowlist name = false →
    (r₁.spec name).isSome = (r₂.spec name).isSome
  descriptions : listsRegistry allowlist r₁ = true → ∀ name,
    onAllowlist allowlist name = false → describe r₁ name = describe r₂ name

theorem agree_ensureMeta (h : Agree allowlist r₁ r₂) :
    Agree allowlist r₁.ensureMeta r₂.ensureMeta := by
  intro name hname
  rw [find_ensureMeta,find_ensureMeta,h name hname]
  by_cases hmeta : name = metaSpec.name
  · subst hmeta
    rw [h _ hname]
  · simp [hmeta]

theorem agree_spec (h : Agree allowlist r₁ r₂) (hname : onAllowlist allowlist name = true) :
    r₁.spec name = r₂.spec name ∧ r₁.handler name = r₂.handler name := by
  simp only [AllowedToolRegistry.spec,AllowedToolRegistry.handler,h name hname,and_self]

theorem agree_allowed (h : Agree allowlist r₁ r₂) (name : String) :
    (gateway r₁ allowlist).allowed name = (gateway r₂ allowlist).allowed name := by
  simp only [MCPClientGateway.allowed,gateway]
  cases hname : onAllowlist allowlist name with
  | false => simp
  | true => rw [(agree_spec (agree_ensureMeta h) hname).1]

theorem agree_specs (h : Agree allowlist r₁ r₂) :
    (gateway r₁ allowlist).specs = (gateway r₂ allowlist).specs := by
  rw [gateway_specs,gateway_specs]
  apply eq_of_keys ToolSpec.name ((specs_sorted _).filter _) ((specs_sorted _).filter _)
  intro spec
  rw [List.mem_filter,List.mem_filter,mem_specs,mem_specs]
  constructor
  · rintro ⟨hspec,hname⟩
    exact ⟨(agree_spec (agree_ensureMeta h) hname).1.symm.trans hspec,hname⟩
  · rintro ⟨hspec,hname⟩
    exact ⟨(agree_spec (agree_ensureMeta h) hname).1.trans hspec,hname⟩

variable {equal : Json → Json → Bool}
  {settle : Except Raised (Returned σ) × σ → Except Raised (Returned σ) × σ}

theorem listing_alike (h : Agree allowlist r₁ r₂) (hidden : HiddenAlike allowlist r₁ r₂)
    (hlists : listsRegistry allowlist r₁ = true) : listing r₁ = listing r₂ := by
  apply listing_eq.mpr
  intro name
  cases hname : onAllowlist allowlist name with
  | false => exact hidden.descriptions hlists name hname
  | true => rw [describe,describe,(agree_spec h hname).1]

theorem lists_name (h : r.handler name = some .listTools) :
    name = metaSpec.name := by
  obtain ⟨tool,hfind,hhandler⟩ := Option.map_eq_some_iff.mp h
  obtain ⟨hmem,rfl⟩ := find_iff.mp hfind
  rw [r.builtin tool hmem (by rw [hhandler]; rfl)]

theorem dispatch_refused (hname : onAllowlist allowlist name = false) (args : Json) (s : σ) :
    (gateway r allowlist).dispatch equal settle name args s =
      (if (r.ensureMeta.spec name).isSome then failed "tool_not_allowed" "tool is not allowed"
        else failed "unknown_tool" "unknown tool",s) := by
  rw [MCPClientGateway.dispatch]
  cases hspec : r.ensureMeta.spec name with
  | none => simp only [gateway,hspec,Option.isSome_none,Bool.false_eq_true,if_false]
  | some spec => simp only [gateway,hspec,hname,Bool.not_false,if_true,Option.isSome_some]

theorem handler_alike (h : Agree allowlist r₁ r₂) (hidden : HiddenAlike allowlist r₁ r₂)
    (hname : onAllowlist allowlist name = true) {handler : Handler σ}
    (hhandler : r₁.handler name = some handler) (args : JsonObject) (s : σ) :
    runHandler r₁ handler args s = runHandler r₂ handler args s := by
  cases handler with
  | custom handle => rfl
  | listTools =>
    have hlists : listsRegistry allowlist r₁ = true := by
      rw [listsRegistry,← lists_name hhandler,hname,hhandler]
      rfl
    simp only [runHandler,listing_alike h hidden hlists]

theorem dispatch_alike (h : Agree allowlist r₁ r₂)
    (hidden : HiddenAlike allowlist r₁.ensureMeta r₂.ensureMeta) (name : String) (args : Json)
    (s : σ) : (gateway r₁ allowlist).dispatch equal settle name args s =
      (gateway r₂ allowlist).dispatch equal settle name args s := by
  by_cases hname : onAllowlist allowlist name = true
  · have hmeta := agree_ensureMeta h
    obtain ⟨hspec,hhandler⟩ := agree_spec hmeta hname
    simp only [MCPClientGateway.dispatch,gateway,← hspec,← hhandler]
    cases hfound : r₁.ensureMeta.handler name with
    | none => rfl
    | some handler => simp only [handler_alike hmeta hidden hname hfound]
  · have hname' := eq_false_of_ne_true hname
    rw [dispatch_refused hname',dispatch_refused hname',hidden.names name hname']

theorem answer_alike (h : Agree allowlist r₁ r₂)
    (hidden : HiddenAlike allowlist r₁.ensureMeta r₂.ensureMeta) (s : σ) (op : GatewayOp) :
    answer equal (gateway r₁ allowlist) s op = answer equal (gateway r₂ allowlist) s op := by
  cases op with
  | specs => simp only [answer,agree_specs h]
  | allowed name => simp only [answer,agree_allowed h]
  | call name args => simp only [answer,MCPClientGateway.call,dispatch_alike h hidden]
  | callAsync name args => simp only [answer,MCPClientGateway.callAsync,dispatch_alike h hidden]

theorem answers_alike (h : Agree allowlist r₁ r₂)
    (hidden : HiddenAlike allowlist r₁.ensureMeta r₂.ensureMeta) (ops : List GatewayOp) (s : σ) :
    answers equal (gateway r₁ allowlist) ops s = answers equal (gateway r₂ allowlist) ops s := by
  induction ops generalizing s with
  | nil => rfl
  | cons op ops ih => rw [answers,answers,answer_alike h hidden s op,ih]

theorem answers_first {g₁ g₂ : MCPClientGateway σ} {s : σ}
    (h : ∀ ops, answers equal g₁ ops s = answers equal g₂ ops s) (op : GatewayOp) :
    (answer equal g₁ s op).1 = (answer equal g₂ s op).1 :=
  (List.cons.inj (h [op])).1

theorem refused_tells (hname : onAllowlist allowlist name = false) {s : σ}
    (h : (answer equal (gateway r₁ allowlist) s (.call name (.object []))).1 = (answer equal
      (gateway r₂ allowlist) s (.call name (.object []))).1) :
    (r₁.ensureMeta.spec name).isSome = (r₂.ensureMeta.spec name).isSome := by
  simp only [answer,MCPClientGateway.call,dispatch_refused hname,GatewayAnswer.result.injEq] at h
  have hcode := congrArg ToolResult.errorCode h
  cases h₁ : (r₁.ensureMeta.spec name).isSome with
  | false =>
    cases h₂ : (r₂.ensureMeta.spec name).isSome with
    | false => rfl
    | true => simp [h₁,h₂,failed] at hcode
  | true =>
    cases h₂ : (r₂.ensureMeta.spec name).isSome with
    | false => simp [h₁,h₂,failed] at hcode
    | true => rfl

theorem lists_found (h : listsRegistry allowlist r = true) :
    onAllowlist allowlist metaSpec.name = true ∧ r.spec metaSpec.name = some metaSpec ∧
      r.handler metaSpec.name = some .listTools := by
  simp only [listsRegistry,Bool.and_eq_true] at h
  obtain ⟨hname,hany⟩ := h
  cases hfind : r.find metaSpec.name with
  | none => simp [AllowedToolRegistry.handler,hfind] at hany
  | some tool =>
    obtain ⟨spec,handler⟩ := tool
    cases handler with
    | custom handle => simp [AllowedToolRegistry.handler,hfind,Handler.lists] at hany
    | listTools =>
      have hspec := r.builtin _ (find_iff.mp hfind).1 rfl
      simp only at hspec
      subst hspec
      simp only [AllowedToolRegistry.spec,AllowedToolRegistry.handler,hfind]
      exact ⟨hname,rfl,rfl⟩

theorem call_lists (h : listsRegistry allowlist r.ensureMeta = true) (s : σ) :
    (gateway r allowlist).call equal metaSpec.name (.object []) s =
      (resultOf (.ok (.value (listing r.ensureMeta))),s) := by
  obtain ⟨hname,hspec,hhandler⟩ := lists_found h
  simp only [MCPClientGateway.call,MCPClientGateway.dispatch,gateway,hspec,hhandler,hname,
    Bool.not_true,Bool.false_eq_true,if_false]
  rfl

theorem listing_tells (hagree : Agree allowlist r₁ r₂)
    (hlists : listsRegistry allowlist r₁.ensureMeta = true) {s : σ}
    (h : (answer equal (gateway r₁ allowlist) s (.call metaSpec.name (.object []))).1 =
      (answer equal (gateway r₂ allowlist) s (.call metaSpec.name (.object []))).1) :
    listing r₁.ensureMeta = listing r₂.ensureMeta := by
  have hlists₂ : listsRegistry allowlist r₂.ensureMeta = true := by
    obtain ⟨hname,-,hhandler⟩ := lists_found hlists
    rw [listsRegistry,hname,← (agree_spec (agree_ensureMeta hagree) hname).2,hhandler]
    rfl
  simp only [answer,call_lists hlists,call_lists hlists₂,resultOf,GatewayAnswer.result.injEq,
    ToolResult.mk.injEq,Option.some.injEq,Returned.value.injEq] at h
  exact h.2.1

/-- Two registries that agree on the allowlist answer a caller alike exactly if they hide the
same names and, where the caller may list the registry, the same descriptions. -/
theorem hidden_alike (equal : Json → Json → Bool) (allowlist : Option (List String))
    (r₁ r₂ : AllowedToolRegistry σ) (h : Agree allowlist r₁ r₂) (s : σ) :
    (∀ ops, answers equal (gateway r₁ allowlist) ops s =
      answers equal (gateway r₂ allowlist) ops s) ↔
    HiddenAlike allowlist r₁.ensureMeta r₂.ensureMeta := by
  constructor
  · intro hops
    constructor
    · intro name hname
      exact refused_tells hname (answers_first hops (.call name (.object [])))
    · intro hlists name _
      exact listing_eq.mp (listing_tells h hlists
        (answers_first hops (.call metaSpec.name (.object [])))) name
  · intro hidden ops
    exact answers_alike h hidden ops s

def objectSchema : Json := .object [("type",.string "object")]

def readSpec : ToolSpec := ⟨"corpus.read","reads a provision",objectSchema,by decide⟩

def eraseSpec : ToolSpec := ⟨"corpus.erase","erases a provision",objectSchema,by decide⟩

def purgeSpec : ToolSpec := ⟨"corpus.erase","erases a statute",objectSchema,by decide⟩

def readHandler : Handler Unit := .custom fun _ s => (.ok (.value .null),s)

def eraseHandler : Handler Unit := .custom fun _ s => (.error .other,s)

def readRegistry : AllowedToolRegistry Unit where
  tools := [(readSpec,readHandler)]
  distinct := by decide
  builtin := by simp [readHandler,Handler.lists]

def eraseRegistry : AllowedToolRegistry Unit where
  tools := [(readSpec,readHandler),(eraseSpec,eraseHandler)]
  distinct := by decide
  builtin := by simp [readHandler,eraseHandler,Handler.lists]

def purgeRegistry : AllowedToolRegistry Unit where
  tools := [(readSpec,readHandler),(purgeSpec,eraseHandler)]
  distinct := by decide
  builtin := by simp [readHandler,eraseHandler,Handler.lists]

/-- Tools that are hidden from a caller without the list may differ in all but their names. -/
theorem erase_names (name : String) : (eraseRegistry.ensureMeta.spec name).isSome =
    (purgeRegistry.ensureMeta.spec name).isSome := by
  have hnone : eraseRegistry.find metaSpec.name = none ∧
      purgeRegistry.find metaSpec.name = none := ⟨rfl,rfl⟩
  simp only [AllowedToolRegistry.spec,find_ensureMeta,hnone.1,hnone.2,and_true]
  split_ifs
  · rfl
  · by_cases hread : readSpec.name == name
    · simp [AllowedToolRegistry.find,eraseRegistry,purgeRegistry,hread]
    · have hsame : purgeSpec.name = eraseSpec.name := rfl
      by_cases herase : eraseSpec.name == name
      · simp [AllowedToolRegistry.find,eraseRegistry,purgeRegistry,hread,herase,hsame]
      · simp [AllowedToolRegistry.find,eraseRegistry,purgeRegistry,hread,herase,hsame]

theorem erase_hidden :
    HiddenAlike (some ["corpus.read"]) eraseRegistry.ensureMeta purgeRegistry.ensureMeta ∧
    ∀ ops, answers (fun _ _ => false) (gateway eraseRegistry (some ["corpus.read"])) ops () =
      answers (fun _ _ => false) (gateway purgeRegistry (some ["corpus.read"])) ops () := by
  have hagree : Agree (some ["corpus.read"]) eraseRegistry purgeRegistry := by
    intro name hname
    obtain rfl : name = "corpus.read" := by simpa [onAllowlist] using hname
    rfl
  have hidden : HiddenAlike (some ["corpus.read"]) eraseRegistry.ensureMeta
      purgeRegistry.ensureMeta :=
    ⟨fun name _ => erase_names name,fun hlists => nomatch hlists⟩
  exact ⟨hidden,(hidden_alike (fun _ _ => false) (some ["corpus.read"]) eraseRegistry
    purgeRegistry hagree ()).mpr hidden⟩

/-- A caller that may only list the tools tells a registry with a hidden tool from the one
without it, by the code of a refused call and by the list. -/
theorem erase_shown :
    Agree (some [metaSpec.name]) readRegistry eraseRegistry ∧
    ((gateway readRegistry (some [metaSpec.name])).call (fun _ _ => false) eraseSpec.name
      (.object []) ()).1.errorCode = some "unknown_tool" ∧
    ((gateway eraseRegistry (some [metaSpec.name])).call (fun _ _ => false) eraseSpec.name
      (.object []) ()).1.errorCode = some "tool_not_allowed" ∧
    listing readRegistry.ensureMeta ≠ listing eraseRegistry.ensureMeta ∧
    ((gateway eraseRegistry (some [metaSpec.name])).call (fun _ _ => false) metaSpec.name
      (.object []) ()).1.output = some (.value (listing eraseRegistry.ensureMeta)) ∧
    ¬ ∀ ops, answers (fun _ _ => false) (gateway readRegistry (some [metaSpec.name])) ops () =
      answers (fun _ _ => false) (gateway eraseRegistry (some [metaSpec.name])) ops () := by
  have hrefused : onAllowlist (some [metaSpec.name]) eraseSpec.name = false := by decide
  refine ⟨?_,rfl,rfl,?_,?_,?_⟩
  · intro name hname
    obtain rfl : name = metaSpec.name := by simpa [onAllowlist] using hname
    rfl
  · intro h
    have hname := listing_eq.mp h eraseSpec.name
    revert hname
    decide
  · rw [call_lists rfl]
    rfl
  · intro h
    have htold := refused_tells hrefused (answers_first h (.call eraseSpec.name (.object [])))
    revert htold
    decide

end LawyerAgent.McpGateway
