import LawyerAgent.PythonJson
import Mathlib.Data.Rat.Defs
import Mathlib.Algebra.Order.Ring.Rat

/-!
# `json.loads`

The reader of Python with the hooks of stored documents: an object with a
repeated key, a constant such as `NaN` and a float that is not finite end it.
It takes any layout of the text and any escape of a string.
-/

set_option autoImplicit false

namespace LawyerAgent.JsonLoads
open JsonText (consume decimal)
open JsonReader (readInt)
open PythonJson

def isBlank (c : Char) : Bool := decide (c ∈ [' ','\t','\n','\r'])

def skip (text : List Char) : List Char := text.dropWhile isBlank

def hexDigit (c : Char) : Option ℕ :=
  if c.isDigit then some (c.toNat-48)
  else if 97 ≤ c.toNat ∧ c.toNat ≤ 102 then some (c.toNat-87)
  else if 65 ≤ c.toNat ∧ c.toNat ≤ 70 then some (c.toNat-55)
  else none

def hexUnit (a b c d : Char) : Option ℕ := do
  let a ← hexDigit a
  let b ← hexDigit b
  let c ← hexDigit c
  let d ← hexDigit d
  some (((a*16+b)*16+c)*16+d)

def unitChar (n : ℕ) : PyChar :=
  if h : 0xd800 ≤ n ∧ n < 0xe000 then .surrogate ⟨n-0xd800,by omega⟩ else .scalar (Char.ofNat n)

def shortEscapes : List (Char × Char) :=
  [('"','"'),('\\','\\'),('/','/'),('b',Char.ofNat 8),('f',Char.ofNat 12),('n','\n'),
    ('r','\r'),('t','\t')]

/-- The code units of a string, up to its closing quote. -/
def readUnits : List Char → Option (PyText × List Char)
  | [] => none
  | '"'::rest => some ([],rest)
  | '\\':: 'u'::a::b::c::d::rest =>
    (hexUnit a b c d).bind fun n => (readUnits rest).map fun p => (unitChar n::p.1,p.2)
  | '\\'::e::rest =>
    (shortEscapes.lookup e).bind fun c => (readUnits rest).map fun p => (.scalar c::p.1,p.2)
  | c::rest =>
    if c = '\\' ∨ c.toNat < 32 then none else (readUnits rest).map fun p => (.scalar c::p.1,p.2)

def joinPair (c : PyChar) (rest : PyText) : PyText :=
  match c, rest with
  | .surrogate high, .surrogate low::tail =>
    if high.val < 1024 ∧ 1024 ≤ low.val then
      .scalar (Char.ofNat (65536+high.val*1024+(low.val-1024)))::tail
    else .surrogate high::.surrogate low::tail
  | c, rest => c::rest

def joinPairs (units : PyText) : PyText := units.foldr joinPair []

def readString (text : List Char) : Option (PyText × List Char) :=
  (readUnits text).map fun p => (joinPairs p.1,p.2)

def readSign : List Char → List Char × List Char
  | '-'::rest => (['-'],rest)
  | text => ([],text)

def readWhole : List Char → Option (List Char × List Char)
  | [] => none
  | c::rest =>
    if c = '0' then some (['0'],rest)
    else if c.isDigit then some (c::rest.takeWhile Char.isDigit,rest.dropWhile Char.isDigit)
    else none

def readFraction (text : List Char) : List Char × List Char :=
  match text with
  | '.'::rest =>
    if rest.takeWhile Char.isDigit = [] then ([],text)
    else ('.'::rest.takeWhile Char.isDigit,rest.dropWhile Char.isDigit)
  | _ => ([],text)

def readExponentSign : List Char → List Char × List Char
  | '-'::rest => (['-'],rest)
  | '+'::rest => (['+'],rest)
  | text => ([],text)

def readExponent (text : List Char) : List Char × List Char :=
  match text with
  | [] => ([],[])
  | c::rest =>
    let p := readExponentSign rest
    if (c = 'e' ∨ c = 'E') ∧ p.2.takeWhile Char.isDigit ≠ [] then
      (c::p.1++p.2.takeWhile Char.isDigit,p.2.dropWhile Char.isDigit)
    else ([],text)

/-- The number behind the `e` of an exponent, zero without one. -/
def exponentValue (exponent : List Char) : ℤ :=
  readInt ((exponent.drop 1).filter fun c => decide (c ≠ '+'))

/-- The first number that rounds to infinity. -/
def floatLimit : ℚ := 2^1024-2^970

/-- `math.isfinite(float(value))` -/
def finiteParts (whole fraction exponent : List Char) : Bool :=
  decide ((decimal (whole++fraction.drop 1) : ℚ)*
    (10 : ℚ)^(exponentValue exponent-((fraction.drop 1).length : ℤ)) < floatLimit)

/-- `sys.get_int_max_str_digits()` -/
def maxDigits : ℕ := 4300

def readNumber (text : List Char) : Option (Value × List Char) :=
  let signed := readSign text
  (readWhole signed.2).bind fun whole =>
    let fraction := readFraction whole.2
    let exponent := readExponent fraction.2
    if fraction.1 = [] ∧ exponent.1 = [] then
      if maxDigits < whole.1.length then none
      else some (.int (readInt (signed.1++whole.1)),exponent.2)
    else if finiteParts whole.1 fraction.1 exponent.1 then
      some (.float (some (signed.1++whole.1++fraction.1++exponent.1)),exponent.2)
    else none

/-- `NaN`, `Infinity` and `-Infinity` are refused like any other text. -/
def readScalar (text : List Char) : Option (Value × List Char) :=
  match consume "null".toList text with
  | some rest => some (.none,rest)
  | none =>
    match consume "true".toList text with
    | some rest => some (.bool true,rest)
    | none =>
      match consume "false".toList text with
      | some rest => some (.bool false,rest)
      | none => readNumber text

def uniqueObject (pairs : List (PyText × Value)) : Option Value :=
  if (pairs.map Prod.fst).Nodup then some (.dict (pairs.map fun p => (.str p.1,p.2))) else none

mutual

def readValue : ℕ → List Char → Option (Value × List Char)
  | 0, _ => none
  | _+1, [] => none
  | fuel+1, c::text =>
    if c = '"' then (readString text).map fun p => (.str p.1,p.2)
    else if c = '[' then
      if (skip text).head? = some ']' then some (.list [],(skip text).drop 1)
      else (readItems fuel (skip text)).map fun p => (.list p.1,p.2)
    else if c = '\x7b' then
      if (skip text).head? = some '\x7d' then some (.dict [],(skip text).drop 1)
      else (readFields fuel (skip text)).bind fun p =>
        (uniqueObject p.1).map fun value => (value,p.2)
    else readScalar (c::text)

def readItems : ℕ → List Char → Option (List Value × List Char)
  | 0, _ => none
  | fuel+1, text =>
    (readValue fuel text).bind fun p =>
      match skip p.2 with
      | ','::rest => (readItems fuel (skip rest)).map fun q => (p.1::q.1,q.2)
      | ']'::rest => some ([p.1],rest)
      | _ => none

def readFields : ℕ → List Char → Option (List (PyText × Value) × List Char)
  | 0, _ => none
  | fuel+1, text =>
    match text with
    | '"'::text =>
      (readString text).bind fun key =>
        match skip key.2 with
        | ':'::text =>
          (readValue fuel (skip text)).bind fun p =>
            match skip p.2 with
            | ','::rest => (readFields fuel (skip rest)).map fun q => ((key.1,p.1)::q.1,q.2)
            | '\x7d'::rest => some ([(key.1,p.1)],rest)
            | _ => none
        | _ => none
    | _ => none

end

mutual

def nesting : Value → ℕ
  | .list items => itemsNesting items+1
  | .tuple items => itemsNesting items+1
  | .dict items => fieldsNesting items+1
  | _ => 0

def itemsNesting : List Value → ℕ
  | [] => 0
  | item::items => max (nesting item) (itemsNesting items)

def fieldsNesting : List (Value × Value) → ℕ
  | [] => 0
  | (_,value)::items => max (nesting value) (fieldsNesting items)

end

/-- `json.loads`; a text whose containers do not fit on the stack is a `RecursionError`. -/
def loads (frames : ℕ) (text : List Char) : Option Value :=
  if text.head? = some (Char.ofNat 0xfeff) then none
  else
    match readValue (text.length+1) (skip text) with
    | some (value,rest) =>
      if skip rest = [] ∧ nesting value ≤ frames then some value else none
    | none => none

end LawyerAgent.JsonLoads
