import LawyerAgent.JsonReader

/-!
# Python values as JSON text

`json.dumps` with its default separators, `ensure_ascii=False` and
`allow_nan=False`. A string may hold unpaired surrogates: they are written as
they are, and only the UTF-8 encoder refuses them.
-/

set_option autoImplicit false

namespace LawyerAgent.PythonJson
open CanonicalJson JsonReader

inductive PyChar where
  | scalar (c : Char)
  | surrogate (code : Fin 2048)
deriving DecidableEq

abbrev PyText : Type := List PyChar

def plainText (text : List Char) : PyText := text.map .scalar

inductive Value where
  | none
  | bool (value : Bool)
  | int (value : ℤ)
  /-- A finite float is the text it is written as. -/
  | float (text : Option (List Char))
  | str (text : PyText)
  | list (items : List Value)
  | tuple (items : List Value)
  | dict (items : List (Value × Value))
  /-- What `json` does not serialize: another type, a cycle, too deep a nesting. -/
  | other

def escape : PyChar → PyText
  | .scalar c => plainText (escapeChar c)
  | .surrogate code => [.surrogate code]

def quoted (text : PyText) : PyText := .scalar '"'::text.flatMap escape++[.scalar '"']

def boolText (value : Bool) : List Char := if value then "true".toList else "false".toList

/-- Keys of other types than these are a `TypeError`. -/
def dumpsKey : Value → Option PyText
  | .none => some (quoted (plainText "null".toList))
  | .bool value => some (quoted (plainText (boolText value)))
  | .int value => some (quoted (plainText (intText value)))
  | .float text => text.map fun digits => quoted (plainText digits)
  | .str text => some (quoted text)
  | _ => none

def joined (parts : List PyText) : PyText := List.intercalate (plainText ", ".toList) parts

mutual

def dumps : Value → Option PyText
  | .none => some (plainText "null".toList)
  | .bool value => some (plainText (boolText value))
  | .int value => some (plainText (intText value))
  | .float text => text.map plainText
  | .str text => some (quoted text)
  | .list items => (dumpsItems items).map fun parts =>
      .scalar '['::joined parts++[.scalar ']']
  | .tuple items => (dumpsItems items).map fun parts =>
      .scalar '['::joined parts++[.scalar ']']
  | .dict items => (dumpsFields items).map fun parts =>
      .scalar '\x7b'::joined parts++[.scalar '\x7d']
  | .other => none

def dumpsItems : List Value → Option (List PyText)
  | [] => some []
  | item::items => do
    let part ← dumps item
    let parts ← dumpsItems items
    some (part::parts)

def dumpsFields : List (Value × Value) → Option (List PyText)
  | [] => some []
  | (key,value)::items => do
    let name ← dumpsKey key
    let part ← dumps value
    let parts ← dumpsFields items
    some ((name++plainText ": ".toList++part)::parts)

end

def scalarOf : PyChar → Option Char
  | .scalar c => some c
  | .surrogate _ => none

/-- `text.encode("utf-8")` -/
def utf8 (text : PyText) : Option (List UInt8) := (text.mapM scalarOf).map encode

def keyIs (name : PyText) (item : Value × Value) : Bool :=
  match item.1 with
  | .str text => decide (text = name)
  | _ => false

/-- `mapping.get(name)` -/
def get (items : List (Value × Value)) (name : PyText) : Value :=
  ((items.find? (keyIs name)).map fun item => item.2).getD .none

end LawyerAgent.PythonJson
